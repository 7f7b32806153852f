/-! # White space

The characters with the property White_Space, and the two ways the library cuts text at them.
-/

namespace DialogueEngine.Text

/-- The property White_Space of the Unicode standard. -/
def isBlank (c : Char) : Bool :=
  let n := c.toNat
  (9 ≤ n && n ≤ 13) || n == 0x20 || n == 0x85 || n == 0xA0 || n == 0x1680 ||
    (0x2000 ≤ n && n ≤ 0x200A) || n == 0x2028 || n == 0x2029 || n == 0x202F || n == 0x205F ||
    n == 0x3000

/-- Puts a character in front of the first word if the text goes on with that word, and else
    makes it a word of its own. -/
def joinWord (c : Char) (rest : List Char) (ws : List (List Char)) : List (List Char) :=
  match rest, ws with
  | d :: _, w :: ws => if isBlank d then [c] :: w :: ws else (c :: w) :: ws
  | _, ws => [c] :: ws

def wordsOf : List Char → List (List Char)
  | [] => []
  | c :: cs => if isBlank c then wordsOf cs else joinWord c cs (wordsOf cs)

/-- The maximal runs of characters that are not white space. -/
def words (s : String) : List String := (wordsOf s.toList).map String.ofList

def trimChars (cs : List Char) : List Char :=
  ((cs.dropWhile isBlank).reverse.dropWhile isBlank).reverse

def trim (s : String) : String := String.ofList (trimChars s.toList)

end DialogueEngine.Text
