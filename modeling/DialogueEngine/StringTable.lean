import DialogueEngine.Json.Parser
import DialogueEngine.Line

/-! # String tables

The texts of the lines, by their keys. A text may hold placeholders `{0}`, `{1}` and so on, which
the substitutions of a line fill one after the other.
-/

namespace DialogueEngine

namespace Text

/-- Replaces the occurrences of a pattern, from left to right; `skip` characters of an occurrence
    are still to be passed over. -/
def replaceFrom (pattern filler : List Char) : Nat → List Char → List Char
  | _, [] => []
  | skip + 1, _ :: cs => replaceFrom pattern filler skip cs
  | 0, c :: cs =>
    if pattern.isPrefixOf (c :: cs) then
      filler ++ replaceFrom pattern filler (pattern.length - 1) cs
    else c :: replaceFrom pattern filler 0 cs

def replaceAll (pattern filler : List Char) (cs : List Char) : List Char :=
  replaceFrom pattern filler 0 cs

end Text

/-- The texts of lines, by their keys. -/
structure StringTable where
  entries : Dict String String
  deriving DecidableEq, Inhabited

namespace StringTable

def empty : StringTable := ⟨Dict.empty⟩

def ofList (pairs : List (String × String)) : StringTable := ⟨Dict.ofList pairs⟩

def insert (t : StringTable) (id text : String) : StringTable := ⟨t.entries.insert id text⟩

def extend (t other : StringTable) : StringTable := ⟨t.entries.insertAll other.entries.entries⟩

def find? (t : StringTable) (id : String) : Option String := t.entries.find? id

def contains (t : StringTable) (id : String) : Bool := t.entries.contains id

def size (t : StringTable) : Nat := t.entries.size

def isEmpty (t : StringTable) : Bool := t.entries.isEmpty

def placeholder (i : Nat) : List Char := '\x7b' :: (Nat.toDigits 10 i ++ ['\x7d'])

/-- Fills the placeholders from number `i` on, one substitution after the other. -/
def fill : Nat → List String → List Char → List Char
  | _, [], cs => cs
  -- also where the substitutions before this one have put a placeholder in
  | i, s :: rest, cs => fill (i + 1) rest (Text.replaceAll (placeholder i) s.toList cs)

/-- The text of a line; a line without a text in the table is empty. -/
def resolve (t : StringTable) (line : Line) : String :=
  match t.find? line.id with
  | none => ""
  | some template => String.ofList (fill 0 line.substitutions template.toList)

def ofJson? (j : Json) : Option StringTable := (j.dict? Json.text?).map (⟨·⟩)

def ofText? (s : String) : Option StringTable := (Json.parseText? s).bind ofJson?

end StringTable

end DialogueEngine
