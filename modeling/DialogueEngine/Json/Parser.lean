import DialogueEngine.Json.Basic

/-! # Reading documents

A document is cut into tokens, and a machine with a stack of open containers builds the tree, one
token at a time.
-/

namespace DialogueEngine.Json

/-! ## Tokens -/

inductive Token where
  | openArray
  | closeArray
  | openObject
  | closeObject
  | colon
  | comma
  | null
  | bool (b : Bool)
  | number (lexeme : List UInt8)
  | string (lexeme : List UInt8)
  deriving DecidableEq

/-- The white space between tokens: space, tab, line feed and carriage return. -/
def isSpace (b : UInt8) : Bool := b == 0x20 || b == 0x09 || b == 0x0A || b == 0x0D

def isNumeric (b : UInt8) : Bool :=
  isDigit b || b == ascii '-' || b == ascii '+' || b == ascii '.' || b == ascii 'e' ||
    b == ascii 'E'

/-- The lexeme of a string up to its closing quote, and what follows the quote. An escape has to
    have its form; a control character is no part of a string. -/
def scanString : List UInt8 → Option (List UInt8 × List UInt8)
  | [] => none
  | 0x22 :: rest => some ([], rest)
  | 0x5C :: 0x75 :: a :: b :: c :: d :: rest =>
    if (hexUnit? a b c d).isSome then
      (scanString rest).map fun r => (0x5C :: 0x75 :: a :: b :: c :: d :: r.1, r.2)
    else none
  | 0x5C :: letter :: rest =>
    if (shortUnescape? letter).isSome then
      (scanString rest).map fun r => (0x5C :: letter :: r.1, r.2)
    else none
  | b :: rest =>
    if b < 0x20 || b == 0x5C then none else (scanString rest).map fun r => (b :: r.1, r.2)

def stripWord? (word : String) (bytes : List UInt8) : Option (List UInt8) :=
  let w := word.toList.map ascii
  if w.isPrefixOf bytes then some (bytes.drop w.length) else none

def Token.first? (b : UInt8) (rest : List UInt8) : Option (Token × List UInt8) :=
  if b == ascii '[' then some (.openArray, rest)
  else if b == ascii ']' then some (.closeArray, rest)
  else if b == ascii '\x7b' then some (.openObject, rest)
  else if b == ascii '\x7d' then some (.closeObject, rest)
  else if b == ascii ':' then some (.colon, rest)
  else if b == ascii ',' then some (.comma, rest)
  else if b == ascii '"' then (scanString rest).map fun r => (.string r.1, r.2)
  else if b == ascii 'n' then (stripWord? "ull" rest).map (.null, ·)
  else if b == ascii 't' then (stripWord? "rue" rest).map (.bool true, ·)
  else if b == ascii 'f' then (stripWord? "alse" rest).map (.bool false, ·)
  else if isNumeric b then
    -- as long as it may be a number; the grammar is asked about the whole
    let lexeme := b :: rest.takeWhile isNumeric
    if (Numeral.split? lexeme).isSome then some (.number lexeme, rest.dropWhile isNumeric)
    else none
  else none

/-- Cuts off one token after the other; each takes a byte at least, so that as many steps as there
    are bytes suffice. -/
def Token.lexWithin? : Nat → List UInt8 → Option (List Token)
  | 0, bytes => if bytes.all isSpace then some [] else none
  | steps + 1, bytes =>
    match bytes.dropWhile isSpace with
    | [] => some []
    | b :: rest =>
      match Token.first? b rest with
      | none => none
      | some (t, rest) => (Token.lexWithin? steps rest).map (t :: ·)

def Token.lex? (bytes : List UInt8) : Option (List Token) := Token.lexWithin? bytes.length bytes

/-! ## The tree -/

/-- A container that is still open, with what it holds so far, the last first. -/
inductive Frame where
  | items (done : List Json)
  | member (done : List (List UInt8 × Json)) (key : List UInt8)

/-- Where the machine stands: what may come next, inside which open containers. -/
inductive Builder where
  | value (stack : List Frame)
  /-- An array has just been opened. -/
  | firstItem (stack : List Frame)
  | afterItem (done : List Json) (stack : List Frame)
  /-- An object has just been opened. -/
  | firstKey (stack : List Frame)
  | key (done : List (List UInt8 × Json)) (stack : List Frame)
  | colon (done : List (List UInt8 × Json)) (key : List UInt8) (stack : List Frame)
  | afterMember (done : List (List UInt8 × Json)) (stack : List Frame)
  | finished (j : Json)

def Builder.deliver (j : Json) : List Frame → Builder
  | [] => .finished j
  | .items done :: stack => .afterItem (j :: done) stack
  | .member done k :: stack => .afterMember ((k, j) :: done) stack

def Builder.start? (stack : List Frame) : Token → Option Builder
  | .openArray => some (.firstItem stack)
  | .openObject => some (.firstKey stack)
  | .null => some (.deliver .null stack)
  | .bool b => some (.deliver (.bool b) stack)
  | .number lexeme => some (.deliver (.number lexeme) stack)
  | .string lexeme => some (.deliver (.string lexeme) stack)
  | _ => none

def Builder.step? : Builder → Token → Option Builder
  | .value stack, t => start? stack t
  | .firstItem stack, .closeArray => some (deliver (.array []) stack)
  | .firstItem stack, t => start? (.items [] :: stack) t
  | .afterItem done stack, .comma => some (.value (.items done :: stack))
  | .afterItem done stack, .closeArray => some (deliver (.array done.reverse) stack)
  | .firstKey stack, .closeObject => some (deliver (.object []) stack)
  | .firstKey stack, .string k => some (.colon [] k stack)
  | .key done stack, .string k => some (.colon done k stack)
  | .colon done k stack, .colon => some (.value (.member done k :: stack))
  | .afterMember done stack, .comma => some (.key done stack)
  | .afterMember done stack, .closeObject => some (deliver (.object done.reverse) stack)
  | _, _ => none

def Builder.run? (m : Builder) (ts : List Token) : Option Builder := ts.foldlM step? m

def parse? (bytes : List UInt8) : Option Json := do
  let ts ← Token.lex? bytes
  match ← Builder.run? (.value []) ts with
  | .finished j => some j
  | _ => none

def parseText? (s : String) : Option Json := parse? s.toUTF8.data.toList

end DialogueEngine.Json
