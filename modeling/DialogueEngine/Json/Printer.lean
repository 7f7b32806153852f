import DialogueEngine.Json.Basic

/-! # Writing documents

* `Json.write` — the compact form, without white space.
* `Json.writeIndented` — one item or member a line, with two spaces for each container around it.
-/

namespace DialogueEngine.Json

def quote (lexeme : List UInt8) : List UInt8 := 0x22 :: (lexeme ++ [0x22])

def word (s : String) : List UInt8 := s.toList.map ascii

mutual

def write : Json → List UInt8
  | .null => word "null"
  | .bool b => word (if b then "true" else "false")
  | .number lexeme => lexeme
  | .string lexeme => quote lexeme
  | .array items => ascii '[' :: (writeItems true items ++ [ascii ']'])
  | .object members => ascii '\x7b' :: (writeMembers true members ++ [ascii '\x7d'])

def writeItems (first : Bool) : List Json → List UInt8
  | [] => []
  | j :: rest => (if first then [] else [ascii ',']) ++ j.write ++ writeItems false rest

def writeMembers (first : Bool) : List (List UInt8 × Json) → List UInt8
  | [] => []
  | (k, j) :: rest =>
    (if first then [] else [ascii ',']) ++ quote k ++ ascii ':' :: j.write ++
      writeMembers false rest

end

def newline (level : Nat) : List UInt8 := 0x0A :: List.replicate (2 * level) 0x20

mutual

/-- A document with one item or member a line; empty containers stay closed up. -/
def writeIndented (level : Nat) : Json → List UInt8
  | .array [] => word "[]"
  | .array items =>
    ascii '[' :: (indentItems (level + 1) true items ++ newline level ++ [ascii ']'])
  | .object [] => [ascii '\x7b', ascii '\x7d']
  | .object members =>
    ascii '\x7b' :: (indentMembers (level + 1) true members ++ newline level ++ [ascii '\x7d'])
  | .null => word "null"
  | .bool b => word (if b then "true" else "false")
  | .number lexeme => lexeme
  | .string lexeme => quote lexeme

def indentItems (level : Nat) (first : Bool) : List Json → List UInt8
  | [] => []
  | j :: rest =>
    (if first then [] else [ascii ',']) ++ newline level ++ j.writeIndented level ++
      indentItems level false rest

def indentMembers (level : Nat) (first : Bool) : List (List UInt8 × Json) → List UInt8
  | [] => []
  | (k, j) :: rest =>
    (if first then [] else [ascii ',']) ++ newline level ++ quote k ++ word ": " ++
      j.writeIndented level ++ indentMembers level false rest

end

end DialogueEngine.Json
