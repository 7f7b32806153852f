import DialogueEngine.Text.Unprintable

/-! # Quoted text

How a text is shown inside the description of an instruction: in double quotes, with a backslash
before quotes and backslashes, short escapes for four control characters, and the code point in
hexadecimal for every character that would not show on its own.
-/

namespace DialogueEngine.Text

def hexDigits (n : Nat) : List Char := Nat.toDigits 16 n

def escapeQuoted (c : Char) : List Char :=
  match c with
  | '\x00' => ['\\', '0']
  | '\t' => ['\\', 't']
  | '\r' => ['\\', 'r']
  | '\n' => ['\\', 'n']
  | '"' => ['\\', '"']
  | '\\' => ['\\', '\\']
  | c => if isUnprintable c then '\\' :: 'u' :: '\x7b' :: (hexDigits c.toNat ++ ['\x7d']) else [c]

def quoted (s : String) : String :=
  String.ofList ('"' :: (s.toList.flatMap escapeQuoted ++ ['"']))

end DialogueEngine.Text
