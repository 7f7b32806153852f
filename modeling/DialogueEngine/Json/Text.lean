import DialogueEngine.Json.Number

/-! # Strings of documents

A string of a document is kept as the bytes between its quotes. Not every such lexeme stands for
a text: escapes may name half a surrogate pair, and bytes need not be UTF-8.

* `escape`, `lexemeOf` — the lexeme of a text: quotes, backslashes and control characters are
  escaped, everything else stands as it is.
* `unescape`, `textOf?` — the text of a lexeme, if it has one.
-/

namespace DialogueEngine.Json

def hexDigit (n : Nat) : UInt8 := if n < 10 then (0x30 + n).toUInt8 else (0x57 + n).toUInt8

def hexValue? (b : UInt8) : Option Nat :=
  let n := b.toNat
  if 0x30 ≤ n && n ≤ 0x39 then some (n - 0x30)
  else if 0x61 ≤ n && n ≤ 0x66 then some (n - 0x57)
  else if 0x41 ≤ n && n ≤ 0x46 then some (n - 0x37)
  else none

def hexUnit? (a b c d : UInt8) : Option Nat := do
  let a ← hexValue? a
  let b ← hexValue? b
  let c ← hexValue? c
  let d ← hexValue? d
  return ((a * 16 + b) * 16 + c) * 16 + d

def shortEscape? (b : UInt8) : Option Char :=
  match b.toNat with
  | 0x22 => some '"'
  | 0x5C => some '\\'
  | 0x08 => some 'b'
  | 0x0C => some 'f'
  | 0x0A => some 'n'
  | 0x0D => some 'r'
  | 0x09 => some 't'
  | _ => none

def escapeByte (b : UInt8) : List UInt8 :=
  match shortEscape? b with
  | some c => [ascii '\\', ascii c]
  | none =>
    if b < 0x20 then
      [ascii '\\', ascii 'u', ascii '0', ascii '0', hexDigit (b.toNat / 16),
        hexDigit (b.toNat % 16)]
    else [b]

def escape (bytes : List UInt8) : List UInt8 := bytes.flatMap escapeByte

def lexemeOf (s : String) : List UInt8 := escape s.toUTF8.data.toList

def shortUnescape? (letter : UInt8) : Option UInt8 :=
  match Char.ofNat letter.toNat with
  | '"' => some 0x22
  | '\\' => some 0x5C
  | '/' => some 0x2F
  | 'b' => some 0x08
  | 'f' => some 0x0C
  | 'n' => some 0x0A
  | 'r' => some 0x0D
  | 't' => some 0x09
  | _ => none

/-- A piece of a lexeme: a byte of the text, or a 16-bit unit written in hexadecimal. -/
inductive Piece where
  | byte (b : UInt8)
  | unit (u : Nat)
  deriving DecidableEq

def pieces? : List UInt8 → Option (List Piece)
  | [] => some []
  | 0x5C :: 0x75 :: a :: b :: c :: d :: rest => do
    let u ← hexUnit? a b c d
    let ps ← pieces? rest
    return .unit u :: ps
  | 0x5C :: letter :: rest => do
    let b ← shortUnescape? letter
    let ps ← pieces? rest
    return .byte b :: ps
  | b :: rest =>
    if b == 0x5C then none
    else do
      let ps ← pieces? rest
      return .byte b :: ps

def isHighSurrogate (u : Nat) : Bool := 0xD800 ≤ u && u < 0xDC00

def isLowSurrogate (u : Nat) : Bool := 0xDC00 ≤ u && u < 0xE000

def encodePoint (n : Nat) : List UInt8 := String.utf8EncodeChar (Char.ofNat n)

/-- The bytes of pieces; two halves of a surrogate pair make one character, and a half alone
    makes none. -/
def joinPieces : List Piece → Option (List UInt8)
  | [] => some []
  | .byte b :: rest => (joinPieces rest).map (b :: ·)
  | .unit u :: rest =>
    -- the other half has to be written in hexadecimal too, right behind the first
    if isHighSurrogate u then
      match rest with
      | .unit v :: rest' =>
        if isLowSurrogate v then
          (joinPieces rest').map
            (encodePoint (0x10000 + (u - 0xD800) * 0x400 + (v - 0xDC00)) ++ ·)
        else none
      | _ => none
    else if isLowSurrogate u then none
    else (joinPieces rest).map (encodePoint u ++ ·)

/-- The bytes of the text that a lexeme stands for; none if an escape is not one, or names half a
    surrogate pair. -/
def unescape (lexeme : List UInt8) : Option (List UInt8) := (pieces? lexeme).bind joinPieces

def textOfBytes? (bytes : List UInt8) : Option String :=
  String.fromUTF8? ⟨bytes.toArray⟩

def textOf? (lexeme : List UInt8) : Option String := (unescape lexeme).bind textOfBytes?

end DialogueEngine.Json
