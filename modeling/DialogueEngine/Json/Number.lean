import DialogueEngine.Decimal.Layout

/-! # Numbers of documents

A number of a document is kept as it is written, as a list of bytes; this module gives the
grammar of such lexemes and their values.

* `Numeral.split?` — the grammar.
* `Number.ofLexeme?` — the value: whole numbers of 64 bits as they are, all others as doubles.
* `ofFloat?` — the lexeme that a finite double is written as.

A double is computed from the first digits that fit in 64 bits by one multiplication or division
with a power of ten, so it can differ from the nearest double in its last bit.
-/

namespace DialogueEngine.Json

def ascii (c : Char) : UInt8 := c.toNat.toUInt8

def isDigit (b : UInt8) : Bool := 0x30 ≤ b && b ≤ 0x39

def digit (b : UInt8) : Nat := b.toNat - 0x30

structure Numeral where
  negative : Bool
  /-- The digits before the point. -/
  whole : List UInt8
  /-- The digits behind the point, if there is one. -/
  part : Option (List UInt8)
  /-- Sign and digits of the exponent, if there is one; `true` stands for minus. -/
  exponent : Option (Bool × List UInt8)
  deriving DecidableEq

def Numeral.exponent? : List UInt8 → Option (Option (Bool × List UInt8))
  | [] => some none
  | mark :: rest =>
    if mark == ascii 'e' || mark == ascii 'E' then
      let (negative, digits) := match rest with
        | b :: more =>
          if b == ascii '-' then (true, more)
          else if b == ascii '+' then (false, more)
          else (false, rest)
        | [] => (false, [])
      if digits.isEmpty || !digits.all isDigit then none else some (some (negative, digits))
    else none

/-- Splits a number into its parts: an optional minus, digits without a needless zero in front,
    an optional point with digits behind it, and an optional exponent. -/
def Numeral.split? (lexeme : List UInt8) : Option Numeral :=
  let (negative, rest) := match lexeme with
    | b :: more => if b == ascii '-' then (true, more) else (false, lexeme)
    | [] => (false, [])
  let whole := rest.takeWhile isDigit
  let rest := rest.dropWhile isDigit
  if whole.isEmpty || (whole.head? == some (ascii '0') && whole.length != 1) then none
  else
    match rest with
    | b :: more =>
      if b == ascii '.' then
        let part := more.takeWhile isDigit
        if part.isEmpty then none
        else (exponent? (more.dropWhile isDigit)).map (⟨negative, whole, some part, ·⟩)
      else (exponent? rest).map (⟨negative, whole, none, ·⟩)
    | [] => some ⟨negative, whole, none, none⟩

/-- The value of a number: a whole number of 64 bits with or without sign, or a double. -/
inductive Number where
  | natural (n : Nat)
  | negative (n : Nat)
  | real (x : Float)
  deriving DecidableEq

/-- Reads digits into a number as long as it fits in 64 bits; the digits left over are returned. -/
def accumulate : Nat → List UInt8 → Nat × List UInt8
  | n, [] => (n, [])
  | n, b :: rest =>
    if Word.bound ≤ 10 * n + digit b then (n, b :: rest) else accumulate (10 * n + digit b) rest

def powerOfTen (e : Nat) : Float := Float.ofScientific 1 false e

/-- The double of `x · 10 ^ e`, by one rounded operation where the power is a double itself, and
    none if it is too large. Smaller powers are first brought into range, which takes at most
    `steps` divisions before the number is zero. -/
def scaled? : Nat → Float → Int → Option Float
  | 0, x, _ => some x
  | steps + 1, x, e =>
    if e.natAbs ≤ 308 then
      if 0 ≤ e then
        let y := x * powerOfTen e.natAbs
        if Decimal.isFinite y then some y else none
      else some (x / powerOfTen e.natAbs)
    else if x == 0.0 then some x
    else if 0 ≤ e then none
    else scaled? steps (x / powerOfTen 308) (e + 308)

def double? (negative : Bool) (n : Nat) (e : Int) : Option Float :=
  (scaled? 4 n.toUInt64.toFloat e).map fun x => if negative then -x else x

def ofDigits (ds : List UInt8) : Nat := ds.foldl (fun n b => 10 * n + digit b) 0

def Numeral.value? (m : Numeral) : Option Number :=
  let (n, unread) := accumulate 0 m.whole
  match m.part, m.exponent with
  | none, none =>
    if !unread.isEmpty then (double? m.negative n unread.length).map .real
    else if !m.negative then some (.natural n)
    -- minus zero, and what is below the least signed word, are doubles
    else if n = 0 || Word.bound < 2 * n then some (.real (-n.toUInt64.toFloat))
    else some (.negative n)
  | part, exponent =>
    let digits := part.getD []
    let (n, unread') := accumulate n digits
    -- digits left over before the point count places up, those read behind it count down
    let start := (unread.length : Int) - ((digits.length - unread'.length : Nat) : Int)
    match exponent with
    | none => (double? m.negative n start).map .real
    | some (down, ds) =>
      let e := ofDigits ds
      -- an exponent beyond 32 bits: zero, or no number at all
      if 2147483648 ≤ e then
        if n != 0 && !down then none else some (.real (if m.negative then -0.0 else 0.0))
      else (double? m.negative n (if down then start - e else start + e)).map .real

def Number.ofLexeme? (lexeme : List UInt8) : Option Number :=
  (Numeral.split? lexeme).bind Numeral.value?

def Number.toFloat : Number → Float
  | .natural n => n.toUInt64.toFloat
  | .negative n => -n.toUInt64.toFloat
  | .real x => x

def ofFloat? (x : Float) : Option (List UInt8) :=
  match Decimal.shape x with
  | .finite negative mantissa exponent =>
    some ((Decimal.documentLayout.write negative mantissa exponent).map ascii)
  | _ => none

end DialogueEngine.Json
