import DialogueEngine.Word

/-! # Reading numerals

Two grammars of numerals that texts of a dialogue and of its player may contain.

* `readFloat?` — a decimal numeral, read as the nearest double. Sign, point and exponent are
  optional, digits may be missing on one side of the point, and `inf`, `infinity` and `nan` are
  numerals in any case.
* `readIndex?` — a natural number below `2 ^ 64`, with an optional plus sign.
-/

namespace DialogueEngine.Decimal

def isDigit (c : Char) : Bool := '0' ≤ c && c ≤ '9'

def ofDigits (cs : List Char) : Nat :=
  cs.foldl (fun n c => 10 * n + (c.toNat - '0'.toNat)) 0

/-- Takes a sign off; `true` stands for minus. -/
def splitSign : List Char → Bool × List Char
  | '-' :: cs => (true, cs)
  | '+' :: cs => (false, cs)
  | cs => (false, cs)

inductive Numeral where
  | nan
  | infinite
  | number (mantissa : Nat) (exponent : Int)
  deriving DecidableEq, Repr

def exponent? : List Char → Option Int
  | [] => some 0
  | c :: cs =>
    if c == 'e' || c == 'E' then
      let (negative, digits) := splitSign cs
      if digits.isEmpty || !digits.all isDigit then none
      else some (if negative then -(ofDigits digits : Int) else ofDigits digits)
    else none

def numeral? (cs : List Char) : Option Numeral :=
  let lower := cs.map Char.toLower
  if lower = "nan".toList then some .nan
  else if lower = "inf".toList ∨ lower = "infinity".toList then some .infinite
  else
    let whole := cs.takeWhile isDigit
    let rest := cs.dropWhile isDigit
    let (part, rest) := match rest with
      | '.' :: rest => (rest.takeWhile isDigit, rest.dropWhile isDigit)
      | rest => ([], rest)
    -- one side of the point may be empty, but not both
    if whole.isEmpty && part.isEmpty then none
    else (exponent? rest).map fun e =>
      .number (ofDigits (whole ++ part)) (e - part.length)

/-- The double nearest to `mantissa · 10 ^ exponent`. Beyond four hundred places on either side
    every number is infinite or zero. -/
def nearest (mantissa : Nat) (exponent : Int) : Float :=
  if mantissa = 0 then 0.0
  else
    let order := exponent + (Nat.toDigits 10 mantissa).length
    if 400 < order then 1.0 / 0.0
    else if order < -400 then 0.0
    else Float.ofScientific mantissa (decide (exponent < 0)) exponent.natAbs

def readFloat? (s : String) : Option Float :=
  let (negative, cs) := splitSign s.toList
  (numeral? cs).map fun n =>
    let x := match n with
      | .nan => 0.0 / 0.0
      | .infinite => 1.0 / 0.0
      | .number mantissa exponent => nearest mantissa exponent
    if negative then -x else x

def readIndex? (s : String) : Option Nat :=
  let digits := match s.toList with
    | '+' :: cs => cs
    | cs => cs
  if digits.isEmpty || !digits.all isDigit then none
  else
    let n := ofDigits digits
    if n < Word.bound then some n else none

end DialogueEngine.Decimal
