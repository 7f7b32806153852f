import DialogueEngine.Word

/-! # Shortest decimals

The decimal that stands for a double when it is written: of all decimals that read back as the
double, those with the fewest digits, and of these the nearest.

* `shape` — a double as `mantissa · 2 ^ exponent`.
* `Scale.ofMagnitude` — the number and the two ends of the interval that reads back as it, over
  one denominator.
* `shortest` — the search, one power of ten after the other.
-/

namespace DialogueEngine.Decimal

inductive Shape where
  | nan
  | infinite (negative : Bool)
  | finite (negative : Bool) (mantissa : Nat) (exponent : Int)
  deriving DecidableEq, Repr

def fractionBound : Nat := 4503599627370496

def shape (x : Float) : Shape :=
  let bits := x.toBits.toNat
  let negative : Bool := decide (Word.bound ≤ 2 * bits)
  let biased : Nat := bits / fractionBound % 2048
  let fraction : Nat := bits % fractionBound
  if biased = 2047 then
    if fraction = 0 then .infinite negative else .nan
  else if biased = 0 then .finite negative fraction (-1074 : Int)
  else .finite negative (fractionBound + fraction) ((biased : Int) - 1075)

def isFinite (x : Float) : Bool :=
  match shape x with
  | .finite .. => true
  | _ => false

/-- A positive number and the ends of the interval of reals that read back as it, as numerators
    over one denominator; the ends belong to the interval if the mantissa is even. -/
structure Scale where
  value : Nat
  low : Nat
  high : Nat
  denominator : Nat
  closed : Bool

/-- The scale of `mantissa · 2 ^ exponent`. Below a power of two the neighbours are half as far
    away, so the lower end is nearer there. -/
def Scale.ofMagnitude (mantissa : Nat) (exponent : Int) : Scale :=
  let shift := exponent - 2
  let factor := Nat.pow 2 shift.toNat
  -- at the least exponent the spacing does not shrink any more
  let below := if mantissa = fractionBound ∧ exponent ≠ -1074 then 1 else 2
  { value := 4 * mantissa * factor
    low := (4 * mantissa - below) * factor
    high := (4 * mantissa + 2) * factor
    denominator := Nat.pow 2 (-shift).toNat
    closed := mantissa % 2 == 0 }

inductive Tie where
  | up
  | toEven
  deriving DecidableEq, Repr

namespace Scale

/-- Numerator of `10 ^ place` times the denominator, with the negative part of the power moved
    to the other side by `lift`. -/
def unit (s : Scale) (place : Int) : Nat := s.denominator * Nat.pow 10 place.toNat

def lift (place : Int) : Nat := Nat.pow 10 (-place).toNat

def holds (s : Scale) (place : Int) (digits : Nat) : Bool :=
  let x := digits * s.unit place
  let low := s.low * lift place
  let high := s.high * lift place
  if s.closed then low ≤ x && x ≤ high else low < x && x < high

def nearest? (s : Scale) (tie : Tie) (place : Int) : Option Nat :=
  let unit := s.unit place
  let value := s.value * lift place
  let d := value / unit
  match s.holds place d, s.holds place (d + 1) with
  | false, false => none
  | true, false => some d
  | false, true => some (d + 1)
  | true, true =>
    let twice := 2 * (value % unit)
    if twice < unit then some d
    else if unit < twice then some (d + 1)
    else match tie with
      | .up => some (d + 1)
      | .toEven => some (if d % 2 == 0 then d else d + 1)

def search (s : Scale) (tie : Tie) : Nat → Int → Nat × Int
  -- never reached from `topPlace` in forty steps
  | 0, place => (s.value * lift place / s.unit place, place)
  | steps + 1, place =>
    match s.nearest? tie place with
    | some d => (d, place)
    | none => search s tie steps (place - 1)

/-- A power of ten above the number, but at most thirteen places above it: one binary order is
    between thirty and thirty-one hundredths of a decimal one. -/
def topPlace (s : Scale) : Int :=
  let order := (s.value.log2 : Int) - (s.denominator.log2 : Int)
  (if order < 0 then order * 30 else order * 31) / 100 + 2

end Scale

def stripZeros : Nat → Nat → Int → Nat × Int
  | 0, digits, place => (digits, place)
  | steps + 1, digits, place =>
    if digits % 10 == 0 then stripZeros steps (digits / 10) (place + 1) else (digits, place)

/-- The digits and the exponent of ten of the shortest decimal of a positive number. From a power
    of ten above the number forty places are more than the seventeen digits ever needed. -/
def shortest (tie : Tie) (mantissa : Nat) (exponent : Int) : Nat × Int :=
  let s := Scale.ofMagnitude mantissa exponent
  let (digits, place) := s.search tie 40 s.topPlace
  stripZeros 20 digits place

end DialogueEngine.Decimal
