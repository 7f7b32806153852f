import DialogueEngine.Decimal.Reader
import DialogueEngine.Decimal.Shortest

/-! # Durations

Lengths of time in whole nanoseconds. The largest is one nanosecond short of `2 ^ 64` seconds,
and sums beyond it do not exist.

* `Duration.add?` — checked addition.
* `Duration.ofSeconds?` — the nearest duration to a number of seconds.
-/

namespace DialogueEngine

def Duration.perSecond : Nat := 1000000000

def Duration.bound : Nat := Word.bound * perSecond

/-- A length of time in nanoseconds. -/
structure Duration where
  nanos : Nat
  nanos_lt : nanos < Duration.bound
  deriving DecidableEq

namespace Duration

def ofNanos? (n : Nat) : Option Duration :=
  if h : n < bound then some ⟨n, h⟩ else none

def zero : Duration := ⟨0, by decide⟩

instance : Inhabited Duration := ⟨zero⟩

def isZero (d : Duration) : Bool := d.nanos == 0

def add? (a b : Duration) : Option Duration := ofNanos? (a.nanos + b.nanos)

theorem add?_eq_some {a b c : Duration} :
    a.add? b = some c ↔ c.nanos = a.nanos + b.nanos := by
  obtain ⟨n, lt⟩ := c
  unfold add? ofNanos?
  constructor
  · intro added
    split at added
    · cases added
      rfl
    · cases added
  · rintro rfl
    exact dif_pos lt

theorem exists_add? {a b : Duration} (lt : a.nanos + b.nanos < bound) : ∃ c, a.add? b = some c :=
  ⟨_, dif_pos lt⟩

/-- The time from `b` to `a`, and none if `b` is later. -/
def sub (a b : Duration) : Duration :=
  ⟨a.nanos - b.nanos, Nat.lt_of_le_of_lt (Nat.sub_le _ _) a.nanos_lt⟩

def ofParts? (seconds nanos : Nat) : Option Duration := ofNanos? (seconds * perSecond + nanos)

/-- The quotient of two numbers, rounded to the nearest whole number; halves go to the even
    one. -/
def roundDiv (num den : Nat) : Nat :=
  let q := num / den
  let twice := 2 * (num % den)
  if twice < den then q
  else if den < twice then q + 1
  else if q % 2 == 0 then q else q + 1

/-- The nearest duration to a number of seconds; there is none for NaN, for negative numbers and
    for numbers from `2 ^ 64` on. -/
def ofSeconds? (x : Float) : Option Duration :=
  match Decimal.shape x with
  | .finite negative mantissa exponent =>
    -- minus zero is no negative number
    if negative && mantissa != 0 then none
    else ofNanos? (roundDiv (mantissa * Nat.pow 2 exponent.toNat * perSecond)
      (Nat.pow 2 (-exponent).toNat))
  | _ => none

def seconds (d : Duration) : Nat := d.nanos / perSecond

def subsecond (d : Duration) : Nat := d.nanos % perSecond

/-- Seconds, a point and nine digits. -/
def text (d : Duration) : String :=
  let part := Nat.toDigits 10 d.subsecond
  String.ofList (Nat.toDigits 10 d.seconds ++ '.' :: (List.replicate (9 - part.length) '0' ++ part))

end Duration

end DialogueEngine
