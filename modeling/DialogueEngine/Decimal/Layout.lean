import DialogueEngine.Decimal.Shortest

/-! # Written forms of numbers

Three texts of a double are written from its shortest decimal: the plain form of messages, the
form of documents, and the form inside descriptions. They differ in the exponents that are
written out with zeros, and in the marks.
-/

namespace DialogueEngine.Decimal

/-- The decisions of a written form. The point's position counts the digits in front of it. -/
structure Layout where
  /-- Which of two equally near decimals is taken. -/
  tie : Tie
  /-- The positions of the point that are written without an exponent; all if there is none. -/
  plain : Option (Int × Int)
  /-- Whether a whole number ends in `.0`. -/
  fraction : Bool
  /-- Whether a positive exponent has a sign. -/
  plus : Bool

def zeros (n : Nat) : List Char := List.replicate n '0'

def Layout.positional (l : Layout) (digits : List Char) (point : Int) : List Char :=
  if point ≤ 0 then '0' :: '.' :: (zeros (-point).toNat ++ digits)
  else if point.toNat < digits.length then
    digits.take point.toNat ++ '.' :: digits.drop point.toNat
  else
    digits ++ zeros (point.toNat - digits.length) ++ (if l.fraction then ['.', '0'] else [])

def Layout.scientific (l : Layout) (digits : List Char) (point : Int) : List Char :=
  let e := point - 1
  let mantissa := match digits with
    | d :: d' :: rest => d :: '.' :: d' :: rest
    | ds => ds
  let sign := if e < 0 then ['-'] else if l.plus then ['+'] else []
  mantissa ++ 'e' :: (sign ++ Nat.toDigits 10 e.natAbs)

def Layout.magnitude (l : Layout) (mantissa : Nat) (exponent : Int) : List Char :=
  if mantissa = 0 then (if l.fraction then ['0', '.', '0'] else ['0'])
  else
    let (d, place) := shortest l.tie mantissa exponent
    let digits := Nat.toDigits 10 d
    -- how many digits stand in front of the point, below zero for zeros behind it
    let point := place + digits.length
    match l.plain with
    | none => l.positional digits point
    | some (low, high) =>
      if low ≤ point && point ≤ high then l.positional digits point
      else l.scientific digits point

def Layout.write (l : Layout) (negative : Bool) (mantissa : Nat) (exponent : Int) : List Char :=
  (if negative then ['-'] else []) ++ l.magnitude mantissa exponent

/-- In messages every number is written out, and a whole number has no point. -/
def messageLayout : Layout := ⟨.up, none, false, false⟩

/-- In descriptions numbers from a ten-thousandth up to `10 ^ 16` are written out. -/
def descriptionLayout : Layout := ⟨.up, some (-3, 16), true, false⟩

/-- In documents numbers from a hundred-thousandth up to `10 ^ 16` are written out. -/
def documentLayout : Layout := ⟨.toEven, some (-4, 16), true, true⟩

def Layout.text (l : Layout) (x : Float) : String :=
  match shape x with
  | .nan => "NaN"
  | .infinite negative => if negative then "-inf" else "inf"
  | .finite negative mantissa exponent => String.ofList (l.write negative mantissa exponent)

def display (x : Float) : String := messageLayout.text x

def describe (x : Float) : String := descriptionLayout.text x

end DialogueEngine.Decimal
