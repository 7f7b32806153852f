import Mathlib.Data.List.TakeWhile
import DialogueEngine.Json.Parser
import DialogueEngine.Proofs.Decimal.Finite

/-! # Numbers of documents

* `Numeral.split?_numeric` — a numeral has only bytes that numbers are made of.
* `Number.ofLexeme?_natural` — a natural number of 64 bits is read as it has been written.
* `Number.isFinite_ofLexeme?` — every number that is read is a finite double.
* `ReadsBack`, `Legible` — doubles that survive being written and read; not all do, as the last
  bit of a long numeral may be rounded the other way.
-/

namespace DialogueEngine.Json

/-! ## The bytes of a numeral -/

/-- Bytes that numbers are made of. -/
def Numeric (bytes : List UInt8) : Prop := ∀ b ∈ bytes, isNumeric b = true

namespace Numeric

variable {b : UInt8} {bytes : List UInt8}

theorem nil : Numeric [] := by simp [Numeric]

theorem cons (head : isNumeric b = true) (rest : Numeric bytes) : Numeric (b :: bytes) := by
  intro c mem
  rcases List.mem_cons.mp mem with rfl | mem
  · exact head
  · exact rest c mem

theorem of_digits (digits : bytes.all isDigit = true) : Numeric bytes := by
  intro b mem
  have digit : isDigit b = true := List.all_eq_true.mp digits b mem
  simp [isNumeric, digit]

theorem of_dropWhile (rest : Numeric (bytes.dropWhile isDigit)) : Numeric bytes := by
  rw [← List.takeWhile_append_dropWhile (p := isDigit) (l := bytes)]
  intro b mem
  rcases List.mem_append.mp mem with mem | mem
  · have digit : isDigit b = true := List.mem_takeWhile_imp mem
    simp [isNumeric, digit]
  · exact rest b mem

end Numeric

namespace Numeral

/-- Takes the sign of an exponent off; `true` stands for minus. -/
def cutSign : List UInt8 → Bool × List UInt8
  | b :: more =>
    if b == ascii '-' then (true, more)
    else if b == ascii '+' then (false, more)
    else (false, b :: more)
  | [] => (false, [])

theorem exponent?_cons (mark : UInt8) (rest : List UInt8) :
    exponent? (mark :: rest) =
      if mark == ascii 'e' || mark == ascii 'E' then
        if (cutSign rest).2.isEmpty || !(cutSign rest).2.all isDigit then none
        else some (some (cutSign rest))
      else none := by
  cases rest <;> rfl

theorem numeric_of_cutSign {rest : List UInt8} (digits : (cutSign rest).2.all isDigit = true) :
    Numeric rest := by
  cases rest with
  | nil => exact .nil
  | cons b more =>
    simp only [cutSign] at digits
    split at digits
    · rename_i sign
      exact .cons (by simp [isNumeric, sign]) (.of_digits digits)
    · split at digits
      · rename_i sign
        exact .cons (by simp [isNumeric, sign]) (.of_digits digits)
      · exact .of_digits digits

theorem exponent?_numeric {bytes : List UInt8} {e : Option (Bool × List UInt8)}
    (read : exponent? bytes = some e) : Numeric bytes := by
  cases bytes with
  | nil => exact .nil
  | cons mark rest =>
    rw [exponent?_cons] at read
    split at read
    · rename_i marked
      have head : isNumeric mark = true := by
        rcases Bool.or_eq_true_iff.mp marked with h | h <;> simp [isNumeric, h]
      split at read
      · cases read
      · rename_i digits
        simp only [Bool.or_eq_true, Bool.not_eq_true', not_or, Bool.not_eq_false] at digits
        exact .cons head (numeric_of_cutSign digits.2)
    · cases read

/-- What follows the sign of a numeral: digits, and then nothing, a part behind the point or an
    exponent. -/
def unsigned? (negative : Bool) (rest : List UInt8) : Option Numeral :=
  let whole := rest.takeWhile isDigit
  let rest := rest.dropWhile isDigit
  if whole.isEmpty || (whole.head? == some (ascii '0') && whole.length != 1) then none
  else
    match rest with
    | b :: more =>
      if b == ascii '.' then
        let part := more.takeWhile isDigit
        if part.isEmpty then none
        else (exponent? (more.dropWhile isDigit)).map (⟨negative, whole, some part, ·⟩)
      else (exponent? rest).map (⟨negative, whole, none, ·⟩)
    | [] => some ⟨negative, whole, none, none⟩

theorem split?_cons (b : UInt8) (more : List UInt8) :
    split? (b :: more) =
      if b == ascii '-' then unsigned? true more else unsigned? false (b :: more) := by
  unfold split?
  dsimp only
  split <;> rfl

theorem unsigned?_numeric {negative : Bool} {bytes : List UInt8} {m : Numeral}
    (split : unsigned? negative bytes = some m) : Numeric bytes := by
  unfold unsigned? at split
  dsimp only at split
  refine .of_dropWhile ?_
  split at split
  · cases split
  · split at split
    · rename_i b more rest
      rw [rest]
      split at split
      · rename_i point
        refine .cons (by simp [isNumeric, point]) (.of_dropWhile ?_)
        split at split
        · cases split
        · obtain ⟨e, read, -⟩ := Option.map_eq_some_iff.mp split
          exact exponent?_numeric read
      · obtain ⟨e, read, -⟩ := Option.map_eq_some_iff.mp split
        exact rest ▸ exponent?_numeric read
    · rename_i rest
      rw [rest]
      exact .nil

/-- A numeral is not empty, and all its bytes are bytes that numbers are made of. -/
theorem split?_numeric {lexeme : List UInt8} {m : Numeral} (split : split? lexeme = some m) :
    lexeme ≠ [] ∧ Numeric lexeme := by
  cases lexeme with
  | nil => cases split
  | cons b more =>
    rw [split?_cons] at split
    refine ⟨List.cons_ne_nil _ _, ?_⟩
    split at split
    · rename_i sign
      exact .cons (by simp [isNumeric, sign]) (unsigned?_numeric split)
    · exact unsigned?_numeric split

/-- Digits without a needless zero in front are a numeral without point and exponent. -/
theorem split?_digits {ds : List UInt8} (digits : ∀ b ∈ ds, isDigit b = true) (nonempty : ds ≠ [])
    (lead : ds.head? = some (ascii '0') → ds.length = 1) :
    split? ds = some ⟨false, ds, none, none⟩ := by
  have run : ds.takeWhile isDigit = ds := List.takeWhile_eq_self_iff.mpr digits
  have stop : ds.dropWhile isDigit = [] := List.dropWhile_eq_nil_iff.mpr digits
  obtain ⟨b, more, rfl⟩ := List.exists_cons_of_ne_nil nonempty
  have unsigned : (b == ascii '-') = false := by
    refine beq_eq_false_iff_ne.mpr ?_
    rintro rfl
    exact absurd (digits _ List.mem_cons_self) (by decide)
  rw [split?_cons, unsigned, if_neg Bool.false_ne_true]
  unfold unsigned?
  rw [run, stop]
  dsimp only
  rw [if_neg]
  rintro h
  simp only [List.isEmpty_cons, Bool.false_or, Bool.and_eq_true, beq_iff_eq, bne_iff_ne] at h
  exact h.2 (lead h.1)

end Numeral

/-! ## Natural numbers -/

theorem isDigit_ascii {c : Char} (digit : c.isDigit = true) : isDigit (ascii c) = true := by
  obtain ⟨low, high⟩ := Char.isDigit_iff_toNat.mp digit
  change 48 ≤ c.toNat at low
  change c.toNat ≤ 57 at high
  have byte : (ascii c).toNat = c.toNat := by
    unfold ascii
    rw [UInt8.toNat_ofNat']
    omega
  simp only [isDigit, Bool.and_eq_true, decide_eq_true_eq, UInt8.le_iff_toNat_le, byte]
  exact ⟨low, high⟩

theorem digit_ascii {c : Char} (isDigit : c.isDigit = true) :
    digit (ascii c) = c.toNat - '0'.toNat := by
  obtain ⟨-, high⟩ := Char.isDigit_iff_toNat.mp isDigit
  change c.toNat ≤ 57 at high
  unfold digit ascii
  rw [UInt8.toNat_ofNat', Nat.mod_eq_of_lt (by omega)]
  rfl

/-- The number of further digits behind a number. -/
def ofDigitsFrom (n : Nat) (ds : List UInt8) : Nat := ds.foldl (fun n b => 10 * n + digit b) n

theorem le_ofDigitsFrom (n : Nat) (ds : List UInt8) : n ≤ ofDigitsFrom n ds := by
  induction ds generalizing n with
  | nil => exact Nat.le_refl n
  | cons b ds ih =>
    have := ih (10 * n + digit b)
    change n ≤ ofDigitsFrom (10 * n + digit b) ds
    omega

/-- Digits of a number of 64 bits are read to their end. -/
theorem accumulate_eq {n : Nat} {ds : List UInt8} (small : ofDigitsFrom n ds < Word.bound) :
    accumulate n ds = (ofDigitsFrom n ds, []) := by
  induction ds generalizing n with
  | nil => rfl
  | cons b ds ih =>
    change ofDigitsFrom (10 * n + digit b) ds < Word.bound at small
    have := le_ofDigitsFrom (10 * n + digit b) ds
    rw [accumulate, if_neg (by omega), ih small]
    rfl

theorem ofDigitsFrom_map_ascii {cs : List Char} (digits : ∀ c ∈ cs, c.isDigit = true) (n : Nat) :
    ofDigitsFrom n (cs.map ascii) = Nat.ofDigitChars 10 cs n := by
  induction cs generalizing n with
  | nil => rfl
  | cons c cs ih =>
    rw [Nat.ofDigitChars_cons, ← ih fun c mem => digits c (List.mem_cons_of_mem _ mem),
      ← digit_ascii (digits c List.mem_cons_self)]
    rfl

theorem head?_toDigits {n : Nat} (lead : (Nat.toDigits 10 n).head? = some '0') : n = 0 := by
  -- the digits of a longer number begin as those of its tenth do
  induction n using Nat.strongRecOn with
  | ind n ih =>
    rw [Nat.toDigits_eq_if (by decide)] at lead
    split at lead
    · rename_i small
      have table : ∀ d < 10, some (Nat.digitChar d) = some '0' → d = 0 := by decide
      exact table n small lead
    · rw [List.head?_append, Option.or_of_isSome (by simp)] at lead
      have := ih (n / 10) (by omega) lead
      omega

namespace Number

theorem ofLexeme?_natural {n : Nat} (small : n < Word.bound) :
    ofLexeme? ((Nat.toDigits 10 n).map ascii) = some (.natural n) := by
  have digits : ∀ c ∈ Nat.toDigits 10 n, c.isDigit = true := fun c =>
    Nat.isDigit_of_mem_toDigits (by decide) (by decide)
  have split : Numeral.split? ((Nat.toDigits 10 n).map ascii) =
      some ⟨false, (Nat.toDigits 10 n).map ascii, none, none⟩ := by
    refine Numeral.split?_digits ?_ ?_ ?_
    · intro b mem
      obtain ⟨c, read, rfl⟩ := List.mem_map.mp mem
      exact isDigit_ascii (digits c read)
    · simp
    · intro lead
      rw [List.head?_map, Option.map_eq_some_iff] at lead
      -- a digit with the byte of a zero is a zero, and only zero begins with it
      obtain ⟨c, head, zero⟩ := lead
      have isDigit := digits c (List.mem_of_mem_head? head)
      have low := (Char.isDigit_iff_toNat.mp isDigit).1
      have none : c.toNat - '0'.toNat = 0 := by
        rw [← digit_ascii isDigit, zero]
        rfl
      have isZero : c = '0' := Char.toNat_inj.mp (by omega)
      obtain rfl : n = 0 := head?_toDigits (isZero ▸ head)
      rfl
  have value : ofDigitsFrom 0 ((Nat.toDigits 10 n).map ascii) = n := by
    rw [ofDigitsFrom_map_ascii digits, Nat.ofDigitChars_ten_toDigits]
  have read : accumulate 0 ((Nat.toDigits 10 n).map ascii) = (n, []) := by
    rw [accumulate_eq (by rwa [value]), value]
  rw [ofLexeme?, split]
  simp [Numeral.value?, read]

/-! ## Doubles -/

/-- Scaling by powers of ten stays within the finite doubles: products are checked, and quotients
    by ten or more only get smaller. -/
theorem isFinite_scaled? {steps : Nat} {x y : Float} {e : Int} (finite : Decimal.isFinite x = true)
    (scaled : scaled? steps x e = some y) : Decimal.isFinite y = true := by
  induction steps generalizing x e with
  | zero =>
    cases scaled
    exact finite
  | succ steps ih =>
    rw [scaled?] at scaled
    split at scaled
    · rename_i inRange
      split at scaled
      · dsimp only at scaled
        split at scaled
        · rename_i product
          cases scaled
          exact product
        · cases scaled
      · cases scaled
        exact Decimal.isFinite_div finite (Decimal.powerOfTen_large (by omega) inRange)
    · split at scaled
      · cases scaled
        exact finite
      · split at scaled
        · cases scaled
        · exact ih (Decimal.isFinite_div finite
            (Decimal.powerOfTen_large (by decide) (by decide))) scaled

theorem isFinite_double? {negative : Bool} {n : Nat} {e : Int} {x : Float}
    (double : double? negative n e = some x) : Decimal.isFinite x = true := by
  obtain ⟨y, scaled, rfl⟩ := Option.map_eq_some_iff.mp double
  have finite := isFinite_scaled? (Decimal.isFinite_toFloat _) scaled
  split
  · exact Decimal.isFinite_neg finite
  · exact finite

theorem isFinite_value? {m : Numeral} {r : Number} (value : m.value? = some r) :
    Decimal.isFinite r.toFloat = true := by
  have real {d : Option Float} {r : Number} (given : d.map .real = some r)
      (finite : ∀ {x}, d = some x → Decimal.isFinite x = true) :
      Decimal.isFinite r.toFloat = true := by
    obtain ⟨x, double, rfl⟩ := Option.map_eq_some_iff.mp given
    exact finite double
  unfold Numeral.value? at value
  dsimp only at value
  split at value
  · split at value
    · exact real value isFinite_double?
    · split at value
      · cases value
        exact Decimal.isFinite_toFloat _
      · split at value
        · cases value
          exact Decimal.isFinite_neg (Decimal.isFinite_toFloat _)
        · cases value
          exact Decimal.isFinite_neg (Decimal.isFinite_toFloat _)
  · split at value
    · exact real value isFinite_double?
    · split at value
      · split at value
        · cases value
        · cases value
          cases m.negative <;> decide +kernel
      · exact real value isFinite_double?

/-- Every number that is read is a finite double. -/
theorem isFinite_ofLexeme? {lexeme : List UInt8} {r : Number} (read : ofLexeme? lexeme = some r) :
    Decimal.isFinite r.toFloat = true := by
  obtain ⟨m, -, value⟩ := Option.bind_eq_some_iff.mp read
  exact isFinite_value? value

end Number

/-- The numeral that a double is written as reads back as the double. -/
def ReadsBack (x : Float) : Prop :=
  ((ofFloat? x).bind fun lexeme => (Number.ofLexeme? lexeme).map Number.toFloat) = some x

instance (x : Float) : Decidable (ReadsBack x) := inferInstanceAs (Decidable (_ = _))

theorem ReadsBack.lexeme {x : Float} (back : ReadsBack x) :
    ∃ lexeme r, ofFloat? x = some lexeme ∧ Number.ofLexeme? lexeme = some r ∧ r.toFloat = x := by
  obtain ⟨lexeme, written, read⟩ := Option.bind_eq_some_iff.mp back
  obtain ⟨r, value, double⟩ := Option.map_eq_some_iff.mp read
  exact ⟨lexeme, r, written, value, double⟩

theorem ofFloat?_eq_none {x : Float} (infinite : Decimal.isFinite x = false) :
    ofFloat? x = none := by
  unfold Decimal.isFinite at infinite
  unfold ofFloat?
  cases shape : Decimal.shape x with
  | nan => rfl
  | infinite negative => rfl
  | finite negative mantissa exponent =>
    rw [shape] at infinite
    cases infinite

/-- The finite ones among the doubles read back. -/
def Legible (xs : List Float) : Prop := ∀ x ∈ xs, Decimal.isFinite x = true → ReadsBack x

instance (xs : List Float) : Decidable (Legible xs) := inferInstanceAs (Decidable (∀ x ∈ xs, _))

theorem Legible.of_flatMap {α : Type} {f : α → List Float} {as : List α}
    (legible : Legible (as.flatMap f)) {a : α} (mem : a ∈ as) : Legible (f a) :=
  fun x mem' => legible x (List.mem_flatMap.mpr ⟨a, mem, mem'⟩)

end DialogueEngine.Json
