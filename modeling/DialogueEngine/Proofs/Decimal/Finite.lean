import Mathlib
import DialogueEngine.Json.Number

/-! # Finite doubles

Which operations on doubles stay finite. A double is unpacked into sign, mantissa and exponent,
computed with and rounded; it is finite as long as the exponent is not above that of the largest
double.

* `roundWithAccuracy_bounded` — rounding makes a number at most twice as large.
* `isFinite_toFloat`, `isFinite_neg` — whole numbers, and numbers with the other sign.
* `isFinite_div` — a quotient by two or more.
* `powerOfTen_large` — the powers of ten that decimals are scaled with are such divisors.
-/

namespace DialogueEngine.Decimal

open Float.Model UnpackedFloat

/-- An unpacked number whose exponent is one of a finite double. -/
def Bounded : UnpackedFloat → Prop
  | .zero _ => True
  | .finite _ _ e _ => e ≤ 971
  | _ => False

theorem isFinite_iff (x : Float) :
    isFinite x = true ↔ @unpackExponent Format.binary64 x.toBits.toBitVec ≠ -1#11 := by
  have field : (@unpackExponent Format.binary64 x.toBits.toBitVec).toNat =
      x.toBits.toNat / fractionBound % 2048 := by
    simp [unpackExponent, Nat.shiftRight_eq_div_pow, fractionBound]
  have ones : (-1#11).toNat = 2047 := rfl
  rw [ne_eq, ← BitVec.toNat_inj, field, ones]
  unfold isFinite shape
  dsimp only
  by_cases top : x.toBits.toNat / fractionBound % 2048 = 2047
  · rw [if_pos top]
    by_cases whole : x.toBits.toNat % fractionBound = 0
    · simp [whole, top]
    · simp [whole, top]
  · rw [if_neg top]
    by_cases least : x.toBits.toNat / fractionBound % 2048 = 0
    · simp [least]
    · simp [least, top]

/-! ## Bits -/

theorem isFinite_pack {f : UnpackedFloat} (bounded : Bounded f) :
    isFinite (.ofModel (Float.Model.pack f)) = true := by
  rw [isFinite_iff]
  change unpackExponent (UnpackedFloat.pack Format.binary64 f) ≠ _
  cases f with
  | infinity s => cases bounded
  | notANumber => cases bounded
  | zero s => simp [UnpackedFloat.pack, packedZero]
  | finite s m e pos =>
    have small : e ≤ 971 := bounded
    have inRange : ¬ 2 ^ Format.binary64.exponentBits ≤
        (e + Format.binary64.exponentBias + Format.binary64.mantissaBitsWithoutImplicit).toNat
          + 1 := by
      change ¬ 2048 ≤ (e + 1023 + 52).toNat + 1
      omega
    unfold UnpackedFloat.pack
    dsimp only
    rw [if_neg inRange]
    -- a mantissa that is not full belongs to a subnormal number, with zeros as its exponent
    split
    · rw [unpackExponent_packComponents, ne_eq, ← BitVec.toNat_inj]
      change (e + 1023 + 52).toNat % 2048 ≠ 2047
      omega
    · simp

theorem unpack_bounded {x : Float} (finite : isFinite x = true) : Bounded x.toModel.unpack := by
  rw [isFinite_iff] at finite
  change @unpackExponent Format.binary64 x.toModel.toBits.toBitVec ≠ -1#11 at finite
  have below := (@unpackExponent Format.binary64 x.toModel.toBits.toBitVec).isLt
  have ones : (-1#11).toNat = 2047 := rfl
  rw [ne_eq, ← BitVec.toNat_inj, ones] at finite
  unfold Float.Model.unpack UnpackedFloat.unpack
  dsimp only
  rw [if_neg (by rwa [← BitVec.toNat_inj])]
  split
  · rename_i least
    split
    · trivial
    · change ((@unpackExponent Format.binary64 x.toModel.toBits.toBitVec).toNat : Int) -
        (1023 + 52) + 1 ≤ 971
      rw [least]
      decide
  · change ((@unpackExponent Format.binary64 x.toModel.toBits.toBitVec).toNat : Int) -
      (1023 + 52) ≤ 971
    change _ < 2048 at below
    omega

theorem unpack_mantissa {x : Float} {s : Sign} {m : Nat} {e : Int} {pos : 0 < m}
    (unpacked : x.toModel.unpack = .finite s m e pos) : m < 2 ^ 53 := by
  unfold Float.Model.unpack UnpackedFloat.unpack at unpacked
  dsimp only at unpacked
  split at unpacked
  · split at unpacked <;> cases unpacked
  · split at unpacked
    · split at unpacked
      · cases unpacked
      · cases unpacked
        have := (@unpackMantissa Format.binary64 x.toModel.toBits.toBitVec).isLt
        change _ < 2 ^ 52 at this
        omega
    · cases unpacked
      exact (1#1 ++ @unpackMantissa Format.binary64 x.toModel.toBits.toBitVec).isLt

/-! ## Rounding -/

theorem shiftRight_mantissa (em : ExtendedMantissa) (n : Nat) :
    (em >>> n).mantissa = em.mantissa / 2 ^ n := by
  induction n with
  | zero => exact (Nat.div_one _).symm
  | succ n ih =>
    change (em >>> n).mantissa / 2 = _
    rw [ih, Nat.div_div_eq_div_mul, Nat.pow_succ]

theorem ofMantissaAndAccuracy_mantissa (m : Nat) (a : Accuracy) :
    (ExtendedMantissa.ofMantissaAndAccuracy m a).mantissa = m := by
  cases a with
  | exact => rfl
  | inexact o => cases o <;> rfl

theorem roundedMantissa_bounds (em : ExtendedMantissa) :
    em.mantissa ≤ em.roundedMantissa ∧ em.roundedMantissa ≤ em.mantissa + 1 := by
  obtain ⟨m, round, sticky⟩ := em
  cases round <;> cases sticky <;>
    simp [ExtendedMantissa.roundedMantissa, ExtendedMantissa.accuracy, Accuracy.roundToNearestEven]
  all_goals omega

/-- The number of bits that a mantissa has in excess of those of a double. -/
def excess (m : Nat) (e : Int) : Nat := (max (m.log2 + 1 + e - 53) (-1074) - e).toNat

/-- A number of a mantissa that may be zero. -/
def ofParts (s : Sign) (m : Nat) (e : Int) : UnpackedFloat :=
  if h : m = 0 then .zero s else .finite s m e (Nat.pos_of_ne_zero h)

/-- Rounding takes the bits in excess off, and once more if the last bit has carried over. -/
theorem roundWithAccuracy_eq (s : Sign) (m : Nat) (e : Int) (a : Accuracy) :
    ∃ r, m / 2 ^ excess m e ≤ r ∧ r ≤ m / 2 ^ excess m e + 1 ∧
      roundWithAccuracy Format.binary64 s m e a =
        ofParts s (r / 2 ^ excess r (e + excess m e))
          (e + excess m e + excess r (e + excess m e)) := by
  let em := ExtendedMantissa.ofMantissaAndAccuracy m a >>> excess m e
  let r := em.roundedMantissa
  have range := roundedMantissa_bounds em
  rw [shiftRight_mantissa, ofMantissaAndAccuracy_mantissa] at range
  have twice : roundWithAccuracy Format.binary64 s m e a =
      ofParts s (ExtendedMantissa.ofMantissaAndAccuracy r .exact >>>
        excess r (e + excess m e)).mantissa (e + excess m e + excess r (e + excess m e)) := rfl
  rw [shiftRight_mantissa, ofMantissaAndAccuracy_mantissa] at twice
  exact ⟨r, range.1, range.2, twice⟩

theorem targetExponent_eq (t : Int) :
    Format.binary64.targetExponent t = max (t - 53) (-1074) := rfl

theorem log2_le {m k : Nat} (small : m ≤ 2 ^ k) : m.log2 ≤ k := by
  by_cases zero : m = 0
  · simp [zero]
  · refine Nat.le_of_lt_succ ((Nat.log2_lt zero).mpr ?_)
    rw [Nat.pow_succ]
    have := Nat.two_pow_pos k
    omega

/-- Rounding makes a number at most twice as large. -/
theorem roundWithAccuracy_bounded {s : Sign} {m k : Nat} {e : Int} {a : Accuracy}
    (small : m < 2 ^ k) (low : e ≤ 971) (size : e + k ≤ 1023) :
    Bounded (roundWithAccuracy Format.binary64 s m e a) := by
  obtain ⟨r, -, above, rounded⟩ := roundWithAccuracy_eq s m e a
  rw [rounded]
  have first := log2_le (Nat.le_of_lt small)
  have part : m / 2 ^ excess m e < 2 ^ (k - excess m e) := by
    refine Nat.div_lt_of_lt_mul (Nat.lt_of_lt_of_le small ?_)
    rw [← Nat.pow_add]
    exact Nat.pow_le_pow_right (by omega) (by omega)
  have second : r.log2 ≤ k - excess m e := log2_le (by omega)
  unfold ofParts
  split
  · trivial
  · change e + excess m e + excess r _ ≤ (971 : Int)
    unfold excess at *
    omega

/-! ## Operations -/

theorem isFinite_toFloat (n : UInt64) : isFinite n.toFloat = true := by
  refine isFinite_pack (f := UnpackedFloat.ofUInt64 Format.binary64 n) ?_
  unfold UnpackedFloat.ofUInt64 UnpackedFloat.ofNat UnpackedFloat.ofInt UnpackedFloat.normalize
  split
  · rename_i negative
    have := Int.compare_eq_lt.mp negative
    omega
  · trivial
  · unfold UnpackedFloat.round decreaseExponent
    dsimp only
    generalize (0 - Format.binary64.targetExponent _).toNat = shift
    refine roundWithAccuracy_bounded (k := 64 + shift) ?_ (by omega) (by omega)
    rw [Nat.shiftLeft_eq, Nat.pow_add]
    exact Nat.mul_lt_mul_of_pos_right n.toNat_lt (Nat.two_pow_pos shift)

theorem isFinite_neg {x : Float} (finite : isFinite x = true) : isFinite (-x) = true := by
  refine isFinite_pack (f := x.toModel.unpack.neg) ?_
  have bounded := unpack_bounded finite
  cases unpacked : x.toModel.unpack with
  | zero s => trivial
  | finite s m e pos =>
    rw [unpacked] at bounded
    exact bounded
  | infinity s =>
    rw [unpacked] at bounded
    cases bounded
  | notANumber =>
    rw [unpacked] at bounded
    cases bounded

/-- A number of two or more, or infinite. -/
def Large : UnpackedFloat → Prop
  | .infinity _ => True
  | .finite _ m e _ => 2 ≤ totalExponent m e
  | _ => False

theorem div_bounded {m₁ m₂ : Nat} {e₁ e₂ : Int} {s : Sign} (pos : 0 < m₁) (small : m₁ < 2 ^ 53)
    (low : e₁ ≤ 971) (pos' : 0 < m₂) (large : 2 ≤ totalExponent m₂ e₂) :
    Bounded (roundWithAccuracy Format.binary64 s (divCore Format.binary64 m₁ e₁ m₂ e₂).1
      (divCore Format.binary64 m₁ e₁ m₂ e₂).2.1 (divCore Format.binary64 m₁ e₁ m₂ e₂).2.2) := by
  unfold divCore
  simp only [targetExponent_eq, totalExponent] at *
  have first : m₁.log2 < 53 := (Nat.log2_lt (by omega)).mpr small
  generalize target : min (e₁ - e₂) _ = t
  generalize shift : (e₁ - e₂ - t).toNat = n
  -- the divisor takes as many bits off as it has
  have part : m₁ <<< n / m₂ < 2 ^ (m₁.log2 + 1 + n - m₂.log2) := by
    refine Nat.div_lt_of_lt_mul ?_
    calc m₁ <<< n = m₁ * 2 ^ n := Nat.shiftLeft_eq m₁ n
      _ < 2 ^ (m₁.log2 + 1) * 2 ^ n :=
        Nat.mul_lt_mul_of_pos_right Nat.lt_log2_self (Nat.two_pow_pos n)
      _ = 2 ^ (m₁.log2 + 1 + n) := (Nat.pow_add ..).symm
      _ ≤ 2 ^ (m₂.log2 + (m₁.log2 + 1 + n - m₂.log2)) := Nat.pow_le_pow_right (by omega) (by omega)
      _ = 2 ^ m₂.log2 * 2 ^ (m₁.log2 + 1 + n - m₂.log2) := Nat.pow_add ..
      _ ≤ m₂ * 2 ^ (m₁.log2 + 1 + n - m₂.log2) :=
        Nat.mul_le_mul_right _ (Nat.log2_self_le (by omega))
  exact roundWithAccuracy_bounded part (by omega) (by omega)

theorem isFinite_div {x y : Float} (finite : isFinite x = true) (large : Large y.toModel.unpack) :
    isFinite (x / y) = true := by
  refine isFinite_pack (f := UnpackedFloat.div Format.binary64 x.toModel.unpack y.toModel.unpack) ?_
  have bounded := unpack_bounded finite
  cases left : x.toModel.unpack with
  | infinity s =>
    rw [left] at bounded
    cases bounded
  | notANumber =>
    rw [left] at bounded
    cases bounded
  | zero s =>
    cases right : y.toModel.unpack with
    | infinity s' => trivial
    | finite s' m e pos => trivial
    | zero s' =>
      rw [right] at large
      cases large
    | notANumber =>
      rw [right] at large
      cases large
  | finite s m e pos =>
    rw [left] at bounded
    cases right : y.toModel.unpack with
    | infinity s' => trivial
    | zero s' =>
      rw [right] at large
      cases large
    | notANumber =>
      rw [right] at large
      cases large
    | finite s' m' e' pos' =>
      rw [right] at large
      exact div_bounded pos (unpack_mantissa left) bounded pos' large

/-! ## Powers of ten -/

instance : DecidablePred Large
  | .infinity _ => isTrue trivial
  | .finite _ m e _ => inferInstanceAs (Decidable (2 ≤ totalExponent m e))
  | .zero _ => isFalse id
  | .notANumber => isFalse id

/-- A number of two or more that is rounded has all its bits. -/
theorem roundWithAccuracy_large {s : Sign} {m : Nat} {e : Int} {a : Accuracy} (long : 2 ^ 53 ≤ m)
    (large : 2 ≤ totalExponent m e) :
    ∃ m' e', ∃ pos : 0 < m', roundWithAccuracy Format.binary64 s m e a = .finite s m' e' pos ∧
      2 ^ 52 ≤ m' ∧ m' < 2 ^ 53 ∧ -51 ≤ e' := by
  have nonzero : m ≠ 0 := by omega
  have bits : 53 ≤ m.log2 := (Nat.le_log2 nonzero).mpr long
  obtain ⟨r, below, above, rounded⟩ := roundWithAccuracy_eq s m e a
  unfold totalExponent at large
  have first : excess m e = m.log2 - 52 := by
    unfold excess
    omega
  have low : 2 ^ 52 ≤ m / 2 ^ excess m e := by
    rw [Nat.le_div_iff_mul_le (Nat.two_pow_pos _), ← Nat.pow_add]
    refine Nat.le_trans (Nat.pow_le_pow_right (by omega) ?_) (Nat.log2_self_le nonzero)
    omega
  have high : m / 2 ^ excess m e < 2 ^ 53 := by
    refine Nat.div_lt_of_lt_mul (Nat.lt_of_lt_of_le Nat.lt_log2_self ?_)
    rw [← Nat.pow_add]
    exact Nat.pow_le_pow_right (by omega) (by omega)
  rw [rounded]
  -- the second shift is needed just where rounding has made the mantissa too long
  rcases Nat.lt_or_ge r (2 ^ 53) with short | carried
  · have second : excess r (e + excess m e) = 0 := by
      have : r.log2 = 52 := (Nat.log2_eq_iff (by omega)).mpr ⟨by omega, short⟩
      unfold excess at *
      omega
    rw [second]
    unfold ofParts
    rw [dif_neg (by omega)]
    exact ⟨_, _, _, rfl, by omega, by omega, by omega⟩
  · have full : r = 2 ^ 53 := by omega
    have second : excess r (e + excess m e) = 1 := by
      have : r.log2 = 53 := by rw [full, Nat.log2_two_pow]
      unfold excess at *
      omega
    rw [second]
    unfold ofParts
    rw [dif_neg (by omega)]
    exact ⟨_, _, _, rfl, by omega, by omega, by omega⟩

theorem unpack_pack_large {s : Sign} {m : Nat} {e : Int} {pos : 0 < m} (low : 2 ^ 52 ≤ m)
    (high : m < 2 ^ 53) (large : -51 ≤ e) :
    Large (Float.Model.pack (.finite s m e pos)).unpack := by
  have bits : m.log2 = 52 := (Nat.log2_eq_iff (by omega)).mpr ⟨low, high⟩
  change Large (UnpackedFloat.unpack Format.binary64 (UnpackedFloat.pack Format.binary64 _))
  unfold UnpackedFloat.pack
  dsimp only
  rw [bits]
  -- a number that is too large is packed as infinity, which is large as well
  by_cases tooLarge : 2048 ≤ (e + 1023 + 52).toNat + 1
  · rw [if_pos (by exact tooLarge)]
    unfold UnpackedFloat.unpack packedInfinity
    simp only [unpackExponent_packComponents, unpackMantissa_packComponents]
    trivial
  · rw [if_neg (by exact tooLarge), if_pos (show 52 + 1 = Format.binary64.mantissaBits from rfl)]
    unfold UnpackedFloat.unpack
    simp only [unpackExponent_packComponents, unpackMantissa_packComponents]
    have field : (BitVec.ofNat 11 (e + 1023 + 52).toNat).toNat = (e + 1023 + 52).toNat := by
      rw [BitVec.toNat_ofNat]
      omega
    have finite : BitVec.ofNat 11 (e + 1023 + 52).toNat ≠ -1#11 := by
      rw [ne_eq, ← BitVec.toNat_inj, field]
      change ¬ _ = 2047
      omega
    have normal : BitVec.ofNat 11 (e + 1023 + 52).toNat ≠ 0#11 := by
      rw [ne_eq, ← BitVec.toNat_inj, field]
      change ¬ _ = 0
      omega
    rw [if_neg (by exact finite), if_neg (by exact normal)]
    have leading : 2 ^ 52 ≤ (1#1 ++ BitVec.ofNat 52 m).toNat := by
      rw [BitVec.toNat_append]
      exact Nat.left_le_or
    have long : 52 ≤ (1#1 ++ BitVec.ofNat 52 m).toNat.log2 :=
      (Nat.le_log2 (by omega)).mpr leading
    change 2 ≤ totalExponent _ (((BitVec.ofNat 11 (e + 1023 + 52).toNat).toNat : Int) - (1023 + 52))
    rw [field]
    unfold totalExponent
    omega

theorem powerOfTen_large {k : Nat} (pos : 0 < k) (small : k ≤ 308) :
    Large (Json.powerOfTen k).toModel.unpack := by
  -- powers that are doubles are multiplied out, larger ones are rounded once
  by_cases fast : k ≤ 22
  · have table : ∀ k ≤ 22, 0 < k → Large (Json.powerOfTen k).toModel.unpack := by decide +kernel
    exact table k fast pos
  · have slow : Json.powerOfTen k = .ofModel (Float.Model.ofScientific 1 k) := by
      unfold Json.powerOfTen Float.ofScientific
      rw [dif_neg (by omega)]
      rfl
    have product : UnpackedFloat.ofScientific Format.binary64 1 k =
        roundWithAccuracy Format.binary64 (.positive * .positive) (1 <<< 53 * 10 ^ k) (-53 + 0)
          .exact := by
      unfold UnpackedFloat.ofScientific
      rw [dif_neg (by decide), if_neg, if_neg, if_pos (by omega)]
      · rfl
      · change ¬ (k : Int) < -(2048 + 0)
        omega
      · change ¬ (k : Int) > 2048
        omega
    rw [slow]
    change Large (Float.Model.pack (UnpackedFloat.ofScientific Format.binary64 1 k)).unpack
    have long : 2 ^ 53 ≤ 1 <<< 53 * 10 ^ k :=
      Nat.le_mul_of_pos_right _ (Nat.pow_pos (by decide))
    have large : 2 ≤ totalExponent (1 <<< 53 * 10 ^ k) (-53 + 0) := by
      have : 54 ≤ (1 <<< 53 * 10 ^ k).log2 := by
        refine (Nat.le_log2 (by omega)).mpr ?_
        have : 10 ^ 1 ≤ 10 ^ k := Nat.pow_le_pow_right (by decide) pos
        omega
      unfold totalExponent
      omega
    obtain ⟨m, e, mpos, rounded, low, high, exponent⟩ := roundWithAccuracy_large
      (s := .positive * .positive) (a := .exact) long large
    rw [product, rounded]
    exact unpack_pack_large low high exponent

end DialogueEngine.Decimal
