import Mathlib
import Rewind.Number.Assembly

/-! # Decimals below one are finite floats

A float is infinite if the exponent that rounding leaves it with is out of range.  The mantissa may
grow by one when it is rounded, and then by a bit; so what is kept track of is a power of two that the
number does not exceed.  A quotient of integers below one does not exceed one, however long the two
are, so no decimal fraction is lost to an infinity. -/

namespace Rewind.Number

open Float.Model UnpackedFloat

/-- A zero, or a float whose exponent is at most `top`. -/
def Within (top : Int) : UnpackedFloat → Prop
  | .zero _ => True
  | .finite _ _ e _ => e ≤ top
  | _ => False

variable {top : Int} {m m₁ m₂ : Nat} {e e₁ e₂ : Int}

/-! ## Rounding -/

theorem mantissa_shiftRight (em : ExtendedMantissa) (k : Nat) :
    (em >>> k).mantissa = em.mantissa / 2 ^ k := by
  induction k with
  | zero => exact (Nat.div_one _).symm
  | succ k ih =>
    rw [Nat.pow_succ, ← Nat.div_div_eq_div_mul, ← ih]
    rfl

theorem roundedMantissa_le (em : ExtendedMantissa) : em.roundedMantissa ≤ em.mantissa + 1 := by
  obtain ⟨m, half, rest⟩ := em
  cases half <;> cases rest
  case true.false => exact Nat.add_le_add_left (Nat.le_of_lt_succ (Nat.mod_lt m (by decide))) m
  all_goals simp [ExtendedMantissa.roundedMantissa, ExtendedMantissa.accuracy,
    Accuracy.roundToNearestEven]

theorem mantissa_ofMantissaAndAccuracy (m : Nat) (accuracy : Accuracy) :
    (ExtendedMantissa.ofMantissaAndAccuracy m accuracy).mantissa = m := by
  cases accuracy with
  | exact => rfl
  | inexact order => cases order <;> rfl

theorem targetExponent_eq (m : Nat) (e : Int) :
    Format.binary64.targetExponent (totalExponent m e) = max (m.log2 + e - 52) (-1074) := by
  simp only [Format.targetExponent, totalExponent, Format.mantissaBits, Format.minExponent]
  omega

theorem log2_le_of_le_two_pow {k : Nat} (small : m ≤ 2 ^ k) : m.log2 ≤ k := by
  rw [Nat.log2_eq_log_two, ← Nat.log_pow (by decide : 1 < 2) k]
  exact Nat.log_mono_right small

/-- Shifting a mantissa to its place keeps the exponent within the power of two that the number does
not exceed. -/
theorem shifted_le (low : -1074 ≤ top) (level : e ≤ top) (small : m ≤ 2 ^ (top - e).toNat)
    (accuracy : Accuracy) : (shiftToTargetExponent .binary64 m e accuracy).2 ≤ top := by
  have bits := log2_le_of_le_two_pow small
  rw [shiftToTargetExponent, shiftToExponent, targetExponent_eq]
  dsimp only
  omega

/-- Nor does the number that is left exceed it when it is rounded up. -/
theorem rounded_le (low : -1074 ≤ top) (level : e ≤ top) (small : m < 2 ^ (top - e).toNat)
    (accuracy : Accuracy) :
    (shiftToTargetExponent .binary64 m e accuracy).1.roundedMantissa ≤
      2 ^ (top - (shiftToTargetExponent .binary64 m e accuracy).2).toNat := by
  have inside := shifted_le low level (Nat.le_of_lt small) accuracy
  rw [shiftToTargetExponent, shiftToExponent] at inside ⊢
  dsimp only at inside ⊢
  generalize (Format.binary64.targetExponent (totalExponent m e) - e).toNat = k at inside ⊢
  refine Nat.le_trans (roundedMantissa_le _) ?_
  rw [mantissa_shiftRight, mantissa_ofMantissaAndAccuracy, Nat.succ_le_iff,
    Nat.div_lt_iff_lt_mul (Nat.two_pow_pos k), ← Nat.pow_add]
  have parts : (top - (e + k)).toNat + k = (top - e).toNat := by omega
  rwa [parts]

theorem within_roundWithAccuracy (low : -1074 ≤ top) (level : e ≤ top)
    (small : m < 2 ^ (top - e).toNat) (s : Sign) (accuracy : Accuracy) :
    Within top (roundWithAccuracy .binary64 s m e accuracy) := by
  have rounded := rounded_le low level small accuracy
  have first := shifted_le low level (Nat.le_of_lt small) accuracy
  -- The rounded mantissa is shifted once more, for it may be one bit longer.
  have final := shifted_le low first rounded .exact
  rw [roundWithAccuracy]
  dsimp only
  split
  · trivial
  · exact final

theorem within_round (low : -1074 ≤ top) (level : e ≤ top) (small : m < 2 ^ (top - e).toNat)
    (s : Sign) : Within top (UnpackedFloat.round .binary64 s m e) := by
  rw [UnpackedFloat.round, decreaseExponent]
  dsimp only
  generalize (e - Format.binary64.targetExponent (totalExponent m e)).toNat = k
  refine within_roundWithAccuracy low (by omega) ?_ s .exact
  have parts : (top - (e - k)).toNat = (top - e).toNat + k := by omega
  rw [parts, Nat.shiftLeft_eq, Nat.pow_add]
  exact Nat.mul_lt_mul_of_pos_right small (Nat.two_pow_pos k)

/-! ## Quotients -/

theorem within_div (low : -1074 ≤ top) (level : e₁ - e₂ ≤ top)
    (small : m₁ < m₂ * 2 ^ (top - (e₁ - e₂)).toNat) (s₁ s₂ : Sign) (h₁ : 0 < m₁) (h₂ : 0 < m₂) :
    Within top (UnpackedFloat.div .binary64 (.finite s₁ m₁ e₁ h₁) (.finite s₂ m₂ e₂ h₂)) := by
  rw [UnpackedFloat.div, divCore]
  dsimp only
  generalize target : min (e₁ - e₂)
    (Format.binary64.targetExponent (totalExponent m₁ e₁ - totalExponent m₂ e₂)) = t
  have below : t ≤ e₁ - e₂ := target ▸ Int.min_le_left _ _
  refine within_roundWithAccuracy low (Int.le_trans below level) ?_ _ _
  have parts : (top - t).toNat = (top - (e₁ - e₂)).toNat + (e₁ - e₂ - t).toNat := by omega
  rw [Nat.div_lt_iff_lt_mul h₂, parts, Nat.pow_add, Nat.shiftLeft_eq, Nat.mul_comm _ m₂,
    ← Nat.mul_assoc]
  exact Nat.mul_lt_mul_of_pos_right small (Nat.two_pow_pos _)

/-! ## Sixty-four bits -/

theorem within_neg {u : UnpackedFloat} (inside : Within top u) : Within top u.neg := by
  cases u <;> exact inside

theorem bias_eq : (Format.binary64.exponentBias : Int) +
    (Format.binary64.mantissaBitsWithoutImplicit : Nat) = 1075 := rfl

theorem within_unpack {b : BitVec Format.binary64.numBits} (low : -1074 ≤ top) (high : top ≤ 971)
    (bound : ((unpackExponent b).toNat : Int) ≤ top + 1075) :
    Within top (UnpackedFloat.unpack .binary64 b) := by
  have infinite : ¬ unpackExponent b = -1#11 := by
    intro same
    rw [same] at bound
    have all : ((-1#11).toNat : Int) = 2047 := rfl
    omega
  rw [UnpackedFloat.unpack, if_neg infinite]
  dsimp only
  rw [bias_eq]
  split
  case isTrue zero =>
    have none : (unpackExponent b).toNat = 0 := congrArg BitVec.toNat zero
    split
    · trivial
    · rw [none]
      exact low
  case isFalse =>
    exact Int.sub_right_le_of_le_add bound

theorem within_unpack_pack {u : UnpackedFloat} (low : -1074 ≤ top) (high : top ≤ 971)
    (inside : Within top u) : Within top (Float.Model.pack u).unpack := by
  have components (s : Sign) (exponent : BitVec 11) (mantissa : BitVec 52)
      (bound : (exponent.toNat : Int) ≤ top + 1075) : Within top
        (UnpackedFloat.unpack .binary64 (packComponents .binary64 s exponent mantissa)) := by
    refine within_unpack low high ?_
    rwa [unpackExponent_packComponents]
  have least : ((0#11).toNat : Int) ≤ top + 1075 := by
    have none : ((0#11).toNat : Int) = 0 := rfl
    omega
  rw [Float.Model.unpack, Float.Model.pack]
  dsimp only
  cases u with
  | notANumber => cases inside
  | infinity s => cases inside
  | zero s => exact components s 0 0 least
  | finite s m e h =>
    have level : e ≤ top := inside
    have inRange : ¬ 2 ^ 11 ≤ (e + 1075).toNat + 1 := by omega
    rw [UnpackedFloat.pack]
    dsimp only
    rw [Int.add_assoc, bias_eq, if_neg inRange]
    split
    · refine components s _ _ ?_
      rw [BitVec.toNat_ofNat, Nat.mod_eq_of_lt (by omega)]
      omega
    · exact components s _ _ least

/-! ## Decimals -/

theorem isFinite_of_within {x : Float} (inside : Within top x.toModel.unpack) : x.isFinite = true := by
  rw [Float.isFinite, Float.Model.isFinite]
  cases unpacked : x.toModel.unpack with
  | zero s => rfl
  | finite s m e h => rfl
  | notANumber => rw [unpacked] at inside; cases inside
  | infinity s => rw [unpacked] at inside; cases inside

theorem within_neg_float {x : Float} (low : -1074 ≤ top) (high : top ≤ 971)
    (inside : Within top x.toModel.unpack) : Within top (-x).toModel.unpack :=
  within_unpack_pack low high (within_neg inside)

theorem within_toFloat (n : UInt64) : Within 64 n.toFloat.toModel.unpack := by
  refine within_unpack_pack (by decide) (by decide) ?_
  rw [UnpackedFloat.ofUInt64, UnpackedFloat.ofNat, UnpackedFloat.ofInt, UnpackedFloat.normalize]
  split
  · have none : (-(n.toNat : Int)).toNat = 0 := by omega
    refine within_round (by decide) (by decide) ?_ _
    rw [none]
    exact Nat.two_pow_pos _
  · trivial
  · exact within_round (by decide) (by decide) n.toNat_lt _

/-- A float whose exponent is at least `bottom`, and no zero. -/
def Above (bottom : Int) : UnpackedFloat → Prop
  | .finite _ _ e _ => bottom ≤ e
  | _ => False

instance (bottom : Int) : (u : UnpackedFloat) → Decidable (Above bottom u)
  | .finite _ _ e _ => inferInstanceAs (Decidable (bottom ≤ e))
  | .zero _ | .infinity _ | .notANumber => inferInstanceAs (Decidable False)

theorem above_powersOfTen : ∀ p : Fin 23,
    Above (-52) (Float.exactlyRepresentablePowersOfTen[p]).toModel.unpack := by
  decide +kernel

theorem mantissa_unpack_lt {b : BitVec Format.binary64.numBits} {s : Sign} {h : 0 < m}
    (unpacked : UnpackedFloat.unpack .binary64 b = .finite s m e h) : m < 2 ^ 53 := by
  rw [UnpackedFloat.unpack] at unpacked
  dsimp only at unpacked
  split at unpacked
  · split at unpacked <;> cases unpacked
  · split at unpacked
    · split at unpacked
      · cases unpacked
      · cases unpacked
        exact Nat.lt_trans (BitVec.isLt _) (by decide)
    · cases unpacked
      exact BitVec.isLt _

theorem within_div_float {x y : Float} (inside : Within 64 x.toModel.unpack)
    (outside : Above (-52) y.toModel.unpack) : Within 169 (x / y).toModel.unpack := by
  refine within_unpack_pack (by decide) (by decide) ?_
  cases second : y.toModel.unpack with
  | notANumber => rw [second] at outside; cases outside
  | infinity s => rw [second] at outside; cases outside
  | zero s => rw [second] at outside; cases outside
  | finite s₂ m₂ e₂ h₂ =>
    cases first : x.toModel.unpack with
    | notANumber => rw [first] at inside; cases inside
    | infinity s => rw [first] at inside; cases inside
    | zero s => trivial
    | finite s₁ m₁ e₁ h₁ =>
      rw [first] at inside
      rw [second] at outside
      have above : e₁ ≤ 64 := inside
      have below : -52 ≤ e₂ := outside
      refine within_div (by decide) (by omega) ?_ s₁ s₂ h₁ h₂
      calc m₁
        _ < 2 ^ 53 := mantissa_unpack_lt first
        _ ≤ 2 ^ (169 - (e₁ - e₂)).toNat := Nat.pow_le_pow_right (by decide) (by omega)
        _ ≤ m₂ * 2 ^ (169 - (e₁ - e₂)).toNat := Nat.le_mul_of_pos_left _ h₂

theorem within_ofScientific_model {n p : Nat} (small : n < 10 ^ p) :
    Within 169 (UnpackedFloat.ofScientific .binary64 n (Int.negOfNat p)) := by
  have exponent : Int.negOfNat p = -(p : Int) := Int.negOfNat_eq
  have places : (- -(p : Int)).toNat = p := by omega
  rw [UnpackedFloat.ofScientific, exponent]
  split
  · trivial
  case isFalse some =>
    have fraction : p ≠ 0 := by
      rintro rfl
      exact some (Nat.lt_one_iff.1 small)
    have huge : ¬ -(p : Int) > 2 ^ 11 := by omega
    have whole : ¬ 0 ≤ -(p : Int) := by omega
    rw [if_neg huge, if_neg whole]
    split
    · trivial
    · refine within_div (by decide) (by decide) ?_ _ _ _ _
      rw [places]
      exact Nat.lt_of_lt_of_le small (Nat.le_mul_of_pos_right _ (Nat.two_pow_pos _))

theorem within_ofScientific {n p : Nat} (small : n < 10 ^ p) :
    Within 169 (Float.ofScientific n true p).toModel.unpack := by
  rw [Float.ofScientific]
  split
  case isTrue exactly =>
    exact within_div_float (within_toFloat _) (above_powersOfTen ⟨p, by omega⟩)
  case isFalse =>
    exact within_unpack_pack (by decide) (by decide) (within_ofScientific_model small)

/-- A decimal fraction whose numerator is below its denominator is a finite float, whatever its length. -/
theorem isFinite_ofDecimal {n : Int} {p : Nat} (small : n.natAbs < 10 ^ p) :
    (ofDecimal n p).isFinite = true := by
  have inside := within_ofScientific small
  rw [ofDecimal]
  split
  · exact isFinite_of_within (within_neg_float (by decide) (by decide) inside)
  · exact isFinite_of_within inside

end Rewind.Number
