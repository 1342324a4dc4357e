import Rewind.Proofs.Number.Finite
import Rewind.Proofs.Number.Literal

/-! # What a fraction is worth

The integer behind the point is divided by a power of ten before it is added to the whole part.  Here
this quotient is taken as it is, before a float is made of it.  The power has as many zeros as the
fraction has digits, or as the canonical numeral of its value has characters; and in the latter a minus
sign takes the place of a digit.  Either way the power exceeds the integer. -/

namespace Rewind.Number

/-- What a fraction is worth before it is rounded. -/
def quotient (exact : Bool) (f : Literal) : ℚ := f.value / 10 ^ fractionPlaces exact f

/-- The number that a run of digits denotes behind a decimal point: each digit is worth a tenth of what
it is worth one place before. -/
def behindPoint : Text → ℚ
  | [] => 0
  | c :: run => (((c - 0x30 : Nat) : ℚ) + behindPoint run) / 10

variable {f : Literal} {exact : Bool}

theorem behindPoint_eq (run : Text) : behindPoint run = baseTen run / 10 ^ run.length := by
  induction run with
  | nil => simp [behindPoint, baseTen]
  | cons c run ih =>
    rw [behindPoint, ih, baseTen_cons, List.length_cons]
    push_cast
    field_simp
    ring

/-! ## The power exceeds the integer -/

theorem natAbs_value_lt (exact : Bool) (all : ∀ c ∈ f.digits, CharClass.isDigit c = true) :
    f.value.natAbs < 10 ^ fractionPlaces exact f := by
  rw [Literal.natAbs_value all]
  cases exact with
  | true => exact baseTen_lt all
  | false =>
    refine Nat.lt_of_lt_of_le (lt_pow_length_digits _) (Nat.pow_le_pow_right (by decide) ?_)
    rw [fractionPlaces, if_neg Bool.false_ne_true, Literal.printedLength_eq all]
    exact Nat.le_add_right _ _

theorem abs_quotient_lt (exact : Bool) (all : ∀ c ∈ f.digits, CharClass.isDigit c = true) :
    |quotient exact f| < 1 := by
  have positive : (0 : ℚ) < 10 ^ fractionPlaces exact f := by positivity
  rw [quotient, abs_div, abs_of_pos positive, div_lt_one positive, ← Int.cast_abs,
    Int.abs_eq_natAbs]
  exact_mod_cast natAbs_value_lt exact all

/-! ## Two scales -/

theorem quotient_eq (exact : Bool) (all : ∀ c ∈ f.digits, CharClass.isDigit c = true) :
    quotient exact f =
      if f.sign = text "-" then -(baseTen f.digits / 10 ^ fractionPlaces exact f : ℚ)
      else baseTen f.digits / 10 ^ fractionPlaces exact f := by
  rw [quotient, Literal.value_eq all]
  split
  · rw [Int.cast_neg, Int.cast_natCast, neg_div]
  · rw [Int.cast_natCast]

theorem quotient_inexact (all : ∀ c ∈ f.digits, CharClass.isDigit c = true) :
    quotient false f =
      if f.sign = text "-" then -(baseTen f.digits / 10 ^ ((digits (baseTen f.digits)).length + 1) : ℚ)
      else baseTen f.digits / 10 ^ (digits (baseTen f.digits)).length := by
  have places : fractionPlaces false f = f.printedLength := rfl
  rw [quotient_eq false all, places, Literal.printedLength_eq all]
  by_cases zero : baseTen f.digits = 0
  · simp [zero]
  · by_cases minus : f.sign = text "-" <;> simp [zero, minus]

/-- Dividing by different powers of ten makes a difference to every number but zero. -/
theorem div_pow_inj {n : ℚ} {a b : Nat} : n / 10 ^ a = n / 10 ^ b ↔ n = 0 ∨ a = b := by
  rw [div_eq_mul_inv, div_eq_mul_inv, mul_eq_mul_left_iff, inv_inj,
    pow_right_inj₀ (by norm_num) (by norm_num), or_comm]

theorem quotient_eq_iff (all : ∀ c ∈ f.digits, CharClass.isDigit c = true) :
    quotient true f = quotient false f ↔
      baseTen f.digits = 0 ∨ f.digits.length = f.printedLength := by
  rw [quotient, quotient, div_pow_inj, Int.cast_eq_zero, ← Int.natAbs_eq_zero,
    Literal.natAbs_value all]
  rfl

/-- The length of the digits is the printed length if as many zeros are dropped as minus signs count. -/
theorem length_eq_printedLength_iff (all : ∀ c ∈ f.digits, CharClass.isDigit c = true)
    (nonzero : baseTen f.digits ≠ 0) :
    f.digits.length = f.printedLength ↔
      (f.sign ≠ text "-" ∧ f.digits.head? ≠ some 0x30) ∨
        (f.sign = text "-" ∧ f.leadingZeros = 1) := by
  rw [← Literal.leadingZeros_eq_zero_iff, Literal.length_digits all nonzero, Literal.printedLength_eq all]
  by_cases minus : f.sign = text "-"
  · rw [if_pos ⟨minus, nonzero⟩]
    simp only [minus, ne_eq, not_true_eq_false, false_and, false_or, true_and]
    omega
  · rw [if_neg fun both => minus both.1]
    simp only [minus, ne_eq, not_false_eq_true, true_and, false_and, or_false]
    omega

/-! ## The number with its fraction -/

/-- With a whole part in range there is a number, and the fraction goes into it as its quotient does:
as an integer and a number of places. -/
theorem assemble_fraction {w : Literal} {base : Float} (e : Option Literal)
    (range : toFloat? (if exact then w.value.natAbs else w.value) = some base) :
    let sum := base + ofDecimal f.value (fractionPlaces exact f)
    let signed := if exact && w.isNegative then -sum else sum
    assemble exact w (some f) e =
      .ok (.float (e.elim signed fun l => signed * powerOfTen l.value)) := by
  rw [assemble, if_neg (by simp), range]
  cases e <;> rfl

/-- An exact fraction is worth the decimal that its digits stand for behind the point.  An inexact one is
worth its integer behind as many places as the integer has digits, and behind one more if it has a minus
sign.  Neither reaches one, so the float that comes of it is finite, however many digits there are.  The
two agree on zero; on other fractions without a minus sign if there is no leading zero; and on those
with a minus sign if there is just one, which makes up for the place that the sign takes. -/
theorem fraction_scales (all : ∀ c ∈ f.digits, CharClass.isDigit c = true) :
    (quotient true f = if f.sign = text "-" then -behindPoint f.digits else behindPoint f.digits) ∧
    behindPoint f.digits = baseTen f.digits / 10 ^ f.digits.length ∧
    (quotient false f =
      if f.sign = text "-" then -(baseTen f.digits / 10 ^ ((digits (baseTen f.digits)).length + 1) : ℚ)
      else baseTen f.digits / 10 ^ (digits (baseTen f.digits)).length) ∧
    (∀ exact, |quotient exact f| < 1 ∧
      (ofDecimal f.value (fractionPlaces exact f)).isFinite = true) ∧
    (quotient true f = quotient false f ↔
      baseTen f.digits = 0 ∨ (f.sign ≠ text "-" ∧ f.digits.head? ≠ some 0x30) ∨
        (f.sign = text "-" ∧ f.leadingZeros = 1)) ∧
    ∀ (exact : Bool) (w : Literal) (base : Float) (e : Option Literal),
      toFloat? (if exact then w.value.natAbs else w.value) = some base →
        let sum := base + ofDecimal f.value (fractionPlaces exact f)
        let signed := if exact && w.isNegative then -sum else sum
        assemble exact w (some f) e =
          .ok (.float (e.elim signed fun l => signed * powerOfTen l.value)) := by
  refine ⟨?_, behindPoint_eq _, quotient_inexact all,
    fun exact => ⟨abs_quotient_lt exact all, isFinite_ofDecimal (natAbs_value_lt exact all)⟩, ?_,
    fun exact w base e range => assemble_fraction e range⟩
  · rw [quotient_eq true all, behindPoint_eq]
    rfl
  · rw [quotient_eq_iff all]
    -- Zero is worth nothing in any number of places; otherwise the number of places decides.
    by_cases zero : baseTen f.digits = 0
    · simp only [zero, true_or]
    · simp only [zero, false_or, length_eq_printedLength_iff all zero]

/-- Behind a minus sign, the fraction 05 is worth the same either way. -/
theorem fraction_scales_of_negative :
    let f : Literal := ⟨text "-", text "05"⟩
    let one : Literal := ⟨text "", text "1"⟩
    let base := Float.ofScientific 1 false 0
    (∀ c ∈ f.digits, CharClass.isDigit c = true) ∧ quotient true f = quotient false f ∧
      (ofDecimal (-5) 2).isFinite = true ∧ toFloat? one.value = some base ∧
      assemble false one (some f) none = .ok (.float (base + ofDecimal (-5) 2)) := by
  intro f one base
  have all : ∀ c ∈ f.digits, CharClass.isDigit c = true := by decide
  have range : toFloat? one.value = some base := if_neg (by decide +kernel)
  obtain ⟨-, -, -, finite, agree, assembled⟩ := fraction_scales all
  exact ⟨all, agree.2 (.inr (.inr ⟨rfl, rfl⟩)), (finite true).2, range,
    assembled false one base none range⟩

end Rewind.Number
