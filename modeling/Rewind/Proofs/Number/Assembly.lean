import Mathlib.Logic.Basic
import Rewind.Number.Assembly

/-! # When the parts of a number make one

Without a fraction and an exponent they always do.  Otherwise the whole part has to be in the range of
the floats; the fraction and the exponent do not matter. -/

namespace Rewind.Number

theorem floatLimit_pos : 0 < floatLimit := by decide +kernel

theorem toFloat?_natAbs_eq_none (n : Int) (absolute : Bool) :
    toFloat? (if absolute then n.natAbs else n) = none ↔ floatLimit ≤ n.natAbs := by
  have magnitude : (if absolute then (n.natAbs : Int) else n).natAbs = n.natAbs := by
    split
    · exact Int.natAbs_natCast _
    · rfl
  rw [toFloat?, magnitude]
  simp

/-- The parts of a number make one, unless there is more than a whole part and it is out of range. -/
theorem assemble_eq_error_iff {exact : Bool} {w : Literal} {f e : Option Literal} {cause : Fault} :
    assemble exact w f e = .error cause ↔
      cause = .numberTooLarge ∧ (f ≠ none ∨ e ≠ none) ∧ floatLimit ≤ w.value.natAbs := by
  have range := toFloat?_natAbs_eq_none w.value exact
  rw [assemble]
  by_cases whole : f = none ∧ e = none
  · simp [whole.1, whole.2]
  · have parts : f ≠ none ∨ e ≠ none := by
      rwa [← not_and_or]
    have unsettled : ¬ (f.isNone && e.isNone) = true := by
      simpa using fun none => (not_and.1 whole) none
    rw [if_neg unsettled]
    cases converted : toFloat? (if exact then w.value.natAbs else w.value) with
    | none =>
      simp only [parts, range.1 converted, Except.error.injEq, and_true]
      exact eq_comm
    | some base =>
      have small : ¬ floatLimit ≤ w.value.natAbs := fun large => by
        rw [range.2 large] at converted
        cases converted
      simp [small]

/-- With a fraction or an exponent the number is a float, if there is one. -/
theorem exists_assemble_eq_float_iff {exact : Bool} {w : Literal} {f e : Option Literal}
    (parts : f ≠ none ∨ e ≠ none) :
    (∃ x, assemble exact w f e = .ok (.float x)) ↔ w.value.natAbs < floatLimit := by
  have unsettled : ¬ (f.isNone && e.isNone) = true := by
    simpa using fun none => parts.resolve_left (not_not_intro none)
  rw [assemble, if_neg unsettled, ← Nat.not_le, ← toFloat?_natAbs_eq_none w.value exact]
  cases toFloat? (if exact then w.value.natAbs else w.value) <;> simp

/-- Whether the parts make an integer, a float or nothing does not depend on how fractions count. -/
theorem assemble_alike (w : Literal) (f e : Option Literal) :
    (∃ n, ∀ exact, assemble exact w f e = .ok (.int n)) ∨
      (∃ cause, ∀ exact, assemble exact w f e = .error cause) ∨
      ∀ exact, ∃ x, assemble exact w f e = .ok (.float x) := by
  by_cases parts : f ≠ none ∨ e ≠ none
  · by_cases large : floatLimit ≤ w.value.natAbs
    · exact .inr (.inl ⟨_, fun exact => assemble_eq_error_iff.2 ⟨rfl, parts, large⟩⟩)
    · exact .inr (.inr fun exact => (exists_assemble_eq_float_iff parts).2 (Nat.lt_of_not_le large))
  · obtain ⟨rfl, rfl⟩ : f = none ∧ e = none := by simpa using parts
    exact .inl ⟨w.value, fun exact => rfl⟩

end Rewind.Number
