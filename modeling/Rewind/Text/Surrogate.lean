import Rewind.Text.Buffer

/-! # Surrogate pairs

A character above `0xFFFF` may arrive as two surrogates, a high one and a low one.  Joining puts
each such pair together, from left to right, and leaves everything else as it is, lone surrogates
included. -/

namespace Rewind.Surrogate

def isHigh (c : Code) : Bool := 0xD800 ≤ c && c ≤ 0xDBFF

def isLow (c : Code) : Bool := 0xDC00 ≤ c && c ≤ 0xDFFF

def pair (high low : Code) : Code := 0x10000 + (high - 0xD800) * 0x400 + (low - 0xDC00)

def join : Text → Text
  | high :: low :: rest =>
    if isHigh high && isLow low then pair high low :: join rest else high :: join (low :: rest)
  | rest => rest

/-! ## Joining -/

theorem isHigh_iff {c : Nat} : isHigh c = true ↔ 0xD800 ≤ c ∧ c ≤ 0xDBFF := by
  simp [isHigh]

theorem isLow_iff {c : Nat} : isLow c = true ↔ 0xDC00 ≤ c ∧ c ≤ 0xDFFF := by
  simp [isLow]

theorem join_cons {c : Code} {y : Text}
    (apart : ∀ c' ∈ y.head?, ¬ (isHigh c = true ∧ isLow c' = true)) :
    join (c :: y) = c :: join y := by
  cases y with
  | nil => rfl
  | cons c' y =>
    have single : ¬ (isHigh c && isLow c') = true := by
      simpa using apart c' rfl
    rw [join, if_neg single]

theorem join_pair {high low : Code} (first : isHigh high = true) (second : isLow low = true)
    (y : Text) : join (high :: low :: y) = pair high low :: join y := by
  rw [join, first, second]
  rfl

/-- Without surrogates nothing is joined. -/
theorem join_eq_self {t : Text} (free : ∀ c ∈ t, ¬ (0xD800 ≤ c ∧ c ≤ 0xDFFF)) : join t = t := by
  induction t with
  | nil => rfl
  | cons c t ih =>
    rw [join_cons, ih fun c' member => free c' (List.mem_cons_of_mem _ member)]
    rintro c' - ⟨high, _⟩
    obtain ⟨above, below⟩ := isHigh_iff.1 high
    exact free c List.mem_cons_self ⟨above, Nat.le_trans below (by decide)⟩

example : join [0xD83D, 0xD83D, 0xDE00, 0xDE00] = [0xD83D, 0x1F600, 0xDE00] := by decide

end Rewind.Surrogate
