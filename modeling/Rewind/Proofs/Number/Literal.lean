import Mathlib.Data.List.Basic
import Mathlib.Data.List.Induction
import Mathlib.Data.Nat.Digits.Defs
import Rewind.Number.Literal
import Rewind.Text.CharClass
import Rewind.Text.Decimal

/-! # Literals and canonical numerals

A literal has two measures.  Its value is folded from its digits; its printed length is found by
dropping zeros, and no number is computed for it.  Both are compared with the numeral in base ten, in
which each digit counts by its place.  The canonical numeral of a number begins with no zero, unless it
is that of zero, and has a minus sign if it is that of a negative number.

The two meet in one fact: the significant digits of a literal are the canonical digits of the number
that all its digits denote. -/

namespace Rewind

namespace CharClass

theorem sub_lt_of_isDigit {c : Nat} (digit : isDigit c = true) : c - 0x30 < 10 := by
  have bounds := isDigit_iff.1 digit
  omega

theorem add_sub_of_isDigit {c : Nat} (digit : isDigit c = true) : 0x30 + (c - 0x30) = c :=
  Nat.add_sub_of_le (isDigit_iff.1 digit).1

end CharClass

/-! ## Canonical digits -/

theorem digits_of_lt {d : Nat} (small : d < 10) : digits d = [0x30 + d] := by
  rw [digits, Nat.toDigits_of_lt_base small, List.map_singleton,
    Nat.toNat_digitChar_of_lt_ten small]

theorem digits_concat {n d : Nat} (positive : 0 < n) (small : d < 10) :
    digits (10 * n + d) = digits n ++ [0x30 + d] := by
  have split := Nat.toDigits_append_toDigits (b := 10) (by decide) positive small
  rw [← digits_of_lt small, digits, digits, digits, ← List.map_append, split]

theorem digits_of_le {n : Nat} (large : 10 ≤ n) :
    digits n = digits (n / 10) ++ [0x30 + n % 10] := by
  have positive : 0 < n / 10 := Nat.div_pos large (by decide)
  rw [← digits_concat positive (Nat.mod_lt n (by decide)), Nat.div_add_mod]

theorem digits_ne_nil (n : Nat) : digits n ≠ [] := by
  rw [digits, Ne, List.map_eq_nil_iff]
  exact Nat.toDigits_ne_nil

theorem isDigit_digits {n : Nat} {c : Code} (member : c ∈ digits n) : CharClass.isDigit c = true := by
  obtain ⟨char, listed, rfl⟩ := List.mem_map.1 member
  have digit := Nat.isDigit_of_mem_toDigits (by decide) (by decide) listed
  simp only [Char.isDigit, Bool.and_eq_true, decide_eq_true_eq] at digit
  exact CharClass.isDigit_iff.2 digit

/-- There is no leading zero, except that of zero itself. -/
theorem digits_head? {n : Nat} (positive : 0 < n) : (digits n).head? ≠ some 0x30 := by
  induction n using Nat.strongRecOn with
  | ind n ih =>
    by_cases small : n < 10
    · rw [digits_of_lt small, List.head?_cons]
      intro zero
      have first : 0x30 + n = 0x30 := Option.some.inj zero
      omega
    · rw [digits_of_le (Nat.not_lt.1 small), List.head?_append_of_ne_nil _ (digits_ne_nil _)]
      exact ih (n / 10) (by omega) (by omega)

/-! ## Runs of digits in base ten -/

def baseTen (run : Text) : Nat := Nat.ofDigits 10 (run.reverse.map (· - 0x30))

theorem baseTen_concat (run : Text) (c : Nat) :
    baseTen (run ++ [c]) = 10 * baseTen run + (c - 0x30) := by
  rw [baseTen, List.reverse_concat, List.map_cons, Nat.ofDigits_cons, Nat.add_comm]
  rfl

theorem baseTen_cons (c : Nat) (run : Text) :
    baseTen (c :: run) = (c - 0x30) * 10 ^ run.length + baseTen run := by
  rw [baseTen, List.reverse_cons, List.map_append, Nat.ofDigits_append, List.length_map,
    List.length_reverse, List.map_singleton, Nat.ofDigits_singleton, Nat.mul_comm, Nat.add_comm,
    baseTen]

theorem baseTen_singleton (c : Nat) : baseTen [c] = c - 0x30 := Nat.ofDigits_singleton

/-- A number is below the power of ten that has a zero for each of its digits. -/
theorem baseTen_lt {run : Text} (all : ∀ c ∈ run, CharClass.isDigit c = true) :
    baseTen run < 10 ^ run.length := by
  have small : ∀ d ∈ run.reverse.map (· - 0x30), d < 10 := by
    intro d member
    obtain ⟨c, listed, rfl⟩ := List.mem_map.1 member
    exact CharClass.sub_lt_of_isDigit (all c (List.mem_reverse.1 listed))
  have bound := Nat.ofDigits_lt_base_pow_length (by decide : 1 < 10) small
  rwa [List.length_map, List.length_reverse] at bound

theorem baseTen_digits (n : Nat) : baseTen (digits n) = n := by
  induction n using Nat.strongRecOn with
  | ind n ih =>
    by_cases small : n < 10
    · rw [digits_of_lt small, baseTen_singleton, Nat.add_sub_cancel_left]
    · rw [digits_of_le (Nat.not_lt.1 small), baseTen_concat, ih (n / 10) (by omega)]
      omega

theorem lt_pow_length_digits (n : Nat) : n < 10 ^ (digits n).length := by
  have bound : baseTen (digits n) < _ := baseTen_lt fun _ => isDigit_digits
  rwa [baseTen_digits] at bound

/-- Leading zeros denote nothing. -/
theorem baseTen_dropWhile (run : Text) : baseTen (run.dropWhile (· == 0x30)) = baseTen run := by
  induction run with
  | nil => rfl
  | cons c run ih =>
    by_cases zero : c = 0x30
    · rw [List.dropWhile_cons_of_pos (by simpa using zero), ih, baseTen_cons, zero, Nat.sub_self,
        Nat.zero_mul, Nat.zero_add]
    · rw [List.dropWhile_cons_of_neg (by simpa using zero)]

/-- A run of digits that begins with no zero is the canonical one of its number. -/
theorem digits_baseTen {run : Text} (nonempty : run ≠ [])
    (all : ∀ c ∈ run, CharClass.isDigit c = true) (first : run.head? ≠ some 0x30) :
    digits (baseTen run) = run := by
  induction run using List.reverseRecOn with
  | nil => exact absurd rfl nonempty
  | append_singleton run c ih =>
    obtain ⟨front, last⟩ := List.forall_mem_append.1 all
    have digit : CharClass.isDigit c = true := last c (List.mem_singleton_self c)
    have small := CharClass.sub_lt_of_isDigit digit
    by_cases single : run = []
    · rw [single, List.nil_append, baseTen_singleton, digits_of_lt small,
        CharClass.add_sub_of_isDigit digit]
    · rw [List.head?_append_of_ne_nil _ single] at first
      have canonical := ih single front first
      -- What stands before the last digit is not zero, for zero begins with one.
      have positive : 0 < baseTen run := by
        rw [Nat.pos_iff_ne_zero]
        intro zero
        rw [zero] at canonical
        rw [← canonical] at first
        exact first rfl
      rw [baseTen_concat, digits_concat positive small, canonical, CharClass.add_sub_of_isDigit digit]

theorem digits_eq_zero_iff {n : Nat} : digits n = text "0" ↔ n = 0 := by
  constructor
  · intro zero
    rw [← baseTen_digits n, zero]
    rfl
  · rintro rfl
    rfl

namespace Literal

variable {run : Text} {l : Literal}

/-! ## The value -/

/-- The fold over the digits comes to what the places of the digits say. -/
theorem magnitude_eq_baseTen (all : ∀ c ∈ run, CharClass.isDigit c = true) :
    magnitude run = baseTen run := by
  -- The value grows by the last digit.
  induction run using List.reverseRecOn with
  | nil => rfl
  | append_singleton run c ih =>
    obtain ⟨front, last⟩ := List.forall_mem_append.1 all
    have above := (CharClass.isDigit_iff.1 (last c (List.mem_singleton_self c))).1
    have before := ih front
    rw [magnitude] at before ⊢
    rw [List.foldl_append, before, List.foldl_cons, List.foldl_nil, baseTen_concat]
    omega

theorem value_eq (all : ∀ c ∈ l.digits, CharClass.isDigit c = true) :
    l.value = if l.sign = text "-" then -(baseTen l.digits : Int) else baseTen l.digits := by
  rw [value, magnitude_eq_baseTen all]
  simp only [isNegative, beq_iff_eq]

theorem natAbs_value (all : ∀ c ∈ l.digits, CharClass.isDigit c = true) :
    l.value.natAbs = baseTen l.digits := by
  rw [value_eq all]
  split
  · rw [Int.natAbs_neg, Int.natAbs_natCast]
  · exact Int.natAbs_natCast _

/-! ## The printed length -/

/-- What is left when leading zeros are dropped is the canonical text of the number. -/
theorem significant_eq_digits (all : ∀ c ∈ l.digits, CharClass.isDigit c = true) :
    l.significant = Rewind.digits (baseTen l.digits) := by
  rw [significant, ← baseTen_dropWhile]
  have stops := List.head?_dropWhile_not (· == 0x30) l.digits
  have kept : ∀ c ∈ l.digits.dropWhile (· == 0x30), CharClass.isDigit c = true := fun c member =>
    all c ((List.dropWhile_sublist _).subset member)
  cases dropped : l.digits.dropWhile (· == 0x30) with
  | nil => rfl
  | cons c rest =>
    rw [dropped] at stops kept
    refine (digits_baseTen (List.cons_ne_nil c rest) kept ?_).symm
    simpa using stops

def leadingZeros (l : Literal) : Nat := (l.digits.takeWhile (· == 0x30)).length

/-- Unless the number is zero, its canonical digits are what comes behind the leading zeros. -/
theorem length_digits (all : ∀ c ∈ l.digits, CharClass.isDigit c = true)
    (nonzero : baseTen l.digits ≠ 0) :
    l.digits.length = l.leadingZeros + (Rewind.digits (baseTen l.digits)).length := by
  have kept := significant_eq_digits all
  rw [significant] at kept
  split at kept
  · exact absurd (digits_eq_zero_iff.1 kept.symm) nonzero
  · rw [← kept, leadingZeros, ← List.length_append, List.takeWhile_append_dropWhile]

theorem leadingZeros_eq_zero_iff : l.leadingZeros = 0 ↔ l.digits.head? ≠ some 0x30 := by
  rw [leadingZeros]
  cases l.digits with
  | nil => simp
  | cons c run => by_cases zero : c = 0x30 <;> simp [zero]

/-- A minus sign counts unless the number is zero. -/
theorem printedLength_eq (all : ∀ c ∈ l.digits, CharClass.isDigit c = true) :
    l.printedLength = (Rewind.digits (baseTen l.digits)).length +
      if l.sign = text "-" ∧ baseTen l.digits ≠ 0 then 1 else 0 := by
  rw [printedLength, significant_eq_digits all]
  simp only [isNegative, Bool.and_eq_true, beq_iff_eq, bne_iff_ne, Ne, digits_eq_zero_iff]

theorem printedLength_eq_length (all : ∀ c ∈ l.digits, CharClass.isDigit c = true) :
    l.printedLength = (decimal l.value).length := by
  rw [printedLength_eq all, value_eq all]
  by_cases minus : l.sign = text "-"
  · by_cases zero : baseTen l.digits = 0
    · simp only [zero, ne_eq, not_true_eq_false, and_false, if_false, minus, if_true]
      rfl
    · have negative : -(baseTen l.digits : Int) < 0 := by omega
      rw [if_pos ⟨minus, zero⟩, if_pos minus, decimal, if_pos negative, Int.natAbs_neg,
        Int.natAbs_natCast, List.length_append, Nat.add_comm]
      rfl
  · rw [if_neg fun both => minus both.1, if_neg minus, decimal_natCast, Nat.add_zero]

/-! ## The literal of a canonical numeral -/

def canonical (i : Int) : Literal := ⟨if i < 0 then text "-" else text "", Rewind.digits i.natAbs⟩

theorem isDigit_canonical (i : Int) : ∀ c ∈ (canonical i).digits, CharClass.isDigit c = true :=
  fun _ => isDigit_digits

theorem canonical_spelled (i : Int) : (canonical i).sign ++ (canonical i).digits = decimal i := by
  rw [canonical, decimal]
  split <;> rfl

theorem value_canonical (i : Int) : (canonical i).value = i := by
  rw [value_eq (isDigit_canonical i), canonical, baseTen_digits]
  by_cases negative : i < 0
  · rw [if_pos negative, if_pos rfl]
    omega
  · have unsigned : ¬ text "" = text "-" := by decide
    rw [if_neg negative, if_neg unsigned]
    omega

/-- A literal has the value that its digits denote in base ten, and the printed length of the canonical
numeral of this value, whatever zeros it begins with.  The canonical numeral of an integer, for its
part, begins with a minus sign just if the integer is negative, and with a zero only if it is zero; read
as a literal, it has the integer as its value and its own length as the printed length. -/
theorem measures_numeral (all : ∀ c ∈ l.digits, CharClass.isDigit c = true) (i : Int) :
    l.value = (if l.sign = text "-" then -(baseTen l.digits : Int) else baseTen l.digits) ∧
    l.printedLength = (decimal l.value).length ∧
    (canonical i).sign ++ (canonical i).digits = decimal i ∧
    ((canonical i).sign = text "-" ↔ i < 0) ∧
    (i ≠ 0 → (canonical i).digits.head? ≠ some 0x30) ∧
    (canonical i).value = i ∧
    (canonical i).printedLength = (decimal i).length := by
  refine ⟨value_eq all, printedLength_eq_length all, canonical_spelled i, ?_, ?_,
    value_canonical i, ?_⟩
  · by_cases negative : i < 0 <;> simp [canonical, negative, text]
  · exact fun some => digits_head? (Int.natAbs_pos.2 some)
  · rw [printedLength_eq_length (isDigit_canonical i), value_canonical]

/-- Minus zero, written with three zeros, and minus twelve. -/
theorem measures_numeral_of_zeros :
    let l : Literal := ⟨text "-", text "000"⟩
    (∀ c ∈ l.digits, CharClass.isDigit c = true) ∧ l.value = 0 ∧ decimal l.value = text "0" ∧
      l.printedLength = (decimal l.value).length ∧
      (-12 : Int) ≠ 0 ∧ (canonical (-12)).digits.head? ≠ some 0x30 ∧
      (canonical (-12)).printedLength = (decimal (-12)).length := by
  intro l
  have all : ∀ c ∈ l.digits, CharClass.isDigit c = true := by decide
  obtain ⟨-, length, -, -, first, -, printed⟩ := measures_numeral all (-12)
  exact ⟨all, by decide, by decide, length, by decide, first (by decide), printed⟩

end Literal

end Rewind
