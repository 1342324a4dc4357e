import Mathlib.Data.List.Induction
import Rewind.Failure

/-! # The furthest of several failures

Merging failures one after the other keeps the furthest offset.  Where each failure has a single
expectation, the result can be read off the list: of the failures at that offset, what was found is
taken from the first, and their expectations are listed in the order of first appearance, none
twice. -/

namespace Rewind.Failure

def mergeAll (failures : List Failure) : Option Failure :=
  failures.foldl (fun ghost e => join ghost (some e)) none

@[simp] theorem mergeAll_nil : mergeAll [] = none := rfl

@[simp] theorem mergeAll_singleton (e : Failure) : mergeAll [e] = some e := rfl

theorem mergeAll_concat (failures : List Failure) (e : Failure) :
    mergeAll (failures ++ [e]) = join (mergeAll failures) (some e) := by
  simp [mergeAll]

theorem mergeAll_append (first second : List Failure) :
    mergeAll (first ++ second) = join (mergeAll first) (mergeAll second) := by
  induction second using List.reverseRecOn with
  | nil => simp
  | append_singleton second e ih =>
    rw [← List.append_assoc, mergeAll_concat, mergeAll_concat, ih, join_assoc]

theorem mergeAll_cons (e : Failure) (failures : List Failure) :
    mergeAll (e :: failures) = join (some e) (mergeAll failures) :=
  mergeAll_append [e] failures

/-! ## The furthest offset -/

theorem pos_merge (a b : Failure) : (a.merge b).pos = max a.pos b.pos := by
  unfold merge
  split
  · omega
  · split
    · omega
    · show a.pos = max a.pos b.pos
      omega

theorem pos_join (a b : Option Failure) :
    (join a b).map pos = (a.map pos).merge max (b.map pos) := by
  cases a <;> cases b <;> simp [join, pos_merge]

theorem merge_of_lt {a b : Failure} (beyond : a.pos < b.pos) : a.merge b = b := by
  rw [merge, if_neg (Nat.lt_asymm beyond), if_pos beyond]

theorem merge_of_gt {a b : Failure} (before : b.pos < a.pos) : a.merge b = a := by
  rw [merge, if_pos before]

/-- A merge expects what either failure does, unless that is before the other. -/
theorem mem_expected_merge {a b : Failure} {x : Text} : x ∈ (a.merge b).expected ↔
    (b.pos ≤ a.pos ∧ x ∈ a.expected) ∨ (a.pos ≤ b.pos ∧ x ∈ b.expected) := by
  rcases Nat.lt_trichotomy a.pos b.pos with before | level | beyond
  · simp [merge_of_lt before, Nat.not_le.2 before, Nat.le_of_lt before]
  · simp [merge, level, mem_union]
  · simp [merge_of_gt beyond, Nat.not_le.2 beyond, Nat.le_of_lt beyond]

/-- What was expected furthest into the input is still expected after a merge. -/
theorem mem_expected_merge_left {a b : Failure} {x : Text} (member : x ∈ a.expected)
    (behind : b.pos ≤ a.pos) : x ∈ (a.merge b).expected :=
  mem_expected_merge.2 (.inl ⟨behind, member⟩)

theorem mem_expected_merge_right {a b : Failure} {x : Text} (member : x ∈ b.expected)
    (behind : a.pos ≤ b.pos) : x ∈ (a.merge b).expected :=
  mem_expected_merge.2 (.inr ⟨behind, member⟩)

/-- What merging two failures keeps, merging two ghosts keeps. -/
theorem forall_join {P : Failure → Prop} (merges : ∀ {a b}, P a → P b → P (a.merge b))
    {a b : Option Failure} (first : ∀ e ∈ a, P e) (second : ∀ e ∈ b, P e) :
    ∀ e ∈ join a b, P e := by
  cases a with
  | none => simpa using second
  | some a =>
    cases b with
    | none => simpa using first
    | some b => simpa [join] using merges (first a rfl) (second b rfl)

/-- Merging two ghosts makes up no offset. -/
theorem forall_pos_join {P : Nat → Prop} {a b : Option Failure} (first : ∀ e ∈ a, P e.pos)
    (second : ∀ e ∈ b, P e.pos) : ∀ e ∈ join a b, P e.pos := by
  refine forall_join (P := fun e => P e.pos) ?_ first second
  intro a b left right
  simp only [pos_merge]
  cases Nat.le_total a.pos b.pos with
  | inl level => rwa [Nat.max_eq_right level]
  | inr level => rwa [Nat.max_eq_left level]

theorem pos_cover {ghost : Option Failure} {e : Failure} (behind : ∀ g ∈ ghost, g.pos ≤ e.pos) :
    (cover ghost e).pos = e.pos := by
  cases ghost with
  | none => rfl
  | some g => rw [cover, pos_merge, Nat.max_eq_right (behind g rfl)]

/-- What is merged in front of a failure does not move it back. -/
theorem lt_pos_cover {offset : Nat} {e : Failure} (late : offset < e.pos)
    (ghost : Option Failure) : offset < (cover ghost e).pos := by
  cases ghost with
  | none => exact late
  | some swallowed =>
    show offset < (swallowed.merge e).pos
    rw [pos_merge]
    omega

/-- The merge is at the largest of the offsets. -/
theorem pos_mergeAll (failures : List Failure) :
    (mergeAll failures).map pos = (failures.map pos).max? := by
  induction failures with
  | nil => rfl
  | cons e failures ih =>
    rw [mergeAll_cons, pos_join, ih, List.map_cons, List.max?_cons]
    cases (failures.map pos).max? <;> rfl

theorem mergeAll_eq_none {failures : List Failure} : mergeAll failures = none ↔ failures = [] := by
  rw [← Option.map_eq_none_iff (f := pos), pos_mergeAll, List.max?_eq_none_iff, List.map_eq_nil_iff]

/-! ## What it reports -/

/-- `e` reports what several failures report together: it lies at the furthest of their offsets, what
was found is that of the first failure there, and what was expected is listed in the order of first
appearance there, nothing twice. -/
structure Summarizes (e : Failure) (failures : List Failure) : Prop where
  furthest : ∀ f ∈ failures, f.pos ≤ e.pos
  actual_eq : (failures.filter (·.pos = e.pos)).head?.map actual = some e.actual
  expected_eq : e.expected = ((failures.filter (·.pos = e.pos)).flatMap expected).eraseDups

theorem eraseDups_concat (first : List Text) (x : Text) :
    (first ++ [x]).eraseDups = union first.eraseDups [x] := by
  rw [List.eraseDups_append, union_singleton]
  by_cases member : x ∈ first
  · simp [member, List.removeAll]
  · simp [member, List.removeAll, List.eraseDups_cons]

theorem filter_pos_of_lt {failures : List Failure} {offset : Nat}
    (before : ∀ f ∈ failures, f.pos < offset) : failures.filter (·.pos = offset) = [] := by
  rw [List.filter_eq_nil_iff]
  intro f member
  have := before f member
  simp only [decide_eq_true_eq]
  omega

namespace Summarizes

variable {e last : Failure} {failures : List Failure}

theorem singleton {x : Text} (only : e.expected = [x]) : e.Summarizes [e] where
  furthest := by simp
  actual_eq := by simp
  expected_eq := by simp [only, List.eraseDups_cons]

/-- A failure before the furthest one changes nothing. -/
theorem behind (summary : e.Summarizes failures) (before : last.pos < e.pos) :
    e.Summarizes (failures ++ [last]) := by
  -- It is not among those at the furthest offset.
  have unseen : [last].filter (·.pos = e.pos) = [] := filter_pos_of_lt (by simpa using before)
  refine ⟨?_, ?_, ?_⟩
  · simpa [or_imp, forall_and, Nat.le_of_lt before] using summary.furthest
  · rw [List.filter_append, unseen, List.append_nil, summary.actual_eq]
  · rw [List.filter_append, unseen, List.append_nil, ← summary.expected_eq]

/-- A failure beyond the furthest one takes its place. -/
theorem ahead {x : Text} (summary : e.Summarizes failures) (beyond : e.pos < last.pos)
    (only : last.expected = [x]) : last.Summarizes (failures ++ [last]) := by
  have passed : ∀ f ∈ failures, f.pos < last.pos := fun f member =>
    Nat.lt_of_le_of_lt (summary.furthest f member) beyond
  -- None of the earlier ones is at the new offset.
  have unseen := filter_pos_of_lt passed
  refine ⟨?_, ?_, ?_⟩
  · intro f member
    rcases List.mem_append.1 member with member | member
    · exact Nat.le_of_lt (passed f member)
    · exact Nat.le_of_eq (congrArg pos (List.mem_singleton.1 member))
  · simp [unseen]
  · simp [unseen, only, List.eraseDups_cons]

/-- A failure as far as the furthest one adds its expectation. -/
theorem level {x : Text} (summary : e.Summarizes failures) (same : last.pos = e.pos)
    (only : last.expected = [x]) :
    Summarizes { e with expected := union e.expected last.expected } (failures ++ [last]) := by
  refine ⟨?_, ?_, ?_⟩
  · simpa [or_imp, forall_and, same] using summary.furthest
  · cases seen : failures.filter (·.pos = e.pos) with
    | nil => simpa [seen] using summary.actual_eq
    | cons f rest => simpa [seen] using summary.actual_eq
  · simp [same, only, eraseDups_concat, ← summary.expected_eq]

end Summarizes

/-- The merge of failures with one expectation each reports what they report together. -/
theorem summarizes_mergeAll {failures : List Failure} {e : Failure}
    (single : ∀ f ∈ failures, f.expected.length = 1) (merged : mergeAll failures = some e) :
    e.Summarizes failures := by
  induction failures using List.reverseRecOn generalizing e with
  | nil => simp at merged
  | append_singleton failures last ih =>
    obtain ⟨x, only⟩ := List.length_eq_one_iff.1 (single last (by simp))
    rw [mergeAll_concat] at merged
    cases before : mergeAll failures with
    | none =>
      cases mergeAll_eq_none.1 before
      cases merged
      exact .singleton only
    | some a =>
      have summary := ih (fun f member => single f (by simp [member])) before
      -- The last failure lies before, past or at the furthest of the others.
      simp only [before, join, Option.some.injEq, merge] at merged
      split at merged
      case isTrue before =>
        exact merged ▸ summary.behind before
      case isFalse notBefore =>
        split at merged
        case isTrue beyond => exact merged ▸ summary.ahead beyond only
        case isFalse notBeyond => exact merged ▸ summary.level (by omega) only

end Rewind.Failure
