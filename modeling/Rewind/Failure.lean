import Rewind.Text.Decimal
import Rewind.Text.Quoted

/-! # Failures

A `Failure` says where a parse went wrong, what would have been accepted there and what was found
instead.  Parsers try several alternatives, so failures are merged as they accumulate: the one
furthest into the input is kept, and of two at the same offset the expectations are united in order
of first appearance, while what was found is taken from the first.

Most failures are swallowed on the way, by an alternative that succeeds or by a repetition that
stops.  The furthest of the swallowed ones travels along as an optional failure, the *ghost* of a
success; `Failure.join` merges two ghosts and `Failure.cover` merges a ghost into a failure. -/

namespace Rewind

/-- Where a parse failed, what was expected there, and what was found, `none` being the end of the
input. -/
structure Failure where
  pos : Nat
  expected : List Text
  actual : Option Buffer
  deriving DecidableEq, Repr

namespace Failure

/-! ## Wording -/

def expectation (e : Failure) : Text :=
  match e.expected with
  | [] => text "nothing"
  | [single] => single
  | several => text "one of " ++ (text ", ").intercalate several

def found (e : Failure) : Text :=
  match e.actual with
  | none => text "end of input"
  | some piece => piece.quoted

def message (e : Failure) : Text :=
  text "Parse error at offset " ++ digits e.pos ++ text ": expected " ++ e.expectation ++
    text " but saw " ++ e.found

/-! ## Merging -/

/-- The first list, followed by those of the second that are not there yet, each once. -/
def union (first second : List Text) : List Text :=
  second.foldl (fun seen e => if seen.contains e then seen else seen ++ [e]) first

/-- The failure further into the input; at the same offset, the first with the expectations of
both. -/
def merge (a b : Failure) : Failure :=
  if b.pos < a.pos then a
  else if a.pos < b.pos then b
  else { a with expected := union a.expected b.expected }

/-- Merges two ghosts; the absence of one is neutral. -/
def join : Option Failure → Option Failure → Option Failure
  | none, b => b
  | some a, none => some a
  | some a, some b => some (a.merge b)

/-- The failure `e` after the ghost of what came before it. -/
def cover : Option Failure → Failure → Failure
  | none, e => e
  | some ghost, e => ghost.merge e

@[simp] theorem join_none (a : Option Failure) : join a none = a := by cases a <;> rfl

@[simp] theorem none_join (b : Option Failure) : join none b = b := by cases b <;> rfl

@[simp] theorem cover_none (e : Failure) : cover none e = e := rfl

theorem some_cover (ghost : Option Failure) (e : Failure) :
    some (cover ghost e) = join ghost (some e) := by cases ghost <;> rfl

/-! ## Algebra of merging -/

@[simp] theorem union_nil (first : List Text) : union first [] = first := rfl

theorem union_cons (first second : List Text) (e : Text) :
    union first (e :: second) = union (union first [e]) second := rfl

theorem union_singleton (first : List Text) (e : Text) :
    union first [e] = if e ∈ first then first else first ++ [e] := by
  simp [union]

theorem union_concat (first second : List Text) (e : Text) :
    union first (second ++ [e]) = union (union first second) [e] := by
  simp [union]

theorem mem_union {e : Text} {first second : List Text} :
    e ∈ union first second ↔ e ∈ first ∨ e ∈ second := by
  induction second generalizing first with
  | nil => simp
  | cons x rest ih =>
    rw [union_cons, ih, union_singleton, List.mem_cons]
    by_cases h : x ∈ first
    · rw [if_pos h]
      constructor
      · rintro (hf | hr)
        · exact .inl hf
        · exact .inr (.inr hr)
      · rintro (hf | rfl | hr)
        · exact .inl hf
        · exact .inl h
        · exact .inr hr
    · rw [if_neg h, List.mem_append, List.mem_singleton, or_assoc]

/-- What is repeated in the second list is listed once. -/
theorem nodup_union {first : List Text} (second : List Text) (distinct : first.Nodup) :
    (union first second).Nodup := by
  induction second generalizing first with
  | nil => exact distinct
  | cons e rest ih =>
    rw [union_cons, union_singleton]
    by_cases seen : e ∈ first
    · simpa [seen] using ih distinct
    · simp only [seen, if_false]
      apply ih
      rw [List.nodup_append]
      refine ⟨distinct, by simp, ?_⟩
      simp only [List.mem_singleton]
      rintro x member _ rfl same
      exact seen (same ▸ member)

theorem union_ne_nil {first : List Text} (second : List Text) (nonempty : first ≠ []) :
    union first second ≠ [] := by
  obtain ⟨e, member⟩ := List.exists_mem_of_ne_nil first nonempty
  exact List.ne_nil_of_mem (mem_union.2 (.inl member))

/-- Uniting does not depend on how it is grouped. -/
theorem union_assoc (a b c : List Text) : union (union a b) c = union a (union b c) := by
  induction c generalizing b with
  | nil => rfl
  | cons e rest ih =>
    have step : union (union a b) [e] = union a (union b [e]) := by
      rw [union_singleton b]
      by_cases h : e ∈ b
      · rw [if_pos h, union_singleton, if_pos (mem_union.2 (.inr h))]
      · rw [if_neg h, union_concat]
    rw [union_cons (union a b), union_cons b, step, ih]

/-- Merging does not depend on how it is grouped. -/
theorem merge_assoc (a b c : Failure) : (a.merge b).merge c = a.merge (b.merge c) := by
  unfold merge
  grind [union_assoc]

theorem join_assoc (a b c : Option Failure) : join (join a b) c = join a (join b c) := by
  cases a <;> cases b <;> cases c <;> simp [join, merge_assoc]

theorem cover_join (a b : Option Failure) (e : Failure) :
    cover (join a b) e = cover a (cover b e) := by
  cases a <;> cases b <;> simp [join, cover, merge_assoc]

end Failure

end Rewind
