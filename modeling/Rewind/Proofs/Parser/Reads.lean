import Rewind.Proofs.Parser.Yields

/-! # What a match has read

Between the cursor at which a match begins and the one at which it ends stands the text that was read.
The primitives say which text that is, and what a repetition has read is what its rounds have read one
after the other. -/

namespace Rewind

/-- The text `t` stands between the cursor and the offset `pos`. -/
def State.Spans (s : State) (t : Text) (pos : Nat) : Prop := s.rest = t ++ s.input.rest pos

namespace State.Spans

variable {s : State} {t u : Text} {mid pos : Nat}

theorem empty (s : State) : s.Spans [] s.pos := rfl

theorem append (first : s.Spans t mid) (second : (s.goto mid).Spans u pos) :
    s.Spans (t ++ u) pos := by
  have rest : s.input.rest mid = u ++ s.input.rest pos := second
  show s.rest = t ++ u ++ s.input.rest pos
  rw [List.append_assoc, ← rest]
  exact first

/-- What a text stands before is left when it has been read. -/
theorem of_append {tail : List Code} (ahead : s.rest = t ++ tail) : s.Spans t (s.pos + t.length) := by
  show s.rest = t ++ s.input.rest (s.pos + t.length)
  rw [Buffer.rest_add, ← State.rest, ahead, List.drop_left]

theorem rest_eq {tail : List Code} (spans : s.Spans t pos) (ahead : s.rest = t ++ tail) :
    s.input.rest pos = tail :=
  List.append_cancel_left (spans.symm.trans ahead)

/-- Inside the buffer, a text ends its length behind where it begins. -/
theorem pos_eq (spans : s.Spans t pos) (begins : s.pos ≤ s.input.size) (ends : pos ≤ s.input.size) :
    pos = s.pos + t.length := by
  have lengths := congrArg List.length spans
  rw [List.length_append, State.rest, Buffer.length_rest, Buffer.length_rest] at lengths
  omega

/-- The cursor moves over a text that is not empty. -/
theorem further (spans : s.Spans t pos) (nonempty : t ≠ []) (reached : s.Precedes (s.goto pos)) :
    s.pos < pos ∧ pos ≤ s.input.size := by
  have lengths := congrArg List.length spans
  rw [List.length_append, State.rest, Buffer.length_rest, Buffer.length_rest] at lengths
  have longer := List.length_pos_iff.2 nonempty
  have inside : s.pos ≤ s.input.size := by omega
  exact ⟨by omega, reached.inside inside⟩

/-- What stands between two offsets is what the buffer has there. -/
theorem of_slice (forward : s.pos ≤ pos) : s.Spans (s.input.slice s.pos pos).codes pos := by
  have split := List.take_append_drop (pos - s.pos) s.rest
  rw [State.rest, ← Buffer.rest_add, Nat.add_sub_cancel' forward, ← Buffer.codes_slice] at split
  exact split.symm

theorem codes_slice (spans : s.Spans t pos) (begins : s.pos ≤ s.input.size)
    (ends : pos ≤ s.input.size) : (s.input.slice s.pos pos).codes = t := by
  rw [Buffer.codes_slice, spans.pos_eq begins ends, Nat.add_sub_cancel_left, ← State.rest, spans,
    List.take_left]

end State.Spans

namespace Parser

open Run

variable {α : Type} {p : Parser α} {s : State}

/-- Every match of `p` has read a text that `Language` relates to its value. -/
def Reads (p : Parser α) (Language : Text → α → Prop) : Prop :=
  ∀ s x pos, p.Yields s x pos → ∃ t, Language t x ∧ s.Spans t pos

theorem Reads.traced {Language : Text → α → Prop} (reads : p.Reads Language) (label : Text) :
    (traced label p).Reads Language :=
  fun s x pos yields => reads s x pos (yields_traced yields)

/-! ## Primitives -/

theorem yields_literal {expected x : Buffer} {pos : Nat}
    (yields : (literal expected).Yields s x pos) : x = expected ∧ s.Spans expected.codes pos := by
  obtain ⟨ghost, j, k, ran⟩ := yields
  simp only [literal] at ran
  split at ran
  · cases ran
  · split at ran
    case isTrue found =>
      cases ran
      obtain ⟨_, tail, ahead⟩ := (s.input.startsWith_iff _ _).1 found
      have spans := State.Spans.of_append (s := s) ahead.symm
      rw [Buffer.length_codes] at spans
      exact ⟨rfl, spans⟩
    case isFalse => cases ran

/-- The buffer knows a run by where it ends; in terms of the text it is a `takeWhile`. -/
theorem codes_slice_runEnd (accepts : Code → Bool) (s : State) :
    (s.input.slice s.pos (s.input.runEnd accepts s.pos)).codes = s.rest.takeWhile accepts := by
  rw [Buffer.codes_slice, Buffer.runEnd_eq, Nat.add_sub_cancel_left, ← State.rest]
  exact (List.prefix_iff_eq_take.1 (List.takeWhile_prefix accepts)).symm

theorem yields_takeWhile {accepts : Code → Bool} {x : Buffer} {pos : Nat}
    (yields : (takeWhile accepts).Yields s x pos) :
    s.Spans x.codes pos ∧ ∀ c ∈ x.codes, accepts c = true := by
  obtain ⟨ghost, j, k, ran⟩ := yields
  cases ran
  rw [codes_slice_runEnd, Buffer.runEnd_eq]
  refine ⟨.of_append (List.takeWhile_append_dropWhile).symm, fun c member => ?_⟩
  exact List.all_eq_true.1 List.all_takeWhile c member

theorem yields_satisfy {c : CharClass} {x : Buffer} {pos : Nat}
    (yields : (satisfy c).Yields s x pos) :
    ∃ unit, c.accepts unit = true ∧ x.codes = [unit] ∧ s.Spans [unit] pos := by
  obtain ⟨ghost, j, k, ran⟩ := yields
  simp only [satisfy] at ran
  split at ran
  case h_1 => cases ran
  case h_2 unit found =>
    split at ran
    case isTrue accepted =>
      cases ran
      rw [Buffer.getElem?_units] at found
      obtain ⟨tail, ahead⟩ := List.head?_eq_some_iff.1 found
      refine ⟨unit, accepted, ?_, .of_append (t := [unit]) ahead⟩
      rw [Buffer.codes_slice, ahead, Nat.add_sub_cancel_left]
      rfl
    case isFalse => cases ran

theorem yields_peek {x : Option Buffer} {pos : Nat} (yields : peek.Yields s x pos) :
    x = s.upcoming 1 ∧ pos = s.pos := by
  obtain ⟨ghost, j, k, ran⟩ := yields
  cases ran
  exact ⟨rfl, rfl⟩

theorem yields_eof {x : Unit} {pos : Nat} (yields : eof.Yields s x pos) :
    s.rest = [] ∧ pos = s.pos := by
  obtain ⟨c, mid, looked, rest⟩ := yields_bind yields
  obtain ⟨rfl, rfl⟩ := yields_peek looked
  cases seen : s.upcoming 1 with
  | none =>
    rw [seen] at rest
    obtain ⟨_, rfl⟩ := yields_pure rest
    rw [State.upcoming, Buffer.upcoming_one, Option.map_eq_none_iff, Buffer.getElem?_units,
      List.head?_eq_none_iff] at seen
    exact ⟨seen, rfl⟩
  | some piece =>
    rw [seen] at rest
    obtain ⟨ghost, j, k, ran⟩ := rest
    cases congrArg Prod.fst ran

/-! ## Repetitions -/

/-- Rounds of `p` that follow one another match these values and end at `pos`. -/
inductive Rounds (p : Parser α) : State → List α → Nat → Prop
  | nil (s : State) : Rounds p s [] s.pos
  | cons {s : State} {x : α} {xs : List α} {mid pos : Nat} : p.Yields s x mid →
      Rounds p (s.goto mid) xs pos → Rounds p s (x :: xs) pos

theorem yields_zeroOrMore (advances : p.Advances) {s : State} {xs : List α} {pos : Nat}
    (yields : p.zeroOrMore.Yields s xs pos) : p.Rounds s xs pos := by
  obtain ⟨ghost, gives⟩ := yields
  rw [run_zeroOrMore] at gives
  obtain ⟨x, mid, swallowed, first, rest⟩ | ⟨mid, error, _, rest⟩ := gives_resume gives
  · have further := advances s x mid ⟨swallowed, first⟩
    rw [if_pos further] at rest
    obtain ⟨next, _, mapped⟩ := gives_after rest
    obtain ⟨ys, rfl, more⟩ := gives_map mapped
    -- The induction is on what is left of the buffer, as in the loop itself.
    exact .cons ⟨swallowed, first⟩ (yields_zeroOrMore advances ⟨next, more⟩)
  · cases gives_reply rest
    exact .nil s
termination_by s.input.size - s.pos
decreasing_by
  simp only [State.goto]
  omega

theorem yields_rounds_self {s : State} {xs : List α} {pos : Nat}
    (yields : (rounds p p).Yields s xs pos) : p.Rounds s xs pos := by
  obtain ⟨ghost, gives⟩ := yields
  rw [run_rounds] at gives
  obtain ⟨x, mid, swallowed, first, rest⟩ | ⟨mid, error, _, rest⟩ := gives_resume gives
  · by_cases further : s.pos < mid ∧ mid ≤ s.input.size
    · rw [if_pos further] at rest
      obtain ⟨next, _, mapped⟩ := gives_after rest
      obtain ⟨ys, rfl, more⟩ := gives_map mapped
      exact .cons (yields_marking ⟨swallowed, first⟩) (yields_rounds_self ⟨next, more⟩)
    · rw [if_neg further] at rest
      cases gives_reply rest
  · cases gives_reply rest
    exact .nil s
termination_by s.input.size - s.pos
decreasing_by
  simp only [State.goto]
  omega

theorem yields_rounds {first next : Parser α} {xs : List α} {pos : Nat}
    (yields : (rounds first next).Yields s xs pos) :
    (xs = [] ∧ pos = s.pos) ∨
      ∃ x ys mid, xs = x :: ys ∧ first.Yields s x mid ∧ next.Rounds (s.goto mid) ys pos := by
  obtain ⟨ghost, gives⟩ := yields
  rw [run_rounds] at gives
  obtain ⟨x, mid, swallowed, opening, rest⟩ | ⟨mid, error, _, rest⟩ := gives_resume gives
  · by_cases further : s.pos < mid ∧ mid ≤ s.input.size
    · rw [if_pos further] at rest
      obtain ⟨more, _, mapped⟩ := gives_after rest
      obtain ⟨ys, rfl, inner⟩ := gives_map mapped
      refine .inr ⟨x, ys, mid, rfl, yields_marking ⟨swallowed, opening⟩, ?_⟩
      exact yields_rounds_self ⟨more, inner⟩
    · rw [if_neg further] at rest
      cases gives_reply rest
  · cases gives_reply rest
    exact .inl ⟨rfl, rfl⟩

/-- Rounds of a single unit each. -/
theorem rounds_satisfy {c : CharClass} {xs : List Buffer} {pos : Nat}
    (rounds : (satisfy c).Rounds s xs pos) :
    s.Spans (xs.flatMap Buffer.codes) pos ∧ (xs.flatMap Buffer.codes).length = xs.length ∧
      ∀ unit ∈ xs.flatMap Buffer.codes, c.accepts unit = true := by
  induction rounds with
  | nil s => exact ⟨.empty s, rfl, nofun⟩
  | cons first _ ih =>
    obtain ⟨unit, accepted, codes, spans⟩ := yields_satisfy first
    obtain ⟨more, length, all⟩ := ih
    rw [List.flatMap_cons, codes, List.singleton_append, List.length_cons, List.length_cons, length]
    refine ⟨spans.append more, rfl, ?_⟩
    rintro other (_ | ⟨_, member⟩)
    · exact accepted
    · exact all other member

theorem yields_count {n : Nat} {s : State} {xs : List α} {pos : Nat}
    (yields : (count n p).Yields s xs pos) : p.Rounds s xs pos ∧ xs.length = n := by
  induction n generalizing s xs with
  | zero =>
    obtain ⟨rfl, rfl⟩ := yields_pure yields
    exact ⟨.nil s, rfl⟩
  | succ n ih =>
    obtain ⟨x, mid, first, rest⟩ := yields_bind yields
    obtain ⟨ys, rfl, more⟩ := yields_map rest
    obtain ⟨rounds, length⟩ := ih more
    exact ⟨.cons first rounds, congrArg Nat.succ length⟩

end Parser

end Rewind
