import Rewind.Proofs.Parser.Choice
import Rewind.Proofs.Parser.Prospects

/-! # Matches that leave no failure ahead

A match may carry a failure from beyond its end, if an alternative got further before it was given up.
Where that does not happen, whatever comes after the match and fails lies at least as far as anything
that was swallowed on the way, and decides what the whole reports.

`p.TidyAt s` says that no match of `p` at `s` carries a failure beyond its end.  A loop ends with a
failure, and whether that one lies ahead is up to what comes next. -/

namespace Rewind.Parser

open Run RunProperty

variable {α β γ : Type} {p q : Parser α} {s : State}

/-- No match of `p` at `s` carries a failure beyond its end. -/
def TidyAt (p : Parser α) (s : State) : Prop :=
  ∀ x pos ghost, Gives (p.run s) (.matched x pos ghost) → ∀ e ∈ ghost, e.pos ≤ pos

theorem gives_bind {f : α → Parser β} {y : β} {pos : Nat} {ghost : Option Failure}
    (gives : Gives ((p.bind f).run s) (.matched y pos ghost)) :
    ∃ x mid swallowed next, Gives (p.run s) (.matched x mid swallowed) ∧
      Gives ((f x).run (s.goto mid)) (.matched y pos next) ∧
      ghost = Failure.join swallowed next := by
  rw [run_bind] at gives
  obtain ⟨x, mid, swallowed, first, rest⟩ | ⟨mid, error, _, rest⟩ := gives_resume gives
  · obtain ⟨next, total, inner⟩ := gives_after rest
    exact ⟨x, mid, swallowed, next, first, inner, total⟩
  · cases gives_reply rest

/-- What lies at the start of a match does not lie beyond its end. -/
theorem tidyAt_of_inPlace (inPlace : p.RepliesAt (Reply.CarriesOnly (· = s.pos)) s)
    (steady : p.Obeys forward) : p.TidyAt s := by
  intro x pos ghost gives e carried
  have reached := Yields.precedes steady ⟨ghost, gives⟩
  have here : e.pos = s.pos := inPlace.gives gives e carried
  exact Nat.le_trans (Nat.le_of_eq here) reached.pos_le

/-! ### Parsers that carry nothing -/

theorem tidyAt_pure (x : α) (s : State) : (Parser.pure x).TidyAt s :=
  tidyAt_of_inPlace (fun _ => Reply.carriesOnly_none) (obeys_pure forward_compositional x)

theorem tidyAt_takeWhile (accepts : Code → Bool) (s : State) : (takeWhile accepts).TidyAt s :=
  tidyAt_of_inPlace (fun _ => Reply.carriesOnly_none) (obeys_takeWhile forward_compositional accepts)

theorem tidyAt_peek (s : State) : peek.TidyAt s :=
  tidyAt_of_inPlace (fun _ => Reply.carriesOnly_none) (obeys_peek forward_compositional)

/-! ### Where the failures of a run lie -/

/-- What a run carries does not lie before its start. -/
theorem Obeys.repliesAt (steady : p.Obeys forward) (s : State) :
    p.RepliesAt (Reply.CarriesOnly (s.pos ≤ ·)) s := by
  intro j
  have ahead := steady s j
  cases ran : (p.run s j).1.shape with
  | matched x pos ghost =>
    rw [ran] at ahead
    exact ahead.2
  | failed pos error =>
    rw [ran] at ahead
    exact Reply.carriesOnly_failed ahead.2
  | fault cause => exact Reply.carriesOnly_fault

theorem MissesAt.repliesAt {P : Nat → Prop} (misses : p.MissesAt s) (here : P s.pos) :
    p.RepliesAt (Reply.CarriesOnly P) s := by
  obtain ⟨error, there, fails⟩ := misses
  intro j
  rw [fails j]
  exact Reply.carriesOnly_failed (there ▸ here)

/-! ### Compositions -/

namespace TidyAt

theorem map (tidy : p.TidyAt s) (f : α → β) : (p.map f).TidyAt s := by
  intro y pos ghost gives
  obtain ⟨x, _, inner⟩ := gives_map gives
  exact tidy x pos ghost inner

theorem marking (tidy : p.TidyAt s) (tag : Text) : (Parser.marking tag p).TidyAt s := by
  rintro x pos ghost ⟨j, k, ran⟩
  exact tidy x pos ghost ⟨_, k, ran⟩

theorem concluded (tidy : p.TidyAt s) (label : Text) : (Parser.concluded label p).TidyAt s := by
  rintro x pos ghost ⟨j, k, ran⟩
  have same : (p.run s j).1 = .matched x pos ghost := congrArg Prod.fst ran
  exact tidy x pos ghost ⟨j, _, Prod.ext same rfl⟩

theorem traced (tidy : p.TidyAt s) (label : Text) : (Parser.traced label p).TidyAt s := by
  rintro x pos ghost ⟨j, k, ran⟩
  let opened := j.record (.entered label (glimpse s) (hasMore s) s.pos)
  have same : (p.run s opened).1 = .matched x pos ghost := congrArg Prod.fst ran
  exact tidy x pos ghost ⟨opened, _, Prod.ext same rfl⟩

theorem passing (tidy : p.TidyAt s) (steady : p.Obeys forward) (passed : List Text) :
    (Parser.passing passed p).TidyAt s := by
  intro x pos ghost gives
  obtain ⟨next, rfl, inner⟩ := gives_after gives
  have reached := Yields.precedes steady ⟨next, inner⟩
  refine Failure.forall_pos_join (P := (· ≤ pos)) ?_ (tidy x pos next inner)
  rintro e ⟨⟩
  exact reached.pos_le

theorem bind {f : α → Parser β} (first : p.TidyAt s) (steady : ∀ x, (f x).Obeys forward)
    (rest : ∀ x mid, p.Yields s x mid → (f x).TidyAt (s.goto mid)) : (p.bind f).TidyAt s := by
  intro y pos ghost gives
  obtain ⟨x, mid, swallowed, next, opening, inner, rfl⟩ := gives_bind gives
  have reached := Yields.precedes (steady x) ⟨next, inner⟩
  refine Failure.forall_pos_join (P := (· ≤ pos)) (fun e carried => ?_) ?_
  · exact Nat.le_trans (first x mid swallowed opening e carried) reached.pos_le
  · exact rest x mid ⟨swallowed, opening⟩ y pos next inner

theorem left {q : Parser β} (first : p.TidyAt s) (steady : q.Obeys forward)
    (second : ∀ t, q.TidyAt t) : (p.left q).TidyAt s :=
  first.bind (fun _ => obeys_map steady _) fun _ _ _ => (second _).map _

theorem right {q : Parser β} (first : p.TidyAt s) (steady : q.Obeys forward)
    (second : ∀ x mid, p.Yields s x mid → q.TidyAt (s.goto mid)) : (p.right q).TidyAt s :=
  first.bind (fun _ => steady) second

/-- A choice swallows the failures of earlier alternatives.  They must not lie ahead, unless no later
one matches. -/
theorem oneOf_cons {ps : List (Parser α)} (head : p.TidyAt s) (tail : (Parser.oneOf ps).TidyAt s)
    (steady : ∀ p ∈ ps, p.Obeys forward)
    (given : p.RepliesAt (Reply.CarriesOnly (· = s.pos)) s ∨ ∀ q ∈ ps, q.MissesAt s) :
    (Parser.oneOf (p :: ps)).TidyAt s := by
  intro x pos ghost gives
  rw [run_oneOf] at gives
  obtain ⟨y, mid, swallowed, first, rest⟩ | ⟨mid, error, first, rest⟩ := gives_resume gives
  · cases gives_reply rest
    exact head x pos ghost first
  · cases ps with
    | nil => cases gives_reply (r := .failed s.pos error) rest
    | cons q ps =>
      rw [tryRest_cons] at rest
      obtain ⟨next, rfl, inner⟩ := gives_after rest
      refine Failure.forall_pos_join (P := (· ≤ pos)) ?_ (tail x pos next inner)
      obtain inPlace | others := given
      · rintro e ⟨⟩
        have here : error.pos = s.pos := inPlace.gives first error rfl
        obtain ⟨q, member, yields⟩ := yields_oneOf ⟨next, inner⟩
        exact Nat.le_trans (Nat.le_of_eq here) (yields.precedes (steady q member)).pos_le
      · -- No later alternative matches.
        obtain ⟨q, member, _, j, k, ran⟩ := yields_oneOf ⟨next, inner⟩
        obtain ⟨_, _, fails⟩ := others q member
        cases (congrArg Prod.fst ran).symm.trans (fails j)

theorem orElse (first : p.TidyAt s) (second : q.TidyAt s) (steady : q.Obeys forward)
    (given : p.RepliesAt (Reply.CarriesOnly (· = s.pos)) s ∨ q.MissesAt s) :
    (p.orElse q).TidyAt s := by
  intro x pos ghost gives
  rw [run_orElse] at gives
  obtain ⟨y, mid, swallowed, opening, rest⟩ | ⟨mid, error, failing, rest⟩ := gives_resume gives
  · cases gives_reply rest
    exact first x pos ghost opening
  · obtain ⟨next, rfl, inner⟩ := gives_after rest
    refine Failure.forall_pos_join (P := (· ≤ pos)) ?_ (second x pos next inner)
    obtain inPlace | misses := given
    · rintro e ⟨⟩
      have here : error.pos = s.pos := inPlace.gives failing error rfl
      exact Nat.le_trans (Nat.le_of_eq here) (Yields.precedes steady ⟨next, inner⟩).pos_le
    · obtain ⟨j, k, ran⟩ := inner
      obtain ⟨_, _, fails⟩ := misses
      cases (congrArg Prod.fst ran).symm.trans (fails j)

end TidyAt

/-! ## Loops -/

theorem gives_rounds_of_zeroOrMore (advances : p.Advances) (scripted : p.Scripted)
    {r : Reply (List α)} (gives : Gives (p.zeroOrMore.run s) r) : Gives ((rounds p p).run s) r := by
  obtain ⟨j, k, ran⟩ := gives
  have agree := AgreeAt.rounds_zeroOrMore (s := s) advances fun t _ => scripted.oblivious (fun _ => True) t
  have same := (agree j).2 (fun _ _ => trivial) j
  rw [ran, List.map_id_fun, Reply.map_id] at same
  exact ⟨j, ((rounds p p).run s j).2, Prod.ext same.symm rfl⟩

/-- What a loop carries lies no further than its end or the failure of the round that ended it. -/
theorem rounds_carried_le {p next : Parser α} {s : State} {xs : List α} {pos bound : Nat}
    {ghost : Option Failure} (advances : p.Advances) (onwards : next.Advances) (tidy : p.TidyAt s)
    (tidy' : ∀ mid, next.TidyAt (s.goto mid))
    (gives : Gives ((rounds p next).run s) (.matched xs pos ghost)) (ends : pos ≤ bound)
    (last : ∀ r ∈ [p, next], ∀ start e, Gives (r.run (s.goto pos)) (.failed start e) →
      e.pos ≤ bound) :
    s.pos ≤ pos ∧ ∀ e ∈ ghost, e.pos ≤ bound := by
  rw [run_rounds] at gives
  obtain ⟨x, mid, swallowed, first, rest⟩ | ⟨mid, error, ended, rest⟩ := gives_resume gives
  · have opening : Gives (p.run s) (.matched x mid swallowed) := by
      obtain ⟨j, k, ran⟩ := first
      exact ⟨_, k, ran⟩
    have further := advances s x mid ⟨swallowed, opening⟩
    rw [if_pos further] at rest
    obtain ⟨more, rfl, mapped⟩ := gives_after rest
    obtain ⟨ys, rfl, inner⟩ := gives_map mapped
    -- The induction is on what is left of the buffer, as in the loop itself.
    obtain ⟨reached, others⟩ := rounds_carried_le onwards onwards (tidy' mid) tidy' inner ends
      fun r member => by
        obtain rfl : r = next := by simpa using member
        exact last r (List.mem_cons_of_mem _ List.mem_cons_self)
    refine ⟨Nat.le_trans (Nat.le_of_lt further.1) reached, ?_⟩
    refine Failure.forall_pos_join (P := (· ≤ bound)) (fun e carried => ?_) others
    exact Nat.le_trans (tidy x mid swallowed opening e carried) (Nat.le_trans reached ends)
  · cases gives_reply rest
    obtain ⟨j, k, ran⟩ := ended
    refine ⟨Nat.le_refl _, ?_⟩
    rintro e ⟨⟩
    exact last p List.mem_cons_self mid error ⟨_, k, ran⟩
termination_by s.input.size - s.pos
decreasing_by
  simp only [State.goto]
  omega

/-- A loop and what closes it, if no round fails beyond the end of what would have closed it there. -/
theorem tidyAt_rounds_bind {p next : Parser α} {f : List α → Parser β} (advances : p.Advances)
    (onwards : next.Advances) (tidy : p.TidyAt s) (tidy' : ∀ mid, next.TidyAt (s.goto mid))
    (steady : ∀ xs, (f xs).Obeys forward) (closing : ∀ xs mid, (f xs).TidyAt (s.goto mid))
    (closes : ∀ xs pos y stop, (f xs).Yields (s.goto pos) y stop → ∀ r ∈ [p, next], ∀ start e,
      Gives (r.run (s.goto pos)) (.failed start e) → e.pos ≤ stop) :
    ((rounds p next).bind f).TidyAt s := by
  intro y stop ghost gives
  obtain ⟨xs, pos, swallowed, more, loop, closed, rfl⟩ := gives_bind gives
  have yields : (f xs).Yields (s.goto pos) y stop := ⟨more, closed⟩
  obtain ⟨_, before⟩ := rounds_carried_le advances onwards tidy tidy' loop
    (yields.precedes (steady xs)).pos_le (closes xs pos y stop yields)
  exact Failure.forall_pos_join (P := (· ≤ stop)) before (closing xs pos y stop more closed)

/-- The loop of a repetition has one parser for all its rounds. -/
theorem zeroOrMore_carried_le {xs : List α} {pos bound : Nat} {ghost : Option Failure}
    (advances : p.Advances) (scripted : p.Scripted) (tidy : ∀ mid, p.TidyAt (s.goto mid))
    (gives : Gives (p.zeroOrMore.run s) (.matched xs pos ghost)) (ends : pos ≤ bound)
    (last : ∀ start e, Gives (p.run (s.goto pos)) (.failed start e) → e.pos ≤ bound) :
    ∀ e ∈ ghost, e.pos ≤ bound := by
  have loop := gives_rounds_of_zeroOrMore advances scripted gives
  refine (rounds_carried_le advances advances (tidy s.pos) tidy loop ends fun r member => ?_).2
  obtain rfl : r = p := by simpa using member
  exact last

theorem tidyAt_zeroOrMore_bind {f : List α → Parser β} (advances : p.Advances)
    (scripted : p.Scripted) (tidy : ∀ mid, p.TidyAt (s.goto mid))
    (steady : ∀ xs, (f xs).Obeys forward) (closing : ∀ xs mid, (f xs).TidyAt (s.goto mid))
    (closes : ∀ xs pos y stop, (f xs).Yields (s.goto pos) y stop → ∀ start e,
      Gives (p.run (s.goto pos)) (.failed start e) → e.pos ≤ stop) :
    (p.zeroOrMore.bind f).TidyAt s := by
  intro y stop ghost gives
  obtain ⟨xs, pos, swallowed, more, loop, closed, rfl⟩ := gives_bind gives
  have yields : (f xs).Yields (s.goto pos) y stop := ⟨more, closed⟩
  have before := zeroOrMore_carried_le advances scripted tidy loop
    (yields.precedes (steady xs)).pos_le (closes xs pos y stop yields)
  exact Failure.forall_pos_join (P := (· ≤ stop)) before (closing xs pos y stop more closed)

namespace FailsInPlace

theorem tidyAt (inPlace : p.FailsInPlace) (steady : p.Obeys forward) (s : State) : p.TidyAt s :=
  tidyAt_of_inPlace (inPlace s) steady

/-- Rounds that fail in place are followed by nothing that they have looked at. -/
theorem tidyAt_zeroOrMore (inPlace : p.FailsInPlace) (advances : p.Advances)
    (scripted : p.Scripted) (steady : p.Obeys forward) (s : State) : p.zeroOrMore.TidyAt s := by
  intro xs pos ghost gives
  refine zeroOrMore_carried_le advances scripted (fun mid => inPlace.tidyAt steady _) gives
    (Nat.le_refl pos) fun start e failed => Nat.le_of_eq ?_
  exact (inPlace (s.goto pos)).gives failed e rfl

end FailsInPlace

theorem TidyAt.count (tidy : ∀ s, p.TidyAt s) (steady : p.Obeys forward) (n : Nat) (s : State) :
    (Parser.count n p).TidyAt s := by
  induction n generalizing s with
  | zero => exact tidyAt_pure _ _
  | succ n ih =>
    refine (tidy s).bind (fun _ => ?_) fun _ _ _ => (ih _).map _
    exact obeys_map (obeys_count forward_compositional steady n) _

end Rewind.Parser
