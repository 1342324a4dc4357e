import Rewind.Proofs.Parser.Yields

/-! # What a run may reply

Two things are asked of the replies of a run: which faults it may end with, and at which offsets the
failures may lie that it carries.  Both pass from the parts of a composition to the whole, because
combinators hand faults on as they are and merge failures, and of two failures that are merged the
result has the offset of one.

`p.RepliesAt Q s` says that every reply of `p` at a cursor fulfils `Q`.  A part that follows another is
asked only where a match of the first may have left the cursor: what has been read by then may be the
reason why `Q` holds.  Of the combinators only a loop whose rounds have to advance has a fault of its
own, and it has none if they do. -/

namespace Rewind

/-! ## Conditions on replies -/

namespace Reply

class Closed (Q : Reply Unit → Prop) : Prop where
  /-- A part matches and carries nothing. -/
  idle : ∀ pos, Q (.matched () pos none)
  /-- A part matches, and another one follows. -/
  sequence : ∀ start {pos ghost r}, Q (.matched () pos ghost) → Q r → Q (r.after start ghost)
  /-- A part fails, and another one is tried in its place. -/
  alternative : ∀ start {pos error r}, Q (.failed pos error) → Q r → Q (r.after start (some error))

def FaultsOnly (why : Fault → Prop) (r : Reply Unit) : Prop := ∀ cause, r = .fault cause → why cause

/-- The failure that the reply carries, if any, lies at an offset that `P` admits. -/
def CarriesOnly (P : Nat → Prop) (r : Reply Unit) : Prop := ∀ e ∈ r.carried, P e.pos

theorem fault_of_after {start : Nat} {ghost : Option Failure} {r : Reply Unit} {cause : Fault}
    (faulty : r.after start ghost = .fault cause) : r = .fault cause := by
  cases r with
  | fault other => exact faulty
  | _ => nomatch faulty

/-- The result of a run is an error only if its reply is a fault. -/
theorem result_eq_error_iff {α : Type} {r : Reply α} {cause : Fault} :
    r.result = .error cause ↔ r = .fault cause := by
  cases r <;> simp [result]

theorem mem_join_of_carried_after {start : Nat} {ghost : Option Failure} {r : Reply Unit} {e : Failure}
    (carried : e ∈ (r.after start ghost).carried) : e ∈ Failure.join ghost r.carried := by
  cases r with
  | matched value pos next => exact carried
  | failed pos error =>
    rw [Reply.carried, ← Failure.some_cover]
    exact carried
  | fault cause => nomatch carried

theorem faultsOnly_matched {why : Fault → Prop} {pos : Nat} {ghost : Option Failure} :
    FaultsOnly why (.matched () pos ghost) := nofun

theorem faultsOnly_failed {why : Fault → Prop} {pos : Nat} {error : Failure} :
    FaultsOnly why (.failed pos error) := nofun

theorem carriesOnly_none {P : Nat → Prop} {pos : Nat} : CarriesOnly P (.matched () pos none) := nofun

theorem carriesOnly_fault {P : Nat → Prop} {cause : Fault} : CarriesOnly P (.fault cause) := nofun

theorem carriesOnly_failed {P : Nat → Prop} {pos : Nat} {error : Failure} (only : P error.pos) :
    CarriesOnly P (.failed pos error) := by
  rintro e ⟨⟩
  exact only

instance (why : Fault → Prop) : Closed (FaultsOnly why) where
  idle _ := nofun
  sequence _ _ _ _ _ rest cause faulty := rest cause (fault_of_after faulty)
  alternative _ _ _ _ _ rest cause faulty := rest cause (fault_of_after faulty)

instance (P : Nat → Prop) : Closed (CarriesOnly P) where
  idle _ := nofun
  sequence _ _ _ _ first rest e carried :=
    Failure.forall_pos_join first rest e (mem_join_of_carried_after carried)
  alternative _ _ _ _ first rest e carried :=
    Failure.forall_pos_join first rest e (mem_join_of_carried_after carried)

end Reply

namespace Run

variable {α β : Type} {Q : Reply Unit → Prop}

def Replies (Q : Reply Unit → Prop) (run : Run α) : Prop := ∀ j, Q (run j).1.shape

namespace Replies

variable {run : Run α}

theorem reply {r : Reply α} (fulfilled : Q r.shape) : Replies Q (Run.reply r) := fun _ => fulfilled

theorem gives (replies : Replies Q run) {r : Reply α} (gives : Gives run r) : Q r.shape := by
  obtain ⟨j, k, ran⟩ := gives
  have fulfilled := replies j
  rwa [ran] at fulfilled

theorem map (replies : Replies Q run) (f : α → β) : Replies Q (Run.map f run) := by
  intro j
  rw [Run.map, Reply.shape_map]
  exact replies j

theorem after [Reply.Closed Q] {pos : Nat} {ghost : Option Failure} (replies : Replies Q run)
    (before : Q (.matched () pos ghost)) (start : Nat) : Replies Q (Run.after start ghost run) := by
  intro j
  rw [Run.after, Reply.shape_after]
  exact Reply.Closed.sequence start before (replies j)

theorem afterFailure [Reply.Closed Q] {pos : Nat} {error : Failure} (replies : Replies Q run)
    (before : Q (.failed pos error)) (start : Nat) :
    Replies Q (Run.after start (some error) run) := by
  intro j
  rw [Run.after, Reply.shape_after]
  exact Reply.Closed.alternative start before (replies j)

/-- A fault of the first part is one of the whole; otherwise the reply is that of the rest. -/
theorem resume {matched : α → Nat → Option Failure → Run β} {failed : Nat → Failure → Run β}
    (first : Replies Q run)
    (afterMatch : ∀ x pos ghost, Gives run (.matched x pos ghost) → Q (.matched () pos ghost) →
      Replies Q (matched x pos ghost))
    (afterFailure : ∀ pos error, Q (.failed pos error) → Replies Q (failed pos error)) :
    Replies Q (Run.resume run matched failed) := by
  intro j
  have fulfilled := first j
  cases opening : run j with
  | mk reply l =>
    rw [opening] at fulfilled
    cases reply with
    | matched x pos ghost =>
      rw [resume_matched opening]
      exact afterMatch x pos ghost ⟨j, l, opening⟩ fulfilled l
    | failed pos error =>
      rw [resume_failed opening]
      exact afterFailure pos error fulfilled l
    | fault cause =>
      rw [resume_fault opening]
      exact fulfilled

end Replies

end Run

/-! ## Replies of parsers -/

namespace Parser

open Run

variable {α β γ : Type} {Q : Reply Unit → Prop} {s : State} {p q : Parser α}

def RepliesAt (p : Parser α) (Q : Reply Unit → Prop) (s : State) : Prop := Replies Q (p.run s)

namespace RepliesAt

theorem mono {Q' : Reply Unit → Prop} (replies : p.RepliesAt Q s) (implies : ∀ r, Q r → Q' r) :
    p.RepliesAt Q' s :=
  fun j => implies _ (replies j)

theorem map (replies : p.RepliesAt Q s) (f : α → β) : (p.map f).RepliesAt Q s :=
  Replies.map replies f

theorem marking (replies : p.RepliesAt Q s) (tag : Text) : (Parser.marking tag p).RepliesAt Q s :=
  fun _ => replies _

theorem concluded (replies : p.RepliesAt Q s) (label : Text) :
    (Parser.concluded label p).RepliesAt Q s :=
  fun j => replies j

theorem traced (replies : p.RepliesAt Q s) (label : Text) : (Parser.traced label p).RepliesAt Q s :=
  fun _ => replies _

variable [Reply.Closed Q]

theorem bind {f : α → Parser β} (first : p.RepliesAt Q s)
    (rest : ∀ x pos, p.Yields s x pos → (f x).RepliesAt Q (s.goto pos)) :
    (p.bind f).RepliesAt Q s := by
  rw [RepliesAt, run_bind]
  refine Replies.resume first ?_ ?_
  · intro x pos ghost gives before
    exact Replies.after (rest x pos ⟨ghost, gives⟩) before _
  · intro pos error failing
    exact .reply failing

theorem right {q : Parser β} (first : p.RepliesAt Q s)
    (second : ∀ x pos, p.Yields s x pos → q.RepliesAt Q (s.goto pos)) : (p.right q).RepliesAt Q s :=
  first.bind second

theorem left {q : Parser β} (first : p.RepliesAt Q s)
    (second : ∀ x pos, p.Yields s x pos → q.RepliesAt Q (s.goto pos)) : (p.left q).RepliesAt Q s :=
  first.bind fun x pos yields => (second x pos yields).map _

theorem orElse (first : p.RepliesAt Q s) (second : q.RepliesAt Q s) :
    (p.orElse q).RepliesAt Q s := by
  rw [RepliesAt, run_orElse]
  refine Replies.resume first ?_ ?_
  · intro x pos ghost _ matched
    exact .reply matched
  · intro pos error failing
    exact Replies.afterFailure second failing _

/-- A failure that is swallowed is still carried. -/
theorem swallowed {pos : Nat} {error : Failure} (failing : Q (.failed pos error)) (start : Nat) :
    Q (.matched () start (some error)) :=
  Reply.Closed.alternative start failing (Reply.Closed.idle start)

theorem optional (replies : p.RepliesAt Q s) : p.optional.RepliesAt Q s := by
  rw [RepliesAt, run_optional]
  refine Replies.resume replies ?_ ?_
  · intro x pos ghost _ matched
    exact .reply matched
  · intro pos error failing
    exact .reply (swallowed failing _)

theorem tryRest {ps : List (Parser α)} (all : ∀ p ∈ ps, p.RepliesAt Q s) {pos : Nat} {error : Failure}
    (failing : Q (.failed pos error)) : Replies Q (Parser.tryRest s ps error) := by
  induction ps generalizing pos error with
  | nil =>
    -- The choice reports its own start.
    exact .reply (r := .failed s.pos error)
      (Reply.Closed.sequence s.pos (Reply.Closed.idle pos) failing)
  | cons p ps ih =>
    rw [run_tryRest]
    refine Replies.resume (all p List.mem_cons_self) ?_ ?_
    · intro x pos ghost _ matched
      exact .reply (Reply.Closed.alternative s.pos failing matched)
    · intro pos next again
      have merged : Q (.failed s.pos (error.merge next)) :=
        Reply.Closed.alternative s.pos failing again
      exact ih (fun p member => all p (List.mem_cons_of_mem _ member)) merged

theorem oneOf {ps : List (Parser α)} (head : p.RepliesAt Q s) (tail : ∀ p ∈ ps, p.RepliesAt Q s) :
    (Parser.oneOf (p :: ps)).RepliesAt Q s := by
  rw [RepliesAt, run_oneOf]
  refine Replies.resume head ?_ ?_
  · intro x pos ghost _ matched
    exact .reply matched
  · intro pos error failing
    exact tryRest tail failing

theorem passing (replies : p.RepliesAt Q s) (passed : List Text)
    (here : Q (.failed s.pos ⟨s.pos, passed, s.upcoming 1⟩)) :
    (Parser.passing passed p).RepliesAt Q s :=
  Replies.afterFailure replies here _

/-! ### Repetitions -/

theorem zeroOrMore_of_rest (first : p.RepliesAt Q s)
    (rest : ∀ x pos, p.Yields s x pos → s.pos < pos ∧ pos ≤ s.input.size →
      p.zeroOrMore.RepliesAt Q (s.goto pos)) :
    p.zeroOrMore.RepliesAt Q s := by
  rw [RepliesAt, run_zeroOrMore]
  refine Replies.resume first ?_ ?_
  · intro x pos ghost gives before
    by_cases further : s.pos < pos ∧ pos ≤ s.input.size
    · simp only [if_pos further]
      exact Replies.after (Replies.map (rest x pos ⟨ghost, gives⟩ further) _) before _
    · simp only [if_neg further]
      -- The match is reported where the round began.
      have last := Reply.Closed.sequence s.pos before (Reply.Closed.idle s.pos)
      rw [Reply.after, Failure.join_none] at last
      exact .reply last
  · intro pos error failing
    exact .reply (swallowed failing _)

theorem zeroOrMore {s : State} (round : ∀ t, s.Precedes t → p.RepliesAt Q t) :
    p.zeroOrMore.RepliesAt Q s := by
  refine zeroOrMore_of_rest (round s (.refl s)) fun x pos yields further => ?_
  have later : s.Precedes (s.goto pos) := .goto (Nat.le_of_lt further.1) further.2
  -- The induction is on what is left of the buffer, as in the loop itself.
  exact zeroOrMore fun t reached => round t (later.trans reached)
termination_by s.input.size - s.pos
decreasing_by
  simp only [State.goto]
  omega

/-- The loop gives up on a round that does not advance, but these do. -/
theorem rounds_of_rest {p next : Parser α} (advances : p.Advances) (first : p.RepliesAt Q s)
    (rest : ∀ x pos, p.Yields s x pos → (Parser.rounds next next).RepliesAt Q (s.goto pos)) :
    (Parser.rounds p next).RepliesAt Q s := by
  rw [RepliesAt, run_rounds]
  refine Replies.resume (first.marking roundMark) ?_ ?_
  · intro x pos ghost gives before
    have yields := yields_marking ⟨ghost, gives⟩
    simp only [if_pos (advances s x pos yields)]
    exact Replies.after (Replies.map (rest x pos yields) _) before _
  · intro pos error failing
    exact .reply (swallowed failing _)

theorem rounds {s : State} {p next : Parser α} (advances : p.Advances) (onwards : next.Advances)
    (first : p.RepliesAt Q s) (further : ∀ t, s.Precedes t → next.RepliesAt Q t) :
    (Parser.rounds p next).RepliesAt Q s := by
  refine rounds_of_rest advances first fun x pos yields => ?_
  have ahead := advances s x pos yields
  have later : s.Precedes (s.goto pos) := .goto (Nat.le_of_lt ahead.1) ahead.2
  exact rounds onwards onwards (further _ later) fun t reached => further t (later.trans reached)
termination_by s.input.size - s.pos
decreasing_by
  simp only [State.goto]
  omega

end RepliesAt

/-! ## Parsers without faults -/

abbrev FaultsOnlyAt (p : Parser α) (why : Fault → Prop) (s : State) : Prop :=
  p.RepliesAt (Reply.FaultsOnly why) s

def Faultless (p : Parser α) : Prop := ∀ why s, s.input.kind = .text → p.FaultsOnlyAt why s

theorem faultless_pure (x : α) : (Parser.pure x).Faultless := fun _ _ _ _ => nofun

theorem faultless_fail (expected : Text) : (fail expected : Parser α).Faultless :=
  fun _ _ _ _ => nofun

theorem faultless_failWith (expected : Text) (actual : Option Buffer) :
    (failWith expected actual : Parser α).Faultless :=
  fun _ _ _ _ => nofun

theorem faultless_takeWhile (accepts : Code → Bool) : (takeWhile accepts).Faultless :=
  fun _ _ _ _ => nofun

theorem faultless_peek : peek.Faultless := fun _ _ _ _ => nofun

theorem faultless_satisfy (c : CharClass) : (satisfy c).Faultless := by
  intro why s kind j
  simp only [satisfy]
  split
  · exact Reply.faultsOnly_failed
  · split
    · exact Reply.faultsOnly_matched
    · exact Reply.faultsOnly_failed

/-- A literal of text meets its like. -/
theorem faultless_literal (t : Text) : (literal (.ofText t)).Faultless := by
  intro why s kind j
  simp only [literal, if_neg (not_not_intro kind : ¬ _ ≠ (Buffer.ofText t).kind)]
  split
  · exact Reply.faultsOnly_matched
  · exact Reply.faultsOnly_failed

theorem faultless_map (faultless : p.Faultless) (f : α → β) : (p.map f).Faultless :=
  fun why s kind => (faultless why s kind).map f

theorem faultless_bind {f : α → Parser β} (first : p.Faultless) (rest : ∀ x, (f x).Faultless) :
    (p.bind f).Faultless :=
  fun why s kind => (first why s kind).bind fun x _ _ => rest x why _ kind

theorem faultless_right {q : Parser β} (first : p.Faultless) (second : q.Faultless) :
    (p.right q).Faultless :=
  faultless_bind first fun _ => second

theorem faultless_left {q : Parser β} (first : p.Faultless) (second : q.Faultless) :
    (p.left q).Faultless :=
  faultless_bind first fun _ => faultless_map second _

theorem faultless_orElse (first : p.Faultless) (second : q.Faultless) : (p.orElse q).Faultless :=
  fun why s kind => (first why s kind).orElse (second why s kind)

theorem faultless_optional (faultless : p.Faultless) : p.optional.Faultless :=
  fun why s kind => (faultless why s kind).optional

theorem faultless_zeroOrMore (faultless : p.Faultless) : p.zeroOrMore.Faultless :=
  fun why _ kind => .zeroOrMore fun t reached => faultless why t (reached.input_eq ▸ kind)

theorem faultless_atLeastOne (faultless : p.Faultless) : p.atLeastOne.Faultless :=
  faultless_bind faultless fun _ => faultless_map (faultless_zeroOrMore faultless) _

theorem faultless_count (faultless : p.Faultless) (n : Nat) : (count n p).Faultless := by
  induction n with
  | zero => exact faultless_pure _
  | succ n ih => exact faultless_bind faultless fun _ => faultless_map ih _

theorem faultless_eof : eof.Faultless := by
  apply faultless_bind faultless_peek
  rintro (_ | c)
  · exact faultless_pure _
  · exact faultless_failWith _ _

end Parser

end Rewind
