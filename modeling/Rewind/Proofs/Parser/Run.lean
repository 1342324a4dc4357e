import Rewind.Parser.Repetition
import Rewind.Parser.Tracing

/-! # Runs in parts

From a given cursor on, what is left of a run is a function of the journal.  Every combinator runs a
first part and then goes on in one of two ways, after a match or after a failure; a fault ends the
run.  `Run.resume` is this step, and the equations below write the combinators with it, so that a
statement about runs is one about `Run.resume` and about what goes on after it. -/

namespace Rewind

/-- The rest of a run: for every journal so far, the reply and the journal after it. -/
abbrev Run (α : Type) := Journal → Reply α × Journal

namespace Run

variable {α β γ : Type}

def reply (r : Reply α) : Run α := fun j => (r, j)

def map (f : α → β) (run : Run α) : Run β := fun j => ((run j).1.map f, (run j).2)

def after (start : Nat) (ghost : Option Failure) (run : Run α) : Run α :=
  fun j => ((run j).1.after start ghost, (run j).2)

/-- Goes on after a first part, in one way if it matched and in another if it failed. -/
def resume (first : Run α) (matched : α → Nat → Option Failure → Run β)
    (failed : Nat → Failure → Run β) : Run β := fun j =>
  match first j with
  | (.matched x pos ghost, j) => matched x pos ghost j
  | (.failed pos error, j) => failed pos error j
  | (.fault cause, j) => (.fault cause, j)

def proceed (r : Reply α) (matched : α → Nat → Option Failure → Run β)
    (failed : Nat → Failure → Run β) : Run β :=
  match r with
  | .matched x pos ghost => matched x pos ghost
  | .failed pos error => failed pos error
  | .fault cause => reply (.fault cause)

section

variable {first : Run α} {matched : α → Nat → Option Failure → Run β}
  {failed : Nat → Failure → Run β} {j k : Journal}

theorem resume_eq_proceed (j : Journal) :
    resume first matched failed j = proceed (first j).1 matched failed (first j).2 := by
  rw [resume]
  rcases first j with ⟨_ | _ | _, k⟩ <;> rfl

theorem resume_matched {x : α} {pos : Nat} {ghost : Option Failure}
    (ran : first j = (.matched x pos ghost, k)) :
    resume first matched failed j = matched x pos ghost k := by
  simp only [resume, ran]

theorem resume_failed {pos : Nat} {error : Failure} (ran : first j = (.failed pos error, k)) :
    resume first matched failed j = failed pos error k := by
  simp only [resume, ran]

theorem resume_fault {cause : Fault} (ran : first j = (.fault cause, k)) :
    resume first matched failed j = (.fault cause, k) := by
  simp only [resume, ran]

end

end Run

namespace Parser

open Run

variable {α β : Type}

/-! ## Compositions -/

theorem run_map (p : Parser α) (f : α → β) (s : State) : (p.map f).run s = Run.map f (p.run s) := rfl

theorem run_bind (p : Parser α) (f : α → Parser β) (s : State) :
    (p.bind f).run s = resume (p.run s)
      (fun x pos ghost => after s.pos ghost ((f x).run (s.goto pos)))
      (fun pos error => reply (.failed pos error)) := rfl

/-- A match of a sequence comes from a match of each of its parts. -/
theorem bind_run_matched {p : Parser α} {f : α → Parser β} {s : State} {j k : Journal} {y : β}
    {pos : Nat} {ghost : Option Failure} (ran : (p.bind f).run s j = (.matched y pos ghost, k)) :
    ∃ x mid before l next, p.run s j = (.matched x mid before, l) ∧
      (f x).run (s.goto mid) l = (.matched y pos next, k) ∧ ghost = Failure.join before next := by
  rw [run_bind] at ran
  -- Of all that the two parts may reply, only two matches are left.
  cases first : p.run s j with
  | mk reply l =>
    cases reply with
    | matched x mid before =>
      rw [resume_matched first] at ran
      cases rest : (f x).run (s.goto mid) l with
      | mk reply m =>
        cases reply with
        | matched y' stop next =>
          simp only [after, rest, Reply.after, Prod.mk.injEq, Reply.matched.injEq] at ran
          obtain ⟨⟨rfl, rfl, rfl⟩, rfl⟩ := ran
          exact ⟨x, mid, before, l, next, rfl, rest, rfl⟩
        | failed stop error => simp [after, rest, Reply.after] at ran
        | fault cause => simp [after, rest, Reply.after] at ran
    | failed mid error =>
      rw [resume_failed first] at ran
      cases ran
    | fault cause =>
      rw [resume_fault first] at ran
      cases ran

theorem run_orElse (p q : Parser α) (s : State) :
    (p.orElse q).run s = resume (p.run s)
      (fun x pos ghost => reply (.matched x pos ghost))
      (fun _ error => after s.pos (some error) (q.run s)) := by
  funext j
  simp only [Parser.orElse, resume]
  rcases p.run s j with ⟨_ | _ | _, k⟩ <;> rfl

theorem run_label (p : Parser α) (message : Text) (s : State) :
    (p.label message).run s = resume (p.run s)
      (fun x pos ghost => reply (.matched x pos ghost))
      (fun pos error => reply (if error.pos = s.pos then .failed s.pos ⟨s.pos, [message], error.actual⟩
        else .failed pos error)) := by
  funext j
  simp only [Parser.label, resume]
  cases p.run s j with
  | mk r k =>
    cases r with
    | matched x pos ghost => rfl
    | failed pos error => by_cases here : error.pos = s.pos <;> simp [here, reply]
    | fault cause => rfl

theorem run_optional (p : Parser α) (s : State) :
    p.optional.run s = resume (p.run s)
      (fun x pos ghost => reply (.matched (some x) pos ghost))
      (fun _ error => reply (.matched none s.pos (some error))) := rfl

theorem run_tryRest (s : State) (p : Parser α) (ps : List (Parser α)) (error : Failure) :
    tryRest s (p :: ps) error = resume (p.run s)
      (fun x pos ghost => reply (.matched x pos (Failure.join (some error) ghost)))
      (fun _ next => tryRest s ps (error.merge next)) := by
  funext j
  simp only [tryRest, resume]
  rcases p.run s j with ⟨_ | _ | _, k⟩ <;> rfl

theorem run_oneOf (s : State) (p : Parser α) (ps : List (Parser α)) :
    (oneOf (p :: ps)).run s = resume (p.run s)
      (fun x pos ghost => reply (.matched x pos ghost))
      (fun _ error => tryRest s ps error) := by
  funext j
  simp only [oneOf, resume]
  rcases p.run s j with ⟨_ | _ | _, k⟩ <;> rfl

theorem run_sepBy (separator : Parser β) (p : Parser α) (s : State) :
    (sepBy separator p).run s = resume (p.run s)
      (fun x pos ghost => after s.pos ghost
        (Run.map (x :: ·) ((zeroOrMore (separator.right p)).run (s.goto pos))))
      (fun _ error => reply (.matched [] s.pos (some error))) := rfl

/-! ## Laws of sequencing -/

section

variable {γ : Type} (p : Parser α)

theorem map_map (f : α → β) (g : β → γ) : (p.map f).map g = p.map fun x => g (f x) := by
  ext s j : 3
  refine Prod.ext ?_ rfl
  show ((p.run s j).1.map f).map g = (p.run s j).1.map fun x => g (f x)
  cases (p.run s j).1 <;> rfl

theorem map_bind (f : α → Parser β) (g : β → γ) :
    (p.bind f).map g = p.bind fun x => (f x).map g := by
  ext s j : 3
  rw [run_map, Run.map, run_bind, run_bind]
  cases ran : p.run s j with
  | mk reply k =>
    cases reply with
    | matched x pos ghost =>
      rw [resume_matched ran, resume_matched ran]
      exact Prod.ext (Reply.map_after _ _ _ _) rfl
    | failed pos error =>
      rw [resume_failed ran, resume_failed ran]
      rfl
    | fault cause =>
      rw [resume_fault ran, resume_fault ran]
      rfl

theorem bind_map (f : α → β) (g : β → Parser γ) : (p.map f).bind g = p.bind fun x => g (f x) := by
  ext s j : 3
  rw [run_bind, run_bind]
  cases ran : p.run s j with
  | mk reply k =>
    cases reply with
    | matched x pos ghost =>
      have mapped : (p.map f).run s j = (.matched (f x) pos ghost, k) := by
        rw [run_map, Run.map, ran]
        rfl
      rw [resume_matched ran, resume_matched mapped]
    | failed pos error =>
      have mapped : (p.map f).run s j = (.failed pos error, k) := by
        rw [run_map, Run.map, ran]
        rfl
      rw [resume_failed ran, resume_failed mapped]
    | fault cause =>
      have mapped : (p.map f).run s j = (.fault cause, k) := by
        rw [run_map, Run.map, ran]
        rfl
      rw [resume_fault ran, resume_fault mapped]

theorem bind_assoc (f : α → Parser β) (g : β → Parser γ) :
    (p.bind f).bind g = p.bind fun x => (f x).bind g := by
  ext s j : 3
  rw [run_bind, run_bind p, resume, resume, run_bind, resume]
  cases p.run s j with
  | mk reply k =>
    cases reply with
    | matched x pos ghost =>
      simp only [after]
      rw [run_bind, resume]
      cases (f x).run (s.goto pos) k with
      | mk reply l =>
        cases reply with
        | matched y mid next => exact Prod.ext (Reply.after_after _ _ _ _ _).symm rfl
        | failed mid error => rfl
        | fault cause => rfl
    | failed pos error => rfl
    | fault cause => rfl

end

/-! ## Repetitions

The loops behind `zeroOrMore` and `rounds` carry the values and the ghost so far.  Seen from outside, a
repetition is one round and then a repetition: the first value stands in front of the others, and the
ghost of the first round is merged in front of theirs.  No repetition fails. -/

theorem repeatFrom_ne_failed (p : Parser α) (s : State) (values : List α) (ghost : Option Failure)
    (j : Journal) (pos : Nat) (error : Failure) :
    (repeatFrom p s values ghost j).1 ≠ .failed pos error := by
  fun_induction repeatFrom p s values ghost j with
  | case1 s values ghost j value stop next k ran further ih => exact ih
  | case2 => nofun
  | case3 => nofun
  | case4 => nofun

/-- What the loop has collected stands in front of what it will collect. -/
theorem repeatFrom_eq (p : Parser α) (s : State) (values : List α) (ghost : Option Failure) :
    repeatFrom p s values ghost =
      after s.pos ghost (Run.map (values.reverse ++ ·) (repeatFrom p s [] none)) := by
  funext j
  -- Both sides begin with the same round, and differ in what the loop behind it starts with.
  rw [repeatFrom, after, Run.map, repeatFrom.eq_def p s []]
  cases p.run s j with
  | mk reply k =>
    cases reply with
    | matched value pos next =>
      by_cases further : s.pos < pos ∧ pos ≤ s.input.size
      · simp only [if_pos further]
        rw [repeatFrom_eq p (s.goto pos) (value :: values), repeatFrom_eq p (s.goto pos) [value]]
        simp only [after, Run.map]
        cases rest : repeatFrom p (s.goto pos) [] none k with
        | mk reply l =>
          cases reply with
          | matched more stop last =>
            simp [Reply.map, Reply.after, Failure.join_assoc]
          | failed stop error =>
            exact absurd (congrArg Prod.fst rest) (repeatFrom_ne_failed p _ _ _ _ stop error)
          | fault cause => rfl
      · simp [if_neg further, Reply.map, Reply.after]
    | failed pos error => simp [Reply.map, Reply.after]
    | fault cause => rfl
termination_by s.input.size - s.pos
decreasing_by
  all_goals
    simp only [State.goto]
    omega

theorem run_zeroOrMore (p : Parser α) (s : State) :
    p.zeroOrMore.run s = resume (p.run s)
      (fun x pos ghost =>
        if s.pos < pos ∧ pos ≤ s.input.size then
          after s.pos ghost (Run.map (x :: ·) (p.zeroOrMore.run (s.goto pos)))
        else reply (.matched [x] s.pos ghost))
      (fun _ error => reply (.matched [] s.pos (some error))) := by
  funext j
  simp only [zeroOrMore, resume]
  rw [repeatFrom]
  cases p.run s j with
  | mk reply k =>
    cases reply with
    | matched value pos ghost =>
      by_cases further : s.pos < pos ∧ pos ≤ s.input.size
      · simp only [if_pos further]
        -- The rest of the loop has the first value in its hands, and is made to give it back.
        rw [repeatFrom_eq, Failure.none_join]
        simp only [after, Run.map]
        cases rest : repeatFrom p (s.goto pos) [] none k with
        | mk reply l =>
          cases reply with
          | matched more stop last => rfl
          | failed stop error =>
            exact absurd (congrArg Prod.fst rest) (repeatFrom_ne_failed p _ _ _ _ stop error)
          | fault cause => rfl
      · simp [if_neg further, reply]
    | failed pos error => simp [reply]
    | fault cause => rfl

theorem roundsFrom_ne_failed (first next : Parser α) (s : State) (values : List α)
    (ghost : Option Failure) (j : Journal) (pos : Nat) (error : Failure) :
    (roundsFrom first next s values ghost j).1 ≠ .failed pos error := by
  fun_induction roundsFrom first next s values ghost j with
  | case1 first s values ghost j value stop swallowed k ran ahead ih => exact ih
  | case2 => nofun
  | case3 => nofun
  | case4 => nofun

theorem roundsFrom_eq (first next : Parser α) (s : State) (values : List α)
    (ghost : Option Failure) :
    roundsFrom first next s values ghost =
      after s.pos ghost (Run.map (values.reverse ++ ·) (roundsFrom first next s [] none)) := by
  funext j
  -- As before, but after the first round the parser of the others takes its place.
  rw [roundsFrom, after, Run.map, roundsFrom.eq_def first next s []]
  cases first.run s (j.record (.marked roundMark s.pos)) with
  | mk reply k =>
    cases reply with
    | matched value pos swallowed =>
      by_cases ahead : s.pos < pos ∧ pos ≤ s.input.size
      · simp only [if_pos ahead]
        rw [roundsFrom_eq next next (s.goto pos) (value :: values),
          roundsFrom_eq next next (s.goto pos) [value]]
        simp only [after, Run.map]
        cases rest : roundsFrom next next (s.goto pos) [] none k with
        | mk reply l =>
          cases reply with
          | matched more stop last =>
            simp [Reply.map, Reply.after, Failure.join_assoc]
          | failed stop error =>
            exact absurd (congrArg Prod.fst rest) (roundsFrom_ne_failed next next _ _ _ _ stop error)
          | fault cause => rfl
      · simp only [if_neg ahead]
        rfl
    | failed pos error => simp [Reply.map, Reply.after]
    | fault cause => rfl
termination_by s.input.size - s.pos
decreasing_by
  all_goals
    simp only [State.goto]
    omega

/-- A round leaves a mark, and has to move the cursor. -/
theorem run_rounds (first next : Parser α) (s : State) :
    (rounds first next).run s = resume ((marking roundMark first).run s)
      (fun x pos ghost =>
        if s.pos < pos ∧ pos ≤ s.input.size then
          after s.pos ghost (Run.map (x :: ·) ((rounds next next).run (s.goto pos)))
        else reply (.fault .stalled))
      (fun _ error => reply (.matched [] s.pos (some error))) := by
  funext j
  simp only [rounds, resume, marking]
  rw [roundsFrom]
  cases first.run s (j.record (.marked roundMark s.pos)) with
  | mk reply k =>
    cases reply with
    | matched value pos ghost =>
      by_cases ahead : s.pos < pos ∧ pos ≤ s.input.size
      · simp only [if_pos ahead]
        rw [roundsFrom_eq, Failure.none_join]
        simp only [after, Run.map]
        cases rest : roundsFrom next next (s.goto pos) [] none k with
        | mk reply l =>
          cases reply with
          | matched more stop last => rfl
          | failed stop error =>
            exact absurd (congrArg Prod.fst rest) (roundsFrom_ne_failed next next _ _ _ _ stop error)
          | fault cause => rfl
      · simp [if_neg ahead, reply]
    | failed pos error => simp [reply]
    | fault cause => rfl

/-- What follows a loop follows its last round, so loop and rest are unrolled together. -/
theorem run_rounds_bind (first next : Parser α) (f : List α → Parser β) (s : State) :
    ((rounds first next).bind f).run s = resume ((marking roundMark first).run s)
      (fun x pos ghost =>
        if s.pos < pos ∧ pos ≤ s.input.size then
          after s.pos ghost (((rounds next next).bind fun xs => f (x :: xs)).run (s.goto pos))
        else reply (.fault .stalled))
      (fun _ error => after s.pos (some error) ((f []).run s)) := by
  funext j
  rw [run_bind, run_rounds, resume, resume, resume]
  cases (marking roundMark first).run s j with
  | mk round k =>
    cases round with
    | matched x pos ghost =>
      by_cases ahead : s.pos < pos ∧ pos ≤ s.input.size
      · simp only [if_pos ahead, after, Run.map, run_bind, resume]
        cases (rounds next next).run (s.goto pos) k with
        | mk others l =>
          cases others with
          | matched xs stop more => exact Prod.ext (Reply.after_after _ _ _ _ _).symm rfl
          | failed stop error => rfl
          | fault cause => rfl
      · simp only [if_neg ahead, reply]
    | failed pos error => rfl
    | fault cause => rfl

theorem roundsFrom_map (first next : Parser α) (f : α → β) (t : State) (values : List α)
    (ghost : Option Failure) (j : Journal) :
    roundsFrom (first.map f) (next.map f) t (values.map f) ghost j =
      Run.map (List.map f) (roundsFrom first next t values ghost) j := by
  rw [Run.map, roundsFrom, roundsFrom, run_map, Run.map]
  cases first.run t (j.record (.marked roundMark t.pos)) with
  | mk round k =>
    cases round with
    | matched x pos swallowed =>
      by_cases ahead : t.pos < pos ∧ pos ≤ t.input.size
      · have rest := roundsFrom_map next next f (t.goto pos) (x :: values)
          (Failure.join ghost swallowed) k
        simp only [Reply.map, if_pos ahead]
        exact rest
      · simp only [Reply.map, if_neg ahead]
    | failed pos e => simp [Reply.map]
    | fault cause => rfl
termination_by t.input.size - t.pos
decreasing_by
  simp only [State.goto]
  omega

theorem rounds_map (first next : Parser α) (f : α → β) :
    rounds (first.map f) (next.map f) = (rounds first next).map (List.map f) :=
  Parser.ext (funext fun s => funext fun j => roundsFrom_map first next f s [] none j)

end Parser

end Rewind
