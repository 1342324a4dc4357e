import Rewind.Proofs.Parser.Yields

/-! # Repetition, attempt by attempt

A repetition is a loop: it runs its parser, moves on to where the round ended, and stops at a round that
fails or consumes nothing.  `Parser.Iterates` says the same by recursion on the first attempt, without
a bound on the number of rounds, and with the cursors of all attempts.

For a parser that never goes back the two agree: there is exactly one such recursion, it ends, and the
loop has its reply and its journal.  As every round but the last moves the cursor on, the attempts are
made at increasing offsets, and there is at most one more of them than there are units consumed. -/

namespace Rewind

/-! ## Reported attempts -/

def Event.attempt? (name : Text) : Event → Option Nat
  | .attempted other pos => if other = name then some pos else none
  | _ => none

def Journal.attempts (j : Journal) (name : Text) : List Nat :=
  j.events.filterMap (Event.attempt? name)

theorem Journal.attempts_record_attempted (j : Journal) (name : Text) (pos : Nat) :
    (j.record (.attempted name pos)).attempts name = j.attempts name ++ [pos] := by
  simp [attempts, Event.attempt?]

theorem Journal.attempts_record {j : Journal} {name : Text} {e : Event}
    (other : e.attempt? name = none) : (j.record e).attempts name = j.attempts name := by
  simp [attempts, other]

namespace RunProperty

def unwatched (name : Text) : RunProperty := fun _ j _ k => k.attempts name = j.attempts name

theorem unwatched_markblind (name : Text) : (unwatched name).Markblind where
  advance _ _ := rfl
  missed _ _ _ := Journal.attempts_record rfl
  fault _ given := given
  sequence first second := second.trans first
  alternative first second := second.trans first
  restart given := given
  rewind given := given
  marked _ _ given := given.trans (Journal.attempts_record rfl)

end RunProperty

namespace Parser

open Run

variable {α β : Type} {p : Parser α}

/-- No match of `p` ends before its start, nor past the end of the buffer. -/
def Onward (p : Parser α) : Prop := ∀ s x pos, p.Yields s x pos → s.Precedes (s.goto pos)

theorem Obeys.onward (steady : p.Obeys RunProperty.forward) : p.Onward :=
  fun _ _ _ yields => yields.precedes steady

theorem Onward.run {s : State} {j k : Journal} {x : α} {pos : Nat} {ghost : Option Failure}
    (onward : p.Onward) (ran : p.run s j = (.matched x pos ghost, k)) : s.Precedes (s.goto pos) :=
  onward s x pos ⟨ghost, j, k, ran⟩

theorem Onward.lt {s : State} {j k : Journal} {x : α} {pos : Nat} {ghost : Option Failure}
    (onward : p.Onward) (ran : p.run s j = (.matched x pos ghost, k)) (further : pos ≠ s.pos) :
    s.pos < pos :=
  Nat.lt_of_le_of_ne (onward.run ran).pos_le further.symm

/-! ## The recursion -/

/-- Attempts of `p` at the cursors `offsets`, the first at `s` with journal `j` and each other where the
one before it ended, come to the reply `r` and leave the journal `k`. -/
inductive Iterates (p : Parser α) :
    State → Journal → List Nat → Reply (List α) → Journal → Prop where
  /-- The attempt fails, which ends the repetition. -/
  | fails {s j pos error k} (ran : p.run s j = (.failed pos error, k)) :
      Iterates p s j [s.pos] (.matched [] s.pos (some error)) k
  /-- The attempt matches without consuming anything, and is the last. -/
  | stays {s j x ghost k} (ran : p.run s j = (.matched x s.pos ghost, k)) :
      Iterates p s j [s.pos] (.matched [x] s.pos ghost) k
  /-- The attempt consumes something, and the others follow it. -/
  | moves {s j x pos ghost k offsets xs stop next l} (ran : p.run s j = (.matched x pos ghost, k))
      (further : pos ≠ s.pos) (rest : Iterates p (s.goto pos) k offsets (.matched xs stop next) l) :
      Iterates p s j (s.pos :: offsets) (.matched (x :: xs) stop (Failure.join ghost next)) l
  /-- The attempt ends the run. -/
  | faults {s j cause k} (ran : p.run s j = (.fault cause, k)) :
      Iterates p s j [s.pos] (.fault cause) k
  /-- The attempt consumes something, and a later one ends the run. -/
  | breaks {s j x pos ghost k offsets cause l} (ran : p.run s j = (.matched x pos ghost, k))
      (further : pos ≠ s.pos) (rest : Iterates p (s.goto pos) k offsets (.fault cause) l) :
      Iterates p s j (s.pos :: offsets) (.fault cause) l

namespace Iterates

variable {s : State} {j k : Journal} {offsets : List Nat} {r : Reply (List α)}

/-- The loop does what the recursion says. -/
theorem run_eq (onward : p.Onward) (inside : s.pos ≤ s.input.size)
    (iterates : p.Iterates s j offsets r k) : p.zeroOrMore.run s j = (r, k) := by
  induction iterates with
  | fails ran =>
    rw [run_zeroOrMore, resume_failed ran]
    rfl
  | stays ran =>
    rw [run_zeroOrMore, resume_matched ran, if_neg fun further => Nat.lt_irrefl _ further.1]
    rfl
  | moves ran further rest ih =>
    have within := (onward.run ran).inside inside
    rw [run_zeroOrMore, resume_matched ran, if_pos ⟨onward.lt ran further, within⟩]
    simp only [after, Run.map, ih within, Reply.map, Reply.after]
  | faults ran => rw [run_zeroOrMore, resume_fault ran]
  | breaks ran further rest ih =>
    have within := (onward.run ran).inside inside
    rw [run_zeroOrMore, resume_matched ran, if_pos ⟨onward.lt ran further, within⟩]
    simp only [after, Run.map, ih within, Reply.map, Reply.after]

/-- No repetition fails. -/
theorem ne_failed (iterates : p.Iterates s j offsets r k) (pos : Nat) (error : Failure) :
    r ≠ .failed pos error := by
  cases iterates <;> nofun

theorem le_of_mem (onward : p.Onward) (iterates : p.Iterates s j offsets r k) :
    ∀ offset ∈ offsets, s.pos ≤ offset := by
  induction iterates with
  | fails ran | stays ran | faults ran => simp
  | moves ran further rest ih | breaks ran further rest ih =>
    have first := onward.lt ran further
    simp only [List.mem_cons, forall_eq_or_imp]
    exact ⟨Nat.le_refl _, fun offset member => Nat.le_of_lt (Nat.lt_of_lt_of_le first (ih offset member))⟩

theorem increasing (onward : p.Onward) (iterates : p.Iterates s j offsets r k) :
    offsets.Pairwise (· < ·) := by
  induction iterates with
  | fails ran | stays ran | faults ran => simp
  | moves ran further rest ih | breaks ran further rest ih =>
    have first := onward.lt ran further
    exact ih.cons fun offset member => Nat.lt_of_lt_of_le first (rest.le_of_mem onward offset member)

/-- Each attempt but the last consumes at least one unit. -/
theorem length_le (onward : p.Onward) (iterates : p.Iterates s j offsets r k) :
    ∀ xs stop ghost, r = .matched xs stop ghost → s.pos + offsets.length ≤ stop + 1 := by
  induction iterates with
  | fails ran | stays ran =>
    rintro xs stop ghost ⟨⟩
    exact Nat.le_refl _
  | moves ran further rest ih =>
    rintro xs stop ghost ⟨⟩
    have first := onward.lt ran further
    have others := ih _ _ _ rfl
    simp only [State.pos_goto, List.length_cons] at others ⊢
    omega
  | faults ran | breaks ran further rest ih => nofun

/-- A watched parser reports each of the attempts. -/
theorem attempts_eq {name : Text} (unwatched : p.Obeys (.unwatched name))
    (iterates : (p.spied name).Iterates s j offsets r k) :
    k.attempts name = j.attempts name ++ offsets := by
  -- A single attempt reports the cursor that it is made at, and `p` reports nothing.
  have attempt {s j reply k} (ran : (p.spied name).run s j = (reply, k)) :
      k.attempts name = j.attempts name ++ [s.pos] := by
    have quiet := unwatched.run (s := s) (j := j.record (.attempted name s.pos)) ran
    rw [← Journal.attempts_record_attempted]
    exact quiet
  induction iterates with
  | fails ran | stays ran | faults ran => exact attempt ran
  | moves ran further rest ih | breaks ran further rest ih => simp [ih, attempt ran]

end Iterates

/-- The recursion ends: every attempt but the last leaves less of the buffer. -/
theorem exists_iterates (onward : p.Onward) (s : State) (inside : s.pos ≤ s.input.size)
    (j : Journal) : ∃ offsets r k, p.Iterates s j offsets r k := by
  cases ran : p.run s j with
  | mk reply k =>
    cases reply with
    | failed pos error => exact ⟨_, _, _, .fails ran⟩
    | fault cause => exact ⟨_, _, _, .faults ran⟩
    | matched x pos ghost =>
      by_cases further : pos = s.pos
      · subst further
        exact ⟨_, _, _, .stays ran⟩
      · have within : pos ≤ s.input.size := (onward.run ran).inside inside
        have ahead := onward.lt ran further
        obtain ⟨offsets, r, l, rest⟩ := exists_iterates onward (s.goto pos) within k
        cases r with
        | matched xs stop next => exact ⟨_, _, _, .moves ran further rest⟩
        | failed stop error => exact absurd rfl (rest.ne_failed stop error)
        | fault cause => exact ⟨_, _, _, .breaks ran further rest⟩
termination_by s.input.size - s.pos
decreasing_by
  simp only [State.goto]
  omega

theorem run_zeroOrMore_eq_iff (onward : p.Onward) {s : State} (inside : s.pos ≤ s.input.size)
    (j : Journal) (r : Reply (List α)) (k : Journal) :
    p.zeroOrMore.run s j = (r, k) ↔ ∃ offsets, p.Iterates s j offsets r k := by
  constructor
  · intro ran
    obtain ⟨offsets, r', k', iterates⟩ := exists_iterates onward s inside j
    obtain ⟨rfl, rfl⟩ := Prod.mk.inj (ran.symm.trans (iterates.run_eq onward inside))
    exact ⟨offsets, iterates⟩
  · rintro ⟨offsets, iterates⟩
    exact iterates.run_eq onward inside

/-! ## The loop -/

theorem Onward.spied (onward : p.Onward) (name : Text) : (p.spied name).Onward := by
  rintro s x pos ⟨ghost, j, k, ran⟩
  exact onward s x pos ⟨ghost, _, k, ran⟩

/-- A part and then any number of rounds, or nothing at all.  The rounds never fail, so nothing is only
matched if the part fails. -/
theorem run_bind_zeroOrMore_orElse (p next : Parser α) (s : State) :
    ((p.bind fun x => next.zeroOrMore.map (x :: ·)).orElse (Parser.pure [])).run s =
      resume (p.run s)
        (fun x pos ghost => after s.pos ghost (Run.map (x :: ·) (next.zeroOrMore.run (s.goto pos))))
        (fun _ error => reply (.matched [] s.pos (some error))) := by
  funext j
  rw [run_orElse, run_bind]
  cases ran : p.run s j with
  | mk first k =>
    cases first with
    | failed pos error =>
      rw [resume_failed ran, resume_failed (resume_failed ran)]
      rfl
    | fault cause => rw [resume_fault ran, resume_fault (resume_fault ran)]
    | matched x pos ghost =>
      rw [resume_matched ran, resume_eq_proceed, resume_matched ran]
      cases rest : next.zeroOrMore.run (s.goto pos) k with
      | mk others l =>
        cases others with
        | failed stop error =>
          exact absurd (congrArg Prod.fst rest) (repeatFrom_ne_failed next _ _ _ _ stop error)
        | matched xs stop swallowed | fault cause =>
          simp [after, run_map, Run.map, rest, Reply.map, Reply.after, proceed, reply]

/-- A repetition whose first round consumes something is an optional round and then the repetition. -/
theorem run_zeroOrMore_of_consumes (onward : p.Onward) {s : State} (inside : s.pos ≤ s.input.size)
    (consumes : ∀ x, ¬ p.Yields s x s.pos) (j : Journal) :
    p.zeroOrMore.run s j =
      ((p.bind fun x => p.zeroOrMore.map (x :: ·)).orElse (Parser.pure [])).run s j := by
  rw [run_zeroOrMore, run_bind_zeroOrMore_orElse]
  cases ran : p.run s j with
  | mk reply k =>
    cases reply with
    | failed pos error => rw [resume_failed ran, resume_failed ran]
    | fault cause => rw [resume_fault ran, resume_fault ran]
    | matched x pos ghost =>
      have further : pos ≠ s.pos := by
        rintro rfl
        exact consumes x ⟨ghost, j, k, ran⟩
      have within := (onward.run ran).inside inside
      rw [resume_matched ran, resume_matched ran, if_pos ⟨onward.lt ran further, within⟩]

/-- From inside the buffer the loop refines its recursive definition: it has the reply and the journal
of the recursion on the first attempt, and it never fails.  The attempts are made at increasing offsets,
and there is at most one more of them than there are units consumed; this is also what a watched parser
reports.  If the first attempt cannot match without consuming anything, the loop is an optional round
and then the loop again. -/
theorem zeroOrMore_refines_recursion (onward : p.Onward) {s : State}
    (inside : s.pos ≤ s.input.size) (j : Journal) :
    (∀ r k, p.zeroOrMore.run s j = (r, k) ↔ ∃ offsets, p.Iterates s j offsets r k) ∧
    (∀ pos error, (p.zeroOrMore.run s j).1 ≠ .failed pos error) ∧
    (∀ offsets r k, p.Iterates s j offsets r k → offsets.Pairwise (· < ·) ∧
      ∀ xs stop ghost, r = .matched xs stop ghost → s.pos + offsets.length ≤ stop + 1) ∧
    (∀ name, p.Obeys (.unwatched name) → ∃ offsets,
      ((p.spied name).zeroOrMore.run s j).2.attempts name = j.attempts name ++ offsets ∧
      offsets.Pairwise (· < ·) ∧
      ∀ xs stop ghost, ((p.spied name).zeroOrMore.run s j).1 = .matched xs stop ghost →
        s.pos + offsets.length ≤ stop + 1) ∧
    ((∀ x, ¬ p.Yields s x s.pos) → p.zeroOrMore.run s j =
      ((p.bind fun x => p.zeroOrMore.map (x :: ·)).orElse (Parser.pure [])).run s j) := by
  refine ⟨run_zeroOrMore_eq_iff onward inside j, ?_, ?_, ?_, ?_⟩
  · exact repeatFrom_ne_failed p s [] none j
  · intro offsets r k iterates
    exact ⟨iterates.increasing onward, iterates.length_le onward⟩
  · intro name unwatched
    -- The loop of the watched parser is such a loop as well, with the same attempts.
    have watched := onward.spied name
    obtain ⟨offsets, r, k, iterates⟩ := exists_iterates watched s inside j
    rw [iterates.run_eq watched inside]
    exact ⟨offsets, iterates.attempts_eq unwatched, iterates.increasing watched,
      iterates.length_le watched⟩
  · intro consumes
    exact run_zeroOrMore_of_consumes onward inside consumes j

/-- Words and numbers without anything between them: after three rounds there is nothing more to read,
and a fourth matches that. -/
theorem zeroOrMore_refines_recursion_of_words :
    let p := (literal (.ofText (text "ab"))).orElse (takeWhile CharClass.isDigit)
    let s : State := ⟨.ofText (text "-ab12ab;"), 1⟩
    let reply := Reply.matched ([text "ab", text "12", text "ab", []].map Buffer.ofText) 7
      (some ⟨7, [quoted (text "ab")], some (.ofText (text ";"))⟩)
    p.Onward ∧ s.pos ≤ s.input.size ∧ p.Obeys (.unwatched (text "word")) ∧
      (∃ offsets k, p.Iterates s .empty offsets reply k ∧ s.pos + offsets.length ≤ 7 + 1) ∧
      (((p.spied (text "word")).zeroOrMore.run s .empty).2.attempts (text "word")).Pairwise
        (· < ·) := by
  intro p s reply
  have steps := RunProperty.forward_compositional
  have onward : p.Onward :=
    (obeys_orElse steps (obeys_literal steps _) (obeys_takeWhile steps _)).onward
  have quiet := (RunProperty.unwatched_markblind (text "word")).toCompositional
  have unwatched : p.Obeys (.unwatched (text "word")) :=
    obeys_orElse quiet (obeys_literal quiet _) (obeys_takeWhile quiet _)
  have inside : s.pos ≤ s.input.size := by decide
  have ran : (p.zeroOrMore.run s .empty).1 = reply := by decide +kernel
  obtain ⟨recursion, -, attempts, watched, -⟩ := zeroOrMore_refines_recursion onward inside .empty
  obtain ⟨offsets, iterates⟩ := (recursion reply _).1 (Prod.ext ran rfl)
  obtain ⟨reported, same, increasing, -⟩ := watched (text "word") unwatched
  refine ⟨onward, inside, unwatched, ⟨offsets, _, iterates, ?_⟩, same ▸ increasing⟩
  exact (attempts offsets _ _ iterates).2 _ _ _ rfl

end Parser

end Rewind
