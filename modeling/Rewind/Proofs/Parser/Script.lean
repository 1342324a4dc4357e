import Rewind.Proofs.Parser.Run

/-! # Scripts

A run of a parser without lazy nodes only ever adds to the journal and looks at nothing in it.  What it
does can therefore be written down without the journal, as a script of the events that it records.  From
each cursor such a parser has one reply and one script. -/

namespace Rewind

def Event.node? : Event → Option Node
  | .built node => some node
  | .reached node _ => some node
  | _ => none

/-- What a run does to the journal, from first to last.  It has nothing to do with lazy nodes. -/
abbrev Script := List { e : Event // e.node? = none }

namespace Journal

variable {j : Journal}

def perform (j : Journal) (script : Script) : Journal := script.foldl (fun j e => j.record e.1) j

theorem perform_append (j : Journal) (first second : Script) :
    j.perform (first ++ second) = (j.perform first).perform second :=
  List.foldl_append

theorem perform_eq (j : Journal) (script : Script) :
    j.perform script = { j with past := (script.map Subtype.val).reverse ++ j.past } := by
  induction script generalizing j with
  | nil => rfl
  | cons e script ih =>
    rw [perform, List.foldl_cons, ← perform, ih]
    simp [record]

/-- Of a script that was performed, only the beginning is kept. -/
theorem upTo_perform (j : Journal) (script : Script) (kept : Nat) :
    (j.perform script).upTo (j.past.length + kept) = j.perform (script.take kept) := by
  have past := past_upTo (j := j) (k := j.perform script) (by rw [perform_eq]) kept
  rw [List.length_reverse, ← List.reverse_take, ← List.map_take] at past
  rw [perform_eq j (script.take kept), ← past, perform_eq]
  rfl

end Journal

/-! ## Runs that follow a script -/

namespace Run

variable {α β : Type} {run : Run α}

/-- Whatever the journal, the reply and the script are the same. -/
def Scripted (run : Run α) : Prop := ∃ r script, ∀ j, run j = (r, j.perform script)

namespace Scripted

theorem reply (r : Reply α) : Scripted (Run.reply r) := ⟨r, [], fun _ => rfl⟩

theorem map (scripted : Scripted run) (f : α → β) : Scripted (Run.map f run) := by
  obtain ⟨r, script, same⟩ := scripted
  exact ⟨r.map f, script, fun j => by rw [Run.map, same]⟩

theorem after (scripted : Scripted run) (start : Nat) (ghost : Option Failure) :
    Scripted (Run.after start ghost run) := by
  obtain ⟨r, script, same⟩ := scripted
  exact ⟨r.after start ghost, script, fun j => by rw [Run.after, same]⟩

/-- Before the run, something else is recorded. -/
theorem recording (scripted : Scripted run) (e : Event) (other : e.node? = none) :
    Scripted fun j => run (j.record e) := by
  obtain ⟨r, script, same⟩ := scripted
  exact ⟨r, ⟨e, other⟩ :: script, fun j => same _⟩

/-- Behind the run, its end is reported. -/
theorem concluding (scripted : Scripted run) {closing : Ending → Event}
    (other : ∀ ending, (closing ending).node? = none) (start : Nat) :
    Scripted fun j => ((run j).1, (run j).2.conclude closing ((run j).1.ending? start)) := by
  obtain ⟨r, script, same⟩ := scripted
  cases ends : r.ending? start with
  | none => exact ⟨r, script, fun j => by simp only [same, ends, Journal.conclude]⟩
  | some ending =>
    refine ⟨r, script ++ [⟨closing ending, other ending⟩], fun j => ?_⟩
    simp only [same, ends, Journal.conclude, Journal.perform_append]
    rfl

theorem resume {matched : α → Nat → Option Failure → Run β} {failed : Nat → Failure → Run β}
    (first : Scripted run) (afterMatch : ∀ x pos ghost, Scripted (matched x pos ghost))
    (afterFailure : ∀ pos error, Scripted (failed pos error)) :
    Scripted (Run.resume run matched failed) := by
  obtain ⟨r, script, same⟩ := first
  cases r with
  | matched x pos ghost =>
    obtain ⟨r, more, same'⟩ := afterMatch x pos ghost
    exact ⟨r, script ++ more, fun j => by rw [resume_matched (same j), same', Journal.perform_append]⟩
  | failed pos error =>
    obtain ⟨r, more, same'⟩ := afterFailure pos error
    exact ⟨r, script ++ more, fun j => by rw [resume_failed (same j), same', Journal.perform_append]⟩
  | fault cause => exact ⟨.fault cause, script, fun j => resume_fault (same j)⟩

end Scripted

end Run

namespace Parser

open Run

variable {α β : Type} {p q : Parser α} {p' : Parser β}

def Scripted (p : Parser α) : Prop := ∀ s, Run.Scripted (p.run s)

/-! ## Primitives -/

theorem scripted_miss (s : State) (expected : Text) (actual : Option Buffer) :
    Run.Scripted (miss s expected actual : Run α) :=
  ⟨_, [⟨.missed _, rfl⟩], fun _ => rfl⟩

theorem scripted_pure (x : α) : (Parser.pure x).Scripted := fun _ => .reply _

theorem scripted_raise (cause : Fault) : (raise cause : Parser α).Scripted := fun _ => .reply _

theorem scripted_fail (expected : Text) : (fail expected : Parser α).Scripted :=
  fun _ => scripted_miss _ _ _

theorem scripted_failWith (expected : Text) (actual : Option Buffer) :
    (failWith expected actual : Parser α).Scripted :=
  fun _ => scripted_miss _ _ _

theorem scripted_take (n : Int) : (take n).Scripted := by
  intro s
  by_cases fits : 0 ≤ n ∧ s.pos + n ≤ s.input.size
  · simp only [take, if_pos fits]
    exact .reply _
  · simp only [take, if_neg fits]
    exact scripted_miss _ _ _

theorem scripted_literal (expected : Buffer) : (literal expected).Scripted := by
  intro s
  by_cases kinds : s.input.kind ≠ expected.kind
  · simp only [literal, if_pos kinds]
    exact .reply _
  · by_cases found : s.input.startsWith s.pos expected.codes
    · simp only [literal, if_neg kinds, if_pos found]
      exact .reply _
    · simp only [literal, if_neg kinds, if_neg found]
      exact scripted_miss _ _ _

theorem scripted_takeWhile (accepts : Code → Bool) : (takeWhile accepts).Scripted :=
  fun _ => .reply _

theorem scripted_satisfy (c : CharClass) : (satisfy c).Scripted := by
  intro s
  cases seen : s.input.units[s.pos]? with
  | none =>
    simp only [satisfy, seen]
    exact scripted_miss _ _ _
  | some x =>
    by_cases accepted : c.accepts x
    · simp only [satisfy, seen, if_pos accepted]
      exact .reply _
    · simp only [satisfy, seen, if_neg accepted]
      exact scripted_miss _ _ _

theorem scripted_peek : peek.Scripted := fun _ => .reply _

/-! ## Compositions -/

theorem scripted_map (scripted : p.Scripted) (f : α → β) : (p.map f).Scripted :=
  fun s => (scripted s).map f

theorem scripted_bind {f : α → Parser β} (first : p.Scripted) (next : ∀ x, (f x).Scripted) :
    (p.bind f).Scripted := by
  intro s
  rw [run_bind]
  exact (first s).resume (fun x pos ghost => (next x _).after _ _) fun _ _ => .reply _

theorem scripted_eof : eof.Scripted := by
  apply scripted_bind scripted_peek
  rintro (_ | c)
  · exact scripted_pure _
  · exact scripted_failWith _ _

theorem scripted_right (first : p.Scripted) (second : p'.Scripted) : (p.right p').Scripted :=
  scripted_bind first fun _ => second

theorem scripted_left (first : p.Scripted) (second : p'.Scripted) : (p.left p').Scripted :=
  scripted_bind first fun _ => scripted_map second _

theorem scripted_orElse (first : p.Scripted) (second : q.Scripted) : (p.orElse q).Scripted := by
  intro s
  rw [run_orElse]
  exact (first s).resume (fun _ _ _ => .reply _) fun _ _ => (second s).after _ _

theorem scripted_optional (scripted : p.Scripted) : p.optional.Scripted := by
  intro s
  rw [run_optional]
  exact (scripted s).resume (fun _ _ _ => .reply _) fun _ _ => .reply _

theorem scripted_tryRest {ps : List (Parser α)} (all : ∀ p ∈ ps, p.Scripted) (s : State)
    (error : Failure) : Run.Scripted (tryRest s ps error) := by
  induction ps generalizing error with
  | nil => exact .reply (.failed s.pos error)
  | cons p ps ih =>
    rw [run_tryRest]
    have rest := ih fun p member => all p (List.mem_cons_of_mem _ member)
    exact (all p List.mem_cons_self s).resume (fun _ _ _ => .reply _) fun _ _ => rest _

theorem scripted_oneOf {ps : List (Parser α)} (all : ∀ p ∈ ps, p.Scripted) :
    (oneOf ps).Scripted := by
  cases ps with
  | nil => exact scripted_fail _
  | cons p ps =>
    intro s
    rw [run_oneOf]
    have rest := scripted_tryRest fun p member => all p (List.mem_cons_of_mem _ member)
    exact (all p List.mem_cons_self s).resume (fun _ _ _ => .reply _) fun _ _ => rest s _

theorem scripted_passing (scripted : p.Scripted) (passed : List Text) :
    (passing passed p).Scripted :=
  fun s => (scripted s).after _ _

/-! ## Repetitions

By induction on what is left of the buffer: behind a round that moved the cursor there is less. -/

theorem scripted_zeroOrMore (scripted : p.Scripted) : p.zeroOrMore.Scripted := by
  intro s
  rw [run_zeroOrMore]
  refine (scripted s).resume (fun x pos ghost => ?_) fun _ _ => .reply _
  by_cases further : s.pos < pos ∧ pos ≤ s.input.size
  · have others := scripted_zeroOrMore scripted (s.goto pos)
    rw [if_pos further]
    exact (others.map _).after _ _
  · rw [if_neg further]
    exact .reply _
termination_by s => s.input.size - s.pos
decreasing_by
  simp only [State.goto]
  omega

theorem scripted_atLeastOne (scripted : p.Scripted) : p.atLeastOne.Scripted :=
  scripted_bind scripted fun _ => scripted_map (scripted_zeroOrMore scripted) _

theorem scripted_count (scripted : p.Scripted) (n : Nat) : (count n p).Scripted := by
  induction n with
  | zero => exact scripted_pure _
  | succ n ih => exact scripted_bind scripted fun _ => scripted_map ih _

/-! ## What is added to the journal -/

theorem scripted_marking (scripted : p.Scripted) (tag : Text) : (marking tag p).Scripted :=
  fun s => (scripted s).recording (.marked tag s.pos) rfl

theorem scripted_rounds {first next : Parser α} (opening : first.Scripted)
    (further : next.Scripted) : (rounds first next).Scripted := by
  intro s
  rw [run_rounds]
  refine (scripted_marking opening roundMark s).resume (fun x pos ghost => ?_) fun _ _ => .reply _
  by_cases ahead : s.pos < pos ∧ pos ≤ s.input.size
  · have others := scripted_rounds further further (s.goto pos)
    rw [if_pos ahead]
    exact (others.map _).after _ _
  · rw [if_neg ahead]
    exact .reply _
termination_by s => s.input.size - s.pos
decreasing_by
  simp only [State.goto]
  omega

theorem scripted_trace (label : Text) : (trace label).Scripted :=
  fun s => (Run.Scripted.reply _).recording (.glimpsed label (glimpse s) (hasMore s) s.pos) rfl

theorem scripted_traced (scripted : p.Scripted) (label : Text) : (traced label p).Scripted :=
  fun s => ((scripted s).recording (.entered label (glimpse s) (hasMore s) s.pos) rfl).concluding
    (fun _ => rfl) s.pos

theorem scripted_concluded (scripted : p.Scripted) (label : Text) : (concluded label p).Scripted :=
  fun s => (scripted s).concluding (fun _ => rfl) s.pos

end Parser

end Rewind
