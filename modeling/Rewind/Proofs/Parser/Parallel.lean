import Rewind.Proofs.Parser.Script
import Rewind.Proofs.Parser.Yields

/-! # Parsers side by side

Two parsers that keep their journals differently are compared by running them side by side.  If the
journals are related before, then the replies are the same and the journals are related afterwards.  A
fault of the first parser may be allowed to count for nothing; then nothing is said of the second.

Only cursors are looked at that satisfy `D`, which therefore has to hold wherever a first part may leave
the cursor.  Combinators pass all this on from their parts. -/

namespace Rewind

/-- How the journals of two runs are related, where only the first may have to be given up. -/
structure Relation where
  rel : Journal → Journal → Prop
  /-- The faults of the first run that count for nothing. -/
  lost : Fault → Prop
  /-- Whatever has nothing to do with lazy nodes may be recorded by both. -/
  record : ∀ {j k}, rel j k → ∀ e : Event, e.node? = none → rel (j.record e) (k.record e)

namespace Relation

variable {R : Relation} {j k : Journal}

theorem perform (related : R.rel j k) (script : Script) :
    R.rel (j.perform script) (k.perform script) := by
  induction script generalizing j k with
  | nil => exact related
  | cons e script ih => exact ih (R.record related e.1 e.2)

theorem conclude (related : R.rel j k) {closing : Ending → Event}
    (other : ∀ ending, (closing ending).node? = none) (ending : Option Ending) :
    R.rel (j.conclude closing ending) (k.conclude closing ending) := by
  cases ending with
  | none => exact related
  | some ending => exact R.record related _ (other ending)

end Relation

namespace Run

variable {α β : Type} {R : Relation} {run run' : Run α}

/-- From related journals, both runs come to the same reply and to related journals, unless the first is
lost. -/
def Parallel (R : Relation) (run run' : Run α) : Prop :=
  ∀ j k, R.rel j k →
    (∃ cause, R.lost cause ∧ (run j).1 = .fault cause) ∨
      (run j).1 = (run' k).1 ∧ R.rel (run j).2 (run' k).2

namespace Parallel

theorem reply (r : Reply α) : Parallel R (Run.reply r) (Run.reply r) :=
  fun _ _ related => .inr ⟨rfl, related⟩

theorem of_scripted (scripted : Scripted run) : Parallel R run run := by
  obtain ⟨r, script, same⟩ := scripted
  intro j k related
  rw [same, same]
  exact .inr ⟨rfl, R.perform related script⟩

theorem map (parallel : Parallel R run run') (f : α → β) :
    Parallel R (Run.map f run) (Run.map f run') := by
  intro j k related
  obtain ⟨cause, lost, faulty⟩ | ⟨same, after⟩ := parallel j k related
  · exact .inl ⟨cause, lost, by rw [Run.map, faulty]; rfl⟩
  · exact .inr ⟨congrArg (Reply.map f) same, after⟩

theorem after (parallel : Parallel R run run') (start : Nat) (ghost : Option Failure) :
    Parallel R (Run.after start ghost run) (Run.after start ghost run') := by
  intro j k related
  obtain ⟨cause, lost, faulty⟩ | ⟨same, after⟩ := parallel j k related
  · exact .inl ⟨cause, lost, by rw [Run.after, faulty]; rfl⟩
  · exact .inr ⟨congrArg (Reply.after start ghost) same, after⟩

theorem recording (parallel : Parallel R run run') (e : Event) (other : e.node? = none) :
    Parallel R (fun j => run (j.record e)) fun k => run' (k.record e) :=
  fun _ _ related => parallel _ _ (R.record related e other)

theorem concluding (parallel : Parallel R run run') {closing : Ending → Event}
    (other : ∀ ending, (closing ending).node? = none) (start : Nat) :
    Parallel R (fun j => ((run j).1, (run j).2.conclude closing ((run j).1.ending? start)))
      fun k => ((run' k).1, (run' k).2.conclude closing ((run' k).1.ending? start)) := by
  intro j k related
  obtain lost | ⟨same, after⟩ := parallel j k related
  · exact .inl lost
  · simp only [same]
    exact .inr ⟨trivial, R.conclude after other _⟩

theorem resume {matched matched' : α → Nat → Option Failure → Run β}
    {failed failed' : Nat → Failure → Run β} (first : Parallel R run run')
    (afterMatch : ∀ x pos ghost, Gives run (.matched x pos ghost) →
      Parallel R (matched x pos ghost) (matched' x pos ghost))
    (afterFailure : ∀ pos error, Parallel R (failed pos error) (failed' pos error)) :
    Parallel R (Run.resume run matched failed) (Run.resume run' matched' failed') := by
  intro j k related
  rw [resume_eq_proceed, resume_eq_proceed]
  obtain ⟨cause, lost, faulty⟩ | ⟨same, after⟩ := first j k related
  · rw [faulty]
    exact .inl ⟨cause, lost, rfl⟩
  · rw [← same]
    cases replied : (run j).1 with
    | matched x pos ghost => exact afterMatch x pos ghost ⟨j, _, Prod.ext replied rfl⟩ _ _ after
    | failed pos error => exact afterFailure pos error _ _ after
    | fault cause => exact .inr ⟨rfl, after⟩

end Parallel

end Run

namespace Parser

open Run

variable {α β γ : Type} {D : State → Prop} {R : Relation}

def Stays (D : State → Prop) (p : Parser α) : Prop :=
  ∀ s x pos, D s → p.Yields s x pos → D (s.goto pos)

theorem stays_everywhere (p : Parser α) : p.Stays fun _ => True := fun _ _ _ _ _ => trivial

/-- `p` and `q` run side by side from every cursor at which `D` holds. -/
def Parallel (D : State → Prop) (R : Relation) (p q : Parser α) : Prop :=
  ∀ s, D s → Run.Parallel R (p.run s) (q.run s)

namespace Parallel

variable {p p' : Parser α} {q q' : Parser β}

theorem of_scripted (scripted : p.Scripted) : Parallel D R p p :=
  fun s _ => .of_scripted (scripted s)

/-- A parser that is lost runs side by side with any other. -/
theorem of_lost {cause : Fault} (lost : R.lost cause) : Parallel D R (raise cause) p :=
  fun _ _ _ _ _ => .inl ⟨cause, lost, rfl⟩

theorem map (parallel : Parallel D R p p') (f : α → γ) : Parallel D R (p.map f) (p'.map f) :=
  fun s here => (parallel s here).map f

theorem bind {f f' : α → Parser γ} (first : Parallel D R p p') (stays : p.Stays D)
    (rest : ∀ x, Parallel D R (f x) (f' x)) : Parallel D R (p.bind f) (p'.bind f') := by
  intro s here
  rw [run_bind, run_bind]
  refine (first s here).resume (fun x pos ghost gives => ?_) fun _ _ => .reply _
  exact (rest x _ (stays s x pos here ⟨ghost, gives⟩)).after _ _

theorem orElse {r r' : Parser α} (first : Parallel D R p p') (second : Parallel D R r r') :
    Parallel D R (p.orElse r) (p'.orElse r') := by
  intro s here
  rw [run_orElse, run_orElse]
  exact (first s here).resume (fun _ _ _ _ => .reply _) fun _ _ => (second s here).after _ _

theorem label (parallel : Parallel D R p p') (message : Text) :
    Parallel D R (p.label message) (p'.label message) := by
  intro s here
  rw [run_label, run_label]
  exact (parallel s here).resume (fun _ _ _ _ => .reply _) fun _ _ => .reply _

theorem optional (parallel : Parallel D R p p') : Parallel D R p.optional p'.optional := by
  intro s here
  rw [run_optional, run_optional]
  exact (parallel s here).resume (fun _ _ _ _ => .reply _) fun _ _ => .reply _

theorem tryRest {ps ps' : List (Parser α)} (all : List.Forall₂ (Parallel D R) ps ps') {s : State}
    (here : D s) (error : Failure) :
    Run.Parallel R (Parser.tryRest s ps error) (Parser.tryRest s ps' error) := by
  induction all generalizing error with
  | nil => exact .reply (.failed s.pos error)
  | cons parallel _ ih =>
    rw [run_tryRest, run_tryRest]
    exact (parallel s here).resume (fun _ _ _ _ => .reply _) fun _ _ => ih _

theorem oneOf {ps ps' : List (Parser α)} (all : List.Forall₂ (Parallel D R) ps ps') :
    Parallel D R (Parser.oneOf ps) (Parser.oneOf ps') := by
  cases all with
  | nil => exact .of_scripted (scripted_oneOf (List.forall_mem_nil _))
  | cons parallel rest =>
    intro s here
    rw [run_oneOf, run_oneOf]
    exact (parallel s here).resume (fun _ _ _ _ => .reply _) fun _ _ => tryRest rest here _

/-- By induction on what is left of the buffer, as in the loop itself. -/
theorem zeroOrMore (parallel : Parallel D R p p') (stays : p.Stays D) :
    Parallel D R p.zeroOrMore p'.zeroOrMore := by
  intro s here
  rw [run_zeroOrMore, run_zeroOrMore]
  refine (parallel s here).resume (fun x pos ghost gives => ?_) fun _ _ => .reply _
  by_cases further : s.pos < pos ∧ pos ≤ s.input.size
  · have others := zeroOrMore parallel stays (s.goto pos) (stays s x pos here ⟨ghost, gives⟩)
    rw [if_pos further, if_pos further]
    exact (others.map _).after _ _
  · rw [if_neg further, if_neg further]
    exact .reply _
termination_by s => s.input.size - s.pos
decreasing_by
  simp only [State.goto]
  omega

theorem sepBy (separators : Parallel D R q q') (keeps : q.Stays D) (parallel : Parallel D R p p')
    (stays : p.Stays D) : Parallel D R (Parser.sepBy q p) (Parser.sepBy q' p') := by
  intro s here
  rw [run_sepBy, run_sepBy]
  refine (parallel s here).resume (fun x pos ghost gives => ?_) fun _ _ => .reply _
  have both : Parallel D R (q.right p) (q'.right p') := separators.bind keeps fun _ => parallel
  have onwards : (q.right p).Stays D := by
    intro t y stop there yields
    obtain ⟨_, mid, first, second⟩ := yields_right yields
    exact stays (t.goto mid) y stop (keeps t _ mid there first) second
  have others := both.zeroOrMore onwards (s.goto pos) (stays s x pos here ⟨ghost, gives⟩)
  exact (others.map _).after _ _

theorem traced (parallel : Parallel D R p p') (title : Text) :
    Parallel D R (p.traced title) (p'.traced title) :=
  fun s here => ((parallel s here).recording (.entered title (glimpse s) (hasMore s) s.pos) rfl)
    |>.concluding (fun _ => rfl) s.pos

theorem spied (parallel : Parallel D R p p') (name : Text) :
    Parallel D R (p.spied name) (p'.spied name) :=
  fun s here => (parallel s here).recording (.attempted name s.pos) rfl

end Parallel

end Parser

end Rewind
