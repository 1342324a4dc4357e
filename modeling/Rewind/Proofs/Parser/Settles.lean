import Rewind.Proofs.Parser.Accepts
import Rewind.Proofs.Parser.Tidy

/-! # What runs come to on a text

Where all that is wanted of a rule is which text it reads, or else where its error lies, the answer can
be a function of the text ahead: `p.Settles ahead outcome` says that it is `outcome`.

Where a sequence fails in its second part, the first one may have left a failure behind it that lies
further on.  If it never does, the error of the second part is the error of the whole. -/

namespace Rewind.Parser

open Run RunProperty

variable {α β : Type} {p : Parser α} {ahead mid left : Text} {x : α}

/-- Wherever `ahead` lies ahead, every run of `p` fails, and its error lies right before `left`. -/
def FailsBefore (p : Parser α) (ahead left : Text) : Prop :=
  ∀ s : State, s.input.kind = .text → s.pos ≤ s.input.size → s.rest = ahead → ∀ j,
    ∃ error, (p.run s j).1 = .failed s.pos error ∧ error.pos + left.length = s.input.size

/-- Wherever `ahead` lies ahead, every run of `p` comes to the outcome: a value and what is left behind
it, or an error and what is left behind that. -/
def Settles (p : Parser α) (ahead : Text) : Except Text (α × Text) → Prop
  | .ok (x, left) => p.Accepts ahead x left
  | .error left => p.FailsBefore ahead left

theorem failsBefore_of_missesAt
    (misses : ∀ s : State, s.input.kind = .text → s.rest = ahead → p.MissesAt s) :
    p.FailsBefore ahead ahead := by
  intro s kind inside here j
  obtain ⟨error, there, fails⟩ := misses s kind here
  refine ⟨error, fails j, ?_⟩
  rw [there, ← here, State.rest, Buffer.length_rest, Nat.add_sub_cancel' inside]

namespace FailsBefore

theorem map (fails : p.FailsBefore ahead left) (f : α → β) : (p.map f).FailsBefore ahead left := by
  intro s kind inside here j
  obtain ⟨error, failed, there⟩ := fails s kind inside here j
  exact ⟨error, congrArg (Reply.map f) failed, there⟩

theorem bind (fails : p.FailsBefore ahead left) (f : α → Parser β) :
    (p.bind f).FailsBefore ahead left := by
  intro s kind inside here j
  obtain ⟨error, failed, there⟩ := fails s kind inside here j
  have ran : p.run s j = (.failed s.pos error, (p.run s j).2) := Prod.ext failed rfl
  refine ⟨error, ?_, there⟩
  rw [run_bind, resume_failed ran]
  rfl

theorem traced (fails : p.FailsBefore ahead left) (label : Text) :
    (Parser.traced label p).FailsBefore ahead left :=
  fun s kind inside here _ => fails s kind inside here _

end FailsBefore

/-- The failure of a second part is not hidden by what the first one left behind, if that lies before
the end of its match. -/
theorem Accepts.bind_failsBefore {f : α → Parser β} (first : p.Accepts ahead x mid)
    (tidy : ∀ s, p.TidyAt s) (steady : p.Obeys forward) (onward : (f x).Obeys forward)
    (rest : (f x).FailsBefore mid left) : (p.bind f).FailsBefore ahead left := by
  intro s kind inside here j
  obtain ⟨stop, ghost, k, ran, behind⟩ := first.run kind here j
  have reached := Yields.precedes steady ⟨ghost, j, k, ran⟩
  obtain ⟨error, failed, there⟩ := rest (s.goto stop) kind (reached.inside inside) behind k
  have further := onward (s.goto stop) k
  rw [failed] at further
  -- The second part begins where the match ended, so its error is the further one.
  have swallowed : ∀ e ∈ ghost, e.pos ≤ error.pos := fun e carried =>
    Nat.le_trans (tidy s x stop ghost ⟨j, k, ran⟩ e carried) further.2
  refine ⟨Failure.cover ghost error, ?_, ?_⟩
  · rw [run_bind, resume_matched ran]
    exact congrArg (Reply.after s.pos ghost) failed
  · rw [Failure.pos_cover swallowed, there]
    rfl

namespace Settles

variable {outcome : Except Text (α × Text)}

theorem map (settles : p.Settles ahead outcome) (f : α → β) :
    (p.map f).Settles ahead (outcome.map fun found => (f found.1, found.2)) := by
  cases outcome with
  | ok found => exact Accepts.map settles f
  | error left => exact FailsBefore.map settles f

/-- A first part that matches leaves the outcome to the second. -/
theorem of_accepts {f : α → Parser β} {outcome : Except Text (β × Text)}
    (first : p.Accepts ahead x mid) (tidy : ∀ s, p.TidyAt s) (steady : p.Obeys forward)
    (onward : (f x).Obeys forward) (rest : (f x).Settles mid outcome) :
    (p.bind f).Settles ahead outcome := by
  cases outcome with
  | ok found => exact Accepts.bind first rest
  | error left => exact Accepts.bind_failsBefore first tidy steady onward rest

theorem bind {f : α → Parser β} {next : α → Text → Except Text (β × Text)}
    (first : p.Settles ahead outcome) (tidy : ∀ s, p.TidyAt s) (steady : p.Obeys forward)
    (onward : ∀ x, (f x).Obeys forward) (rest : ∀ x mid, (f x).Settles mid (next x mid)) :
    (p.bind f).Settles ahead (outcome.bind fun found => next found.1 found.2) := by
  cases outcome with
  | error left => exact FailsBefore.bind first f
  | ok found => exact of_accepts first tidy steady (onward found.1) (rest found.1 found.2)

end Settles

end Rewind.Parser
