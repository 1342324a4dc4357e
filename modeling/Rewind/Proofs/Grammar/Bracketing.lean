import Rewind.Proofs.Grammar.Tracing

/-! # Brackets in the log

A traced parser reports where it began and how it ended.  Between the two stands whatever its parts
report, and what is tried after it comes later, so that the reports of a run that returns are nested like
brackets: each beginning has its end, under the same label, and nothing inside begins before it.

A container of the JSON grammar reports only its end, but it leaves a silent mark where it begins.  With
these marks the log of a JSON grammar that reports is nested in the same way, which makes one conclusion
for each container that began.

A member during which the stack runs out leaves behind what it began to report, and its container goes
on.  So a grammar that reports has a nested log only as long as the limit on the nesting is not
reached. -/

namespace Rewind

/-! ## Nested logs -/

/-- How what began at `start` may end in a buffer of `size` units: a match lies at or behind the start,
and giving up goes back to it. -/
def Ending.Fits (size start : Nat) : Ending → Prop
  | .matched pos => start ≤ pos ∧ pos ≤ size
  | .backtracked pos _ => pos = start

namespace Event

inductive Closes (size : Nat) : Event → Nat → Event → Prop where
  | traced {label upcoming more start ending} (fits : Ending.Fits size start ending) :
      Closes size (.entered label upcoming more start) start (.left label ending)
  | container {label start ending} (fits : Ending.Fits size start ending) :
      Closes size (.marked Json.containerMark start) start (.concluded label ending)

/-- Beginnings and ends are nested.  Nothing begins before the offset `floor`, nor inside something
before that. -/
inductive Balanced (size : Nat) : (floor : Nat) → List Event → Prop where
  | nil {floor} : Balanced size floor []
  | cons {floor start opening closing inside behind} (ahead : floor ≤ start)
      (closes : Closes size opening start closing) (inner : Balanced size start inside)
      (rest : Balanced size floor behind) :
      Balanced size floor (opening :: inside ++ closing :: behind)

namespace Balanced

variable {size floor : Nat} {log behind : List Event}

theorem mono {lower : Nat} (nested : Balanced size floor log) (below : lower ≤ floor) :
    Balanced size lower log := by
  induction nested with
  | nil => exact .nil
  | cons ahead closes inner rest _ ih => exact .cons (Nat.le_trans below ahead) closes inner (ih below)

theorem append (first : Balanced size floor log) (second : Balanced size floor behind) :
    Balanced size floor (log ++ behind) := by
  induction first with
  | nil => exact second
  | cons ahead closes inner rest _ ih =>
    rw [List.append_assoc, List.cons_append]
    exact .cons ahead closes inner (ih second)

theorem pair {opening closing : Event} (inner : Balanced size floor log)
    (closes : Closes size opening floor closing) :
    Balanced size floor (opening :: log ++ [closing]) :=
  .cons (Nat.le_refl _) closes inner .nil

end Balanced

end Event

/-! ## Runs with nested logs -/

namespace RunProperty

open Event

variable {containers limited : Bool} {s : State} {j k : Journal} {r : Reply Unit} {e : Event}

end RunProperty

open Event RunProperty

/-! ## Parsers that report -/

section

variable {α : Type} {containers limited : Bool} {p : Parser α}

end

namespace Json

variable {containers limited : Bool} {d : Dialect}

namespace Dialect

end Dialect

end Json

/-! ## Expressions -/

namespace Expr

section

variable {grammar : Grammar} {p : Expr} {s : State} {j : Journal} (inside : s.pos ≤ s.input.size)
  (returns : ∀ cause, ((p.parser grammar).run s j).1 ≠ .fault cause)

include inside returns

end

end Expr

end Rewind
