import Rewind.Fault
import Rewind.Journal

/-! # Parsers

A parser looks at a buffer from a cursor and replies in one of three ways: it *matched* a value and
moved the cursor, it *failed* and says so with a `Failure`, or it met a *fault*, a cause that no
alternative can repair and that ends the whole run.

A failing parser never moves the cursor: whatever its parts consumed, the reply goes back to where
it began.  A match carries the ghost of the failures swallowed on the way.  Both rules are kept by
`Reply.after`, which is what every composition does to the reply of its second part: failures move
back to the common start, and the ghost so far is merged in front. -/

namespace Rewind

/-! ## Cursors -/

structure State where
  input : Buffer
  pos : Nat
  deriving DecidableEq, Repr

namespace State

def start (input : Buffer) : State := ⟨input, 0⟩

def goto (s : State) (pos : Nat) : State := { s with pos }

def upcoming (s : State) (n : Nat) : Option Buffer := s.input.upcoming s.pos n

def rest (s : State) : List Code := s.input.rest s.pos

def remaining (s : State) : Nat := s.input.size - s.pos

@[simp] theorem input_goto (s : State) (pos : Nat) : (s.goto pos).input = s.input := rfl

@[simp] theorem pos_goto (s : State) (pos : Nat) : (s.goto pos).pos = pos := rfl

@[simp] theorem goto_self (s : State) : s.goto s.pos = s := rfl

@[simp] theorem goto_goto (s : State) (i k : Nat) : (s.goto i).goto k = s.goto k := rfl

theorem rest_start (t : Text) : (start (.ofText t)).rest = t := by
  rw [rest, start, Buffer.rest_zero, Buffer.codes_ofText]

end State

/-! ## Replies -/

inductive Reply (α : Type) where
  /-- A value, the cursor after it, and the furthest failure swallowed on the way. -/
  | matched (value : α) (pos : Nat) (ghost : Option Failure)
  /-- The cursor at which the failing parser began, and the failure. -/
  | failed (pos : Nat) (error : Failure)
  /-- The end of the run. -/
  | fault (cause : Fault)
  deriving DecidableEq, Repr

namespace Reply

variable {α β : Type}

/-- The reply of a later part, seen from the whole: a failure goes back to `start`, and the ghost of
what came before is merged in front. -/
def after (start : Nat) (ghost : Option Failure) : Reply α → Reply α
  | .matched value pos next => .matched value pos (Failure.join ghost next)
  | .failed _ error => .failed start (Failure.cover ghost error)
  | .fault cause => .fault cause

def map (f : α → β) : Reply α → Reply β
  | .matched value pos ghost => .matched (f value) pos ghost
  | .failed pos error => .failed pos error
  | .fault cause => .fault cause

/-- The failure that a reply carries: its error, or the ghost of its match. -/
def carried : Reply α → Option Failure
  | .matched _ _ ghost => ghost
  | .failed _ error => some error
  | .fault _ => none

/-- How an attempt that began at `start` ended; a fault ends nothing. -/
def ending? (start : Nat) : Reply α → Option Ending
  | .matched _ pos _ => some (.matched pos)
  | .failed _ error => some (.backtracked start error)
  | .fault _ => none

/-- Only what a caller needs who runs one parser on one buffer: the value, or the failure. -/
def result : Reply α → Except Fault (Except Failure α)
  | .matched value _ _ => .ok (.ok value)
  | .failed _ error => .ok (.error error)
  | .fault cause => .error cause

/-- Of two compositions around one reply, the outer decides the start, and the ghosts are merged
from left to right. -/
theorem after_after (start inner : Nat) (ghost next : Option Failure) (r : Reply α) :
    (r.after inner next).after start ghost = r.after start (Failure.join ghost next) := by
  cases r <;> simp [after, Failure.join_assoc, Failure.cover_join]

theorem map_after (f : α → β) (start : Nat) (ghost : Option Failure) (r : Reply α) :
    (r.after start ghost).map f = (r.map f).after start ghost := by
  cases r <;> rfl

end Reply

/-! ## Composition -/

/-- A function from a cursor to a reply that keeps a journal. -/
@[ext] structure Parser (α : Type) where
  run : State → Journal → Reply α × Journal

namespace Parser

variable {α β : Type}

protected def pure (value : α) : Parser α where
  run s j := (.matched value s.pos none, j)

def raise (cause : Fault) : Parser α where
  run _ j := (.fault cause, j)

protected def map (p : Parser α) (f : α → β) : Parser β where
  run s j :=
    let done := p.run s j
    (done.1.map f, done.2)

protected def bind (p : Parser α) (f : α → Parser β) : Parser β where
  run s j :=
    match p.run s j with
    | (.matched value pos ghost, j) =>
      let next := (f value).run (s.goto pos) j
      (next.1.after s.pos ghost, next.2)
    | (.failed pos error, j) => (.failed pos error, j)
    | (.fault cause, j) => (.fault cause, j)

protected def orElse (p q : Parser α) : Parser α where
  run s j :=
    match p.run s j with
    | (.failed _ error, j) =>
      let next := q.run s j
      (next.1.after s.pos (some error), next.2)
    | other => other

/-- A failure at the very cursor is reported as `message`; one further on says more as it is. -/
def label (p : Parser α) (message : Text) : Parser α where
  run s j :=
    match p.run s j with
    | (.failed pos error, j) =>
      if error.pos = s.pos then (.failed s.pos ⟨s.pos, [message], error.actual⟩, j)
      else (.failed pos error, j)
    | other => other

instance : Monad Parser where
  pure := Parser.pure
  bind := Parser.bind
  map f p := p.map f

instance : OrElse (Parser α) where
  orElse p q := p.orElse (q ())

/-! ## Sequences -/

def both (p : Parser α) (q : Parser β) : Parser (α × β) :=
  p.bind fun x => q.map fun y => (x, y)

def right (p : Parser α) (q : Parser β) : Parser β := p.bind fun _ => q

def left (p : Parser α) (q : Parser β) : Parser α := p.bind fun x => q.map fun _ => x

def between {γ : Type} (opening : Parser α) (closing : Parser β) (inner : Parser γ) : Parser γ :=
  opening.bind fun _ => inner.bind fun x => closing.map fun _ => x

/-! ## Whole runs -/

def parse (p : Parser α) (input : Buffer) : Reply α × Journal :=
  p.run (.start input) .empty

/-- Runs `p` at one cursor after the other.  The caches that a run has filled stay filled for the next. -/
def runEach (p : Parser α) (j : Journal) : List State → List (Reply α × Journal)
  | [] => []
  | s :: rest =>
    let done := p.run s j.turnPage
    done :: p.runEach done.2 rest

end Parser

end Rewind
