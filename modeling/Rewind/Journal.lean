import Rewind.Failure
import Rewind.Grammar.Syntax

/-! # Journals

What a run leaves behind besides its reply: the events in the order in which they happened, and what is
in the caches of the lazy nodes.  Some events are messages for people (a traced rule was entered,
matched, or gave up); others are silent, and are there so that statements about a run can speak of the
attempts it made. -/

namespace Rewind

/-- How an attempt ended: matched up to an offset, or gave up and went back to one. -/
inductive Ending where
  | matched (pos : Nat)
  | backtracked (pos : Nat) (error : Failure)
  deriving DecidableEq, Repr

/-- A lazy node, which has a cache of its own. -/
inductive Node where
  /-- A lazy node of an expression.  It was made in the last of the `makings`, which are inside each
  other, or with the whole expression if there are none. -/
  | numbered (makings : List Nat) (number : Nat) (name : Text)
  /-- The rule of a grammar that references name. -/
  | rule (name : Text)
  /-- The values of a JSON grammar, as its pairs refer to them. -/
  | values (dialect : Json.Dialect) (levels : Nat) (stack : Json.Stack)
  deriving DecidableEq, Repr

namespace Node

/-- The message of a node that is built; only those of expressions have one. -/
def message? : Node → Option Text
  | .numbered _ _ name => some (text "build " ++ name)
  | .rule _ => none
  | .values .. => none

/-- Whether the node is made only once, so that its cache is kept from one run to the next. -/
def isLasting : Node → Bool
  | .numbered makings _ _ => makings.isEmpty
  | .rule _ => true
  | .values .. => true

end Node

inductive Event where
  /-- The cache of a lazy node was filled. -/
  | built (node : Node)
  /-- A watched parser was attempted. -/
  | attempted (name : Text) (pos : Nat)
  /-- The upcoming input was shown, `more` of it remaining. -/
  | glimpsed (label : Text) (upcoming : Buffer) (more : Bool) (pos : Nat)
  /-- A traced parser began. -/
  | entered (label : Text) (upcoming : Buffer) (more : Bool) (pos : Nat)
  /-- A traced parser ended. -/
  | left (label : Text) (ending : Ending)
  /-- A part of a rule ended whose beginning is not reported. -/
  | concluded (label : Text) (ending : Ending)
  /-- Silent: a primitive parser failed. -/
  | missed (error : Failure)
  /-- Silent: a rule passed a point of interest. -/
  | marked (tag : Text) (pos : Nat)
  /-- Silent: a lazy node was attempted. -/
  | reached (node : Node) (pos : Nat)
  deriving DecidableEq, Repr

namespace Event

def glimpse (label : Text) (upcoming : Buffer) (more : Bool) (pos : Nat) : Text :=
  label ++ text ": " ++ upcoming.quoted ++ (if more then text "..." else []) ++
    text " at offset " ++ digits pos

def conclusion (label : Text) : Ending → Text
  | .matched pos => label ++ text " matched up to offset " ++ digits pos
  | .backtracked pos error =>
    label ++ text " backtracked to offset " ++ digits pos ++ text " (" ++ error.message ++ text ")"

/-- The message of an event; silent events have none. -/
def message? : Event → Option Text
  | .built node => node.message?
  | .attempted name pos => some (text "spy " ++ name ++ text " at " ++ digits pos)
  | .glimpsed label upcoming more pos => some (glimpse label upcoming more pos)
  | .entered label upcoming more pos => some (glimpse label upcoming more pos)
  | .left label ending => some (conclusion label ending)
  | .concluded label ending => some (conclusion label ending)
  | .missed _ => none
  | .marked _ _ => none
  | .reached _ _ => none

def missed? : Event → Option Failure
  | .missed error => some error
  | _ => none

end Event

/-- What has happened so far, the latest first, and where the caches stand. -/
structure Journal where
  past : List Event
  /-- What the caches hold that have been filled, the latest first. -/
  filled : List (Node × Expr)
  /-- How many times continuations have made something. -/
  makings : Nat
  /-- The makings that the run is inside of, the outermost first. -/
  scope : List Nat

namespace Journal

def empty : Journal := ⟨[], [], 0, []⟩

def events (j : Journal) : List Event := j.past.reverse

def messages (j : Journal) : List Text := j.events.filterMap Event.message?

def failures (j : Journal) : List Failure := j.events.filterMap Event.missed?

def record (j : Journal) (e : Event) : Journal := { j with past := e :: j.past }

def conclude (j : Journal) (event : Ending → Event) (ending : Option Ending) : Journal :=
  match ending with
  | none => j
  | some ending => j.record (event ending)

def upTo (j : Journal) (n : Nat) : Journal := { j with past := j.past.drop (j.past.length - n) }

def content? (j : Journal) (node : Node) : Option Expr := j.filled.lookup node

def fill (j : Journal) (node : Node) (p : Expr) : Journal :=
  { j with past := .built node :: j.past, filled := (node, p) :: j.filled }

/-- The journal of a further run: the events begin anew, and what continuations made is gone. -/
def turnPage (j : Journal) : Journal :=
  { empty with filled := j.filled.filter fun cell => cell.1.isLasting }

@[simp] theorem events_record (j : Journal) (e : Event) :
    (j.record e).events = j.events ++ [e] := by
  simp [events, record]

theorem past_upTo {j k : Journal} {added : List Event} (grown : k.past = added ++ j.past)
    (kept : Nat) :
    (k.upTo (j.past.length + kept)).past = added.drop (added.length - kept) ++ j.past := by
  have newest : added.length + j.past.length - (j.past.length + kept) = added.length - kept := by
    omega
  rw [upTo, grown, List.length_append, newest, List.drop_append_of_le_length (Nat.sub_le _ _)]

theorem events_upTo {j k : Journal} {added : List Event} (grown : k.events = j.events ++ added)
    (kept : Nat) : (k.upTo (j.past.length + kept)).events = j.events ++ added.take kept := by
  have past : k.past = added.reverse ++ j.past := by
    simpa [events] using congrArg List.reverse grown
  rw [events, past_upTo past, List.reverse_append, List.length_reverse, ← List.reverse_take,
    List.reverse_reverse]
  rfl

end Journal

end Rewind
