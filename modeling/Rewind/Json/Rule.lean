import Rewind.Json.Dialect

/-! # Rules of the JSON grammar, by name

Each rule of the grammar can be run on its own.  How deep the values may nest that it reads is up to the
program that runs it, and so is the stack on which it runs. -/

namespace Rewind.Json

inductive Rule where
  | value
  | document
  | object
  | array
  | quotedString
  | boolean
  | null
  | number
  | integer
  | sign
  | keyValuePair
  | whiteSpace
  | comma
  | colon
  deriving DecidableEq, Repr

/-- The stack runs out while a value is read: one that may nest `level` levels deep and begins at
`pos`.  Of what happened since its beginning the log keeps the first `kept` events. -/
structure Interruption where
  level : Nat
  pos : Nat
  kept : Nat
  deriving DecidableEq, Repr

/-- Where the stack runs out; an ample stack never does.  How much of the stack a rule needs depends on
what it reads, so this may be anywhere. -/
abbrev Stack := List Interruption

namespace Stack

/-- How many events are kept of a value whose reading is interrupted; `none` if it is not. -/
def kept? (stack : Stack) (level pos : Nat) : Option Nat :=
  (stack.find? fun i => i.level = level ∧ i.pos = pos).map (·.kept)

end Stack

end Rewind.Json
