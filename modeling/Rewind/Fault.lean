import Rewind.Text.Buffer

/-! # Faults

A failure is an answer: the input is not what was asked for, and another alternative may be tried.  A
fault is none.  It says that the question itself made no sense, and ends the run. -/

namespace Rewind

/-- A cause that ends a run for good. -/
inductive Fault where
  /-- A literal of text met a buffer of bytes, or the reverse. -/
  | kindMismatch
  /-- A number with a fraction or an exponent whose whole part no float can hold. -/
  | numberTooLarge
  /-- A rule that refers to itself before it consumed anything. -/
  | endlessRecursion
  /-- A repetition whose round matched without consuming anything. -/
  | stalled
  /-- A reference to a rule that is not defined. -/
  | unknownRule (name : Text)
  deriving DecidableEq, Repr

def Fault.message : Fault → Text
  | .kindMismatch => text "text and bytes do not mix"
  | .numberTooLarge => text "int too large to convert to float"
  | .endlessRecursion => text "a rule refers to itself without consuming input"
  | .stalled => text "a repetition consumed no input"
  | .unknownRule name => text "no rule is named " ++ name

end Rewind
