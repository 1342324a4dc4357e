import Rewind.Text.Quoted

/-! # Character classes

A set of characters together with the words by which a failure names it.  A byte counts as the
character of the same number, so a class serves text and bytes alike. -/

namespace Rewind

/-- A set of characters and its name in failures. -/
structure CharClass where
  accepts : Code → Bool
  expected : Text

namespace CharClass

def anyName : Text := text "character"

/-- One given character.  Text of any other length than one is no character. -/
def only (c : Text) : CharClass := ⟨fun x => [x] == c, text "'" ++ c ++ text "'"⟩

def anyOf (cs : Text) : CharClass := ⟨cs.contains, text "one of " ++ quoted cs⟩

def noneOf (cs : Text) : CharClass := ⟨fun x => !cs.contains x, text "none of " ++ quoted cs⟩

def isDigit (c : Code) : Bool := 0x30 ≤ c && c ≤ 0x39

def isHexDigit (c : Code) : Bool :=
  isDigit c || (0x61 ≤ c && c ≤ 0x66) || (0x41 ≤ c && c ≤ 0x46)

def digit : CharClass := ⟨isDigit, text "digit"⟩

def hexDigit : CharClass := ⟨isHexDigit, text "hexadecimal digit"⟩

theorem accepts_only {c : Text} {x : Code} : (only c).accepts x = true ↔ [x] = c := by
  simp [only]

theorem accepts_anyOf {cs : Text} {x : Code} : (anyOf cs).accepts x = true ↔ x ∈ cs := by
  simp [anyOf]

theorem isDigit_iff {c : Nat} : isDigit c = true ↔ 0x30 ≤ c ∧ c ≤ 0x39 := by
  simp [isDigit]

end CharClass

end Rewind
