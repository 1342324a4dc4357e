import Rewind.Text.Buffer

/-! # Integer literals

An integer as it is written: a sign that may be missing, and digits that may have leading zeros. -/

namespace Rewind

structure Literal where
  sign : Text
  digits : Text
  deriving DecidableEq, Repr

namespace Literal

def magnitude (digits : Text) : Int :=
  digits.foldl (fun (n : Int) (d : Code) => n * 10 + (d - 0x30)) 0

def isNegative (l : Literal) : Bool := l.sign == text "-"

def value (l : Literal) : Int := if l.isNegative then -magnitude l.digits else magnitude l.digits

/-- The digits without leading zeros; a zero keeps one. -/
def significant (l : Literal) : Text :=
  match l.digits.dropWhile (· == 0x30) with
  | [] => text "0"
  | digits => digits

/-- The length of the canonical numeral of the value: the significant digits, and a minus sign
unless there is nothing to negate. -/
def printedLength (l : Literal) : Nat :=
  l.significant.length + if l.isNegative && l.significant != text "0" then 1 else 0

end Literal

end Rewind
