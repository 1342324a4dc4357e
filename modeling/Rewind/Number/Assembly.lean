import Rewind.Fault
import Rewind.Number.Literal

/-! # Number assembly

A number is written as a whole part, and possibly a fraction and an exponent, each an integer
literal.  Without the last two it is the exact integer.  With either it is a float: the whole part,
plus the fraction scaled down by a power of ten, times ten to the exponent.

How far the fraction is scaled down is a matter of the dialect.  An exact fraction counts its digits
as written, and the sign of the whole part applies to all of it.  An inexact one counts the length
of the canonical numeral of its value, so leading zeros do not push it down, and it is added to a
negative whole part as it is. -/

namespace Rewind

/-- An integer of any size, or a float. -/
inductive Number where
  | int (value : Int)
  | float (value : Float)
  deriving DecidableEq

namespace Number

/-- The least natural number that no float holds: it rounds to a power of two out of range. -/
def floatLimit : Nat := Nat.pow 2 1024 - Nat.pow 2 970

/-- The float nearest to an integer, ties to the even one; `none` when it is out of range. -/
def toFloat? (n : Int) : Option Float :=
  if floatLimit ≤ n.natAbs then none
  else
    let magnitude := Float.ofScientific n.natAbs false 0
    some (if n < 0 then -magnitude else magnitude)

def ofDecimal (numerator : Int) (places : Nat) : Float :=
  let magnitude := Float.ofScientific numerator.natAbs true places
  if numerator < 0 then -magnitude else magnitude

def fractionPlaces (exact : Bool) (fraction : Literal) : Nat :=
  if exact then fraction.digits.length else fraction.printedLength

/-- Beyond this exponent a power of ten is infinite, and below its negative it is zero. -/
def exponentLimit : Int := 400

def powerOfTen (e : Int) : Float :=
  if exponentLimit < e then 1.0 / 0.0
  else if e < -exponentLimit then 0.0
  else Float.pow 10.0 (Float.ofInt e)

def assemble (exact : Bool) (whole : Literal) (fraction exponent : Option Literal) :
    Except Fault Number :=
  if fraction.isNone && exponent.isNone then .ok (.int whole.value)
  else
    match toFloat? (if exact then whole.value.natAbs else whole.value) with
    | none => .error .numberTooLarge
    | some base =>
      let sum := match fraction with
        | none => base
        | some f => base + ofDecimal f.value (fractionPlaces exact f)
      let signed := if exact && whole.isNegative then -sum else sum
      .ok (.float (match exponent with
        | none => signed
        | some e => signed * powerOfTen e.value))

end Number

end Rewind
