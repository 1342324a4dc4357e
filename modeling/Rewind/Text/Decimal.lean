import Rewind.Text.Buffer

/-! # Decimal numerals

The canonical decimal text of a number: no leading zero, and a minus sign exactly for the negative
ones.  Messages write their offsets and counts this way. -/

namespace Rewind

def digits (n : Nat) : Text := (Nat.toDigits 10 n).map Char.toNat

def decimal (i : Int) : Text :=
  if i < 0 then text "-" ++ digits i.natAbs else digits i.natAbs

theorem decimal_natCast (n : Nat) : decimal n = digits n := by
  have : ¬ (n : Int) < 0 := by omega
  simp [decimal, this]

end Rewind
