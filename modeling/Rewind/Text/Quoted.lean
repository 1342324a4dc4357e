import Rewind.Text.Printable

/-! # Quoted text

Messages show a piece of input between quotes.  The single quote is used unless the piece holds a
single quote and no double one.  Inside, the quote itself and the backslash take a backslash, the
tab, line feed and carriage return have short escapes, printable characters stand as they are, and
all others are written in lower-case hexadecimal: `\xhh`, `\uhhhh` or `\Uhhhhhhhh`, whichever is the
shortest that fits.  Bytes are marked by a `b` in front, and only graphic ASCII and the space stand
as they are among them. -/

namespace Rewind

def lowerHex (d : Nat) : Code := if d < 10 then 0x30 + d else 0x57 + d

def hexPadded : (width n : Nat) → Text
  | 0, _ => []
  | width + 1, n => hexPadded width (n / 16) ++ [lowerHex (n % 16)]

@[simp] theorem length_hexPadded (width n : Nat) : (hexPadded width n).length = width := by
  induction width generalizing n with
  | zero => rfl
  | succ width ih => simp [hexPadded, ih]

/-- A character by its number: two, four or eight digits after `\x`, `\u` or `\U`. -/
def numericEscape (c : Code) : Text :=
  if c < 0x100 then text "\\x" ++ hexPadded 2 c
  else if c < 0x10000 then text "\\u" ++ hexPadded 4 c
  else text "\\U" ++ hexPadded 8 c

def Kind.shows : Kind → Code → Bool
  | .text, c => isPrintable c
  | .bytes, c => 0x20 ≤ c && c < 0x7F

def escaped (kind : Kind) (quote c : Code) : Text :=
  if c == quote || c == 0x5C then [0x5C, c]
  else if c == 0x09 then text "\\t"
  else if c == 0x0A then text "\\n"
  else if c == 0x0D then text "\\r"
  else if kind.shows c then [c]
  else numericEscape c

/-- The quote that goes around these units: double when they hold a single quote and no double one,
single otherwise. -/
def quoteFor (units : List Code) : Code :=
  if units.contains 0x27 && !units.contains 0x22 then 0x22 else 0x27

def Buffer.quoted (b : Buffer) : Text :=
  let quote := quoteFor b.codes
  let mark := match b.kind with
    | .text => []
    | .bytes => text "b"
  mark ++ quote :: b.codes.flatMap (escaped b.kind quote) ++ [quote]

def quoted (t : Text) : Text := (Buffer.ofText t).quoted

example : quoted (text "it's") = text "\"it's\"" := by decide +kernel
example : quoted (text "a\n\\'\"") = text "'a\\n\\\\\\'\"'" := by decide +kernel
example : (Buffer.mk .bytes #[0x61, 0xFF]).quoted = text "b'a\\xff'" := by decide +kernel

end Rewind
