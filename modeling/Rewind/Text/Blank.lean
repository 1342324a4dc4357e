import Rewind.Text.Buffer

/-! # Blank characters

The characters that count as white space at the edges of a text: the Unicode white space and the
four information separators. -/

namespace Rewind

def isBlank (c : Code) : Bool :=
  (0x09 ≤ c && c ≤ 0x0D) || (0x1C ≤ c && c ≤ 0x20) || c == 0x85 || c == 0xA0 || c == 0x1680 ||
    (0x2000 ≤ c && c ≤ 0x200A) || c == 0x2028 || c == 0x2029 || c == 0x202F || c == 0x205F ||
    c == 0x3000

def trimStart (t : Text) : Text := t.dropWhile isBlank

end Rewind
