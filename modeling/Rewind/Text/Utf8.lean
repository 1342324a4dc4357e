import Rewind.Text.Buffer

/-! # UTF-8

The strict decoder: every character in its shortest form, no surrogates, nothing above `0x10FFFF`.
The first byte of a character decides how many follow and, with four exceptions that exclude the
long forms, the surrogates and the numbers out of range, the second byte is any continuation byte.
Bytes that are not well formed are reported at the first byte of the first sequence that is no
character. -/

namespace Rewind.Utf8

/-- What the first byte of a character fixes: the bits it contributes, how many bytes follow, and
the range of the next one. -/
structure Lead where
  bits : Nat
  following : Nat
  low : Code
  high : Code
  deriving DecidableEq, Repr

/-- The reading of a first byte; `none` for a byte that begins no character. -/
def lead? (b : Code) : Option Lead :=
  if b ≤ 0x7F then some ⟨b, 0, 0x80, 0xBF⟩
  else if 0xC2 ≤ b ∧ b ≤ 0xDF then some ⟨b - 0xC0, 1, 0x80, 0xBF⟩
  else if b = 0xE0 then some ⟨0, 2, 0xA0, 0xBF⟩
  else if b = 0xED then some ⟨0xD, 2, 0x80, 0x9F⟩
  else if 0xE1 ≤ b ∧ b ≤ 0xEF then some ⟨b - 0xE0, 2, 0x80, 0xBF⟩
  else if b = 0xF0 then some ⟨0, 3, 0x90, 0xBF⟩
  else if 0xF1 ≤ b ∧ b ≤ 0xF3 then some ⟨b - 0xF0, 3, 0x80, 0xBF⟩
  else if b = 0xF4 then some ⟨4, 3, 0x80, 0x8F⟩
  else none

/-- Adds `following` continuation bytes to the bits read so far, the first of them between `low` and
`high`. -/
def continue? : (following : Nat) → (low high : Code) → (bits : Nat) → List Code → Option Code
  | 0, _, _, bits, _ => some bits
  | _ + 1, _, _, _, [] => none
  | following + 1, low, high, bits, b :: rest =>
    if low ≤ b ∧ b ≤ high then continue? following 0x80 0xBF (bits * 64 + (b - 0x80)) rest else none

/-- The first character of some bytes, and how many bytes follow its first one. -/
def first? : List Code → Option (Code × Nat)
  | [] => none
  | b :: rest =>
    match lead? b with
    | none => none
    | some l => (continue? l.following l.low l.high l.bits rest).map (·, l.following)

def decodeFrom (pos : Nat) (decoded : Array Code) (bytes : List Code) : Except Nat Text :=
  match bytes with
  | [] => .ok decoded.toList
  | b :: rest =>
    match first? (b :: rest) with
    | none => .error pos
    | some (c, following) =>
      decodeFrom (pos + 1 + following) (decoded.push c) (rest.drop following)
termination_by bytes.length
decreasing_by
  simp only [List.length_drop, List.length_cons]
  omega

/-- The characters of well-formed bytes, or the offset of the first byte that begins none. -/
def decode (bytes : List Code) : Except Nat Text := decodeFrom 0 #[] bytes

example : decode [0x41, 0xC3, 0xA9, 0xF0, 0x9F, 0x98, 0x80] = .ok [0x41, 0xE9, 0x1F600] := by
  cbv
example : decode [0x41, 0xED, 0xA0, 0x80] = .error 1 := by cbv
example : decode [0xE2, 0x82] = .error 0 := by cbv

end Rewind.Utf8
