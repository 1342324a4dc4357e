/-! # Buffers

A parser reads a `Buffer`: either text, whose units are code points, or raw bytes, whose units are
bytes.  Both are kept as one array of natural numbers together with their `Kind`, so every operation
below treats the two alike and a slice of a buffer is a buffer of the same kind.

The view that the rest of the library reasons about is `Buffer.rest`: the list of units from an
offset to the end.  Each operation has one lemma that says what it does to that view.
-/

namespace Rewind

abbrev Code := Nat

/-- Text as a list of code points.  Surrogates may stand alone, so this is wider than `String`. -/
abbrev Text := List Code

def text (s : String) : Text := s.toList.map Char.toNat

inductive Kind where
  | text
  | bytes
  deriving DecidableEq, Repr

/-- A finite sequence of code points or of bytes. -/
structure Buffer where
  kind : Kind
  units : Array Code
  deriving DecidableEq, Repr

namespace Buffer

/-! ## Construction and size -/

def ofText (t : Text) : Buffer := ⟨.text, t.toArray⟩

def codes (b : Buffer) : List Code := b.units.toList

def size (b : Buffer) : Nat := b.units.size

def isEmpty (b : Buffer) : Bool := b.size == 0

@[simp] theorem codes_ofText (t : Text) : (ofText t).codes = t := by simp [ofText, codes]

@[simp] theorem length_codes (b : Buffer) : b.codes.length = b.size := by simp [codes, size]

theorem size_ofText (t : Text) : (ofText t).size = t.length := by simp [ofText, size]

theorem ofText_codes {b : Buffer} (kind : b.kind = .text) : ofText b.codes = b := by
  obtain ⟨_, units⟩ := b
  obtain rfl : _ = Kind.text := kind
  simp [ofText, codes]

theorem isEmpty_iff (b : Buffer) : b.isEmpty = true ↔ b.codes = [] := by
  simp [isEmpty, ← length_codes]

/-! ## Slices -/

/-- The units from `start` up to `stop`, both cut off at the end of the buffer. -/
def slice (b : Buffer) (start stop : Nat) : Buffer := ⟨b.kind, b.units.extract start stop⟩

def rest (b : Buffer) (pos : Nat) : List Code := b.codes.drop pos

/-- The index that a signed offset stands for: a negative one counts from the end, and either is
cut off at the ends of the buffer. -/
def index (b : Buffer) (i : Int) : Nat :=
  if i < 0 then (b.size + i).toNat else min i.toNat b.size

@[simp] theorem kind_slice (b : Buffer) (start stop : Nat) : (b.slice start stop).kind = b.kind :=
  rfl

@[simp] theorem rest_zero (b : Buffer) : b.rest 0 = b.codes := by simp [rest]

theorem rest_add (b : Buffer) (pos n : Nat) : b.rest (pos + n) = (b.rest pos).drop n := by
  simp [rest, List.drop_drop]

@[simp] theorem length_rest (b : Buffer) (pos : Nat) : (b.rest pos).length = b.size - pos := by
  simp [rest]

theorem rest_eq_nil_iff (b : Buffer) (pos : Nat) : b.rest pos = [] ↔ b.size ≤ pos := by
  simp [rest, ← length_codes, List.drop_eq_nil_iff]

theorem rest_eq_cons (b : Buffer) {pos : Nat} (h : pos < b.units.size) :
    b.rest pos = b.units[pos] :: b.rest (pos + 1) :=
  List.drop_eq_getElem_cons h

theorem codes_slice (b : Buffer) (start stop : Nat) :
    (b.slice start stop).codes = (b.rest start).take (stop - start) := by
  simp [slice, codes, rest, List.extract_eq_take_drop]

theorem getElem?_units (b : Buffer) (pos : Nat) : b.units[pos]? = (b.rest pos).head? := by
  simp [rest, codes, List.head?_drop]

/-! ## Looking ahead -/

/-- The next `n` units from `pos`, fewer near the end, and `none` when that is no unit at all. -/
def upcoming (b : Buffer) (pos n : Nat) : Option Buffer :=
  let next := b.slice pos (pos + n)
  if next.isEmpty then none else some next

/-- Whether the units of `literal` stand at `pos`.  Nothing stands past the end, not even the empty
literal. -/
def startsWith (b : Buffer) (pos : Nat) (literal : List Code) : Bool :=
  pos ≤ b.size && (b.slice pos (pos + literal.length)).codes == literal

def runEnd (b : Buffer) (p : Code → Bool) (pos : Nat) : Nat :=
  if h : pos < b.units.size then
    if p b.units[pos] then b.runEnd p (pos + 1) else pos
  else pos
termination_by b.units.size - pos

theorem upcoming_eq (b : Buffer) (pos n : Nat) :
    b.upcoming pos n =
      if (b.rest pos).take n = [] then none else some (b.slice pos (pos + n)) := by
  simp only [upcoming, isEmpty_iff, codes_slice, Nat.add_sub_cancel_left]

theorem upcoming_one (b : Buffer) (pos : Nat) :
    b.upcoming pos 1 = b.units[pos]?.map fun _ => b.slice pos (pos + 1) := by
  rw [upcoming_eq, getElem?_units]
  cases b.rest pos <;> simp

theorem upcoming_one_text {b : Buffer} (kind : b.kind = .text) (pos : Nat) :
    b.upcoming pos 1 = (b.rest pos).head?.map fun c => ofText [c] := by
  have piece : ofText (b.slice pos (pos + 1)).codes = b.slice pos (pos + 1) := ofText_codes kind
  rw [codes_slice, Nat.add_sub_cancel_left] at piece
  rw [upcoming_eq, ← piece]
  cases b.rest pos <;> simp

theorem startsWith_iff (b : Buffer) (pos : Nat) (literal : List Code) :
    b.startsWith pos literal = true ↔ pos ≤ b.size ∧ literal <+: b.rest pos := by
  rw [startsWith, codes_slice, Nat.add_sub_cancel_left, Bool.and_eq_true, decide_eq_true_eq,
    beq_iff_eq, List.prefix_iff_eq_take, eq_comm (a := literal)]

theorem startsWith_nil {b : Buffer} {pos : Nat} (inside : pos ≤ b.size) :
    b.startsWith pos [] = true :=
  (b.startsWith_iff pos []).2 ⟨inside, List.nil_prefix⟩

/-- A run ends after the longest prefix of the view whose units all satisfy `p`. -/
theorem runEnd_eq (b : Buffer) (p : Code → Bool) (pos : Nat) :
    b.runEnd p pos = pos + ((b.rest pos).takeWhile p).length := by
  fun_induction b.runEnd p pos with
  | case1 pos h hp ih =>
    simp [ih, b.rest_eq_cons h, hp]
    omega
  | case2 pos h hp => simp [b.rest_eq_cons h, hp]
  | case3 pos h =>
    have : b.rest pos = [] := (b.rest_eq_nil_iff pos).2 (by simpa [size] using h)
    simp [this]

end Buffer

end Rewind
