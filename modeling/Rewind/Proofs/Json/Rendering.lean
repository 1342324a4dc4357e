import Mathlib.Data.List.Forall2
import Rewind.Text.Decimal
import Rewind.Proofs.Json.Levels

/-! # Renderings

How a program may write a value down: integers in decimal, the entries of an object in any order, white
space before and after every token, and strings as the dialect reads them.  With escapes a character has
several spellings, and a string may mix them.

A value holds for as long as it is rendered the same; read back, the entries of its objects may stand in
another order.  Floats have no rendering here. -/

namespace Rewind.Json

/-! ## Values -/

mutual

def depth : Json → Nat
  | .array items => depthItems items + 1
  | .object entries => depthEntries entries + 1
  | .null | .bool _ | .number _ | .string _ => 1

def depthItems : List Json → Nat
  | [] => 0
  | item :: items => max (depth item) (depthItems items)

def depthEntries : List (Text × Json) → Nat
  | [] => 0
  | (_, value) :: entries => max (depth value) (depthEntries entries)

end

theorem depth_le_depthItems {v : Json} {items : List Json} (member : v ∈ items) :
    v.depth ≤ depthItems items := by
  induction items with
  | nil => cases member
  | cons item items ih =>
    rw [depthItems]
    obtain rfl | later := List.mem_cons.1 member
    · exact Nat.le_max_left _ _
    · exact Nat.le_trans (ih later) (Nat.le_max_right _ _)

theorem depth_le_depthEntries {entry : Text × Json} {entries : List (Text × Json)}
    (member : entry ∈ entries) : entry.2.depth ≤ depthEntries entries := by
  induction entries with
  | nil => cases member
  | cons first entries ih =>
    rw [depthEntries]
    obtain rfl | later := List.mem_cons.1 member
    · exact Nat.le_max_left _ _
    · exact Nat.le_trans (ih later) (Nat.le_max_right _ _)

inductive Keyed (R : Json → Json → Prop) : Text × Json → Text × Json → Prop
  | intro {key : Text} {v w : Json} : R v w → Keyed R (key, v) (key, w)

inductive Alike : Json → Json → Prop
  | null : Alike .null .null
  | bool (b : Bool) : Alike (.bool b) (.bool b)
  | number (n : Number) : Alike (.number n) (.number n)
  | string (x : Text) : Alike (.string x) (.string x)
  | array {items items' : List Json} : List.Forall₂ Alike items items' →
      Alike (.array items) (.array items')
  | object {entries order entries' : List (Text × Json)} : entries.Perm order →
      List.Forall₂ (Keyed Alike) order entries' → Alike (.object entries) (.object entries')

/-! ## Spellings -/

namespace Rendering

open Syntax

def upperHex (c : Code) : Code := if c < 0x61 then c else c - 0x20

def Hex (c : Nat) (digits : Text) : Prop :=
  List.Forall₂ (fun digit lower => digit = lower ∨ digit = upperHex lower) digits (hexPadded 4 c)

instance (c : Nat) (digits : Text) : Decidable (Hex c digits) :=
  inferInstanceAs (Decidable (List.Forall₂ _ digits (hexPadded 4 c)))

def highHalf (c : Nat) : Nat := 0xD800 + (c - 0x10000) / 0x400

def lowHalf (c : Nat) : Nat := 0xDC00 + (c - 0x10000) % 0x400

theorem halves_of_astral {c : Nat} (astral : 0x10000 ≤ c) (bound : c ≤ 0x10FFFF) :
    Surrogate.isHigh (highHalf c) = true ∧ Surrogate.isLow (lowHalf c) = true ∧
      Surrogate.pair (highHalf c) (lowHalf c) = c := by
  have high : highHalf c = 0xD800 + (c - 0x10000) / 0x400 := rfl
  have low : lowHalf c = 0xDC00 + (c - 0x10000) % 0x400 := rfl
  have pair : 0x10000 + (highHalf c - 0xD800) * 0x400 + (lowHalf c - 0xDC00) = c := by omega
  refine ⟨Surrogate.isHigh_iff.2 ?_, Surrogate.isLow_iff.2 ?_, pair⟩
  · omega
  · omega

theorem astral_of_halves {high low : Nat} (first : Surrogate.isHigh high = true)
    (second : Surrogate.isLow low = true) :
    ∃ c, 0x10000 ≤ c ∧ c ≤ 0x10FFFF ∧ highHalf c = high ∧ lowHalf c = low := by
  have above := Surrogate.isHigh_iff.1 first
  have below := Surrogate.isLow_iff.1 second
  refine ⟨0x10000 + (high - 0xD800) * 0x400 + (low - 0xDC00), by omega, by omega, ?_, ?_⟩
  · rw [highHalf]
    omega
  · rw [lowHalf]
    omega

/-- The spellings of a character in a string with escapes. -/
inductive Spelling : Code → Text → Prop
  | raw {c : Code} : c ≠ 0x22 → c ≠ 0x5C → Spelling c [c]
  | short {letter c : Code} : (letter, c) ∈ Token.escapes → Spelling c [0x5C, letter]
  | numbered {c : Code} {digits : Text} : c < 0x10000 → Hex c digits →
      Spelling c (0x5C :: 0x75 :: digits)
  | halves {c : Code} {digits digits' : Text} : 0x10000 ≤ c → c ≤ 0x10FFFF →
      Hex (highHalf c) digits → Hex (lowHalf c) digits' →
      Spelling c ((0x5C :: 0x75 :: digits) ++ (0x5C :: 0x75 :: digits'))

/-- No high surrogate stands right before a low one. -/
def Unpaired (x : Text) : Prop :=
  x.IsChain fun c c' => ¬ (Surrogate.isHigh c = true ∧ Surrogate.isLow c' = true)

instance (x : Text) : Decidable (Unpaired x) :=
  inferInstanceAs (Decidable (x.IsChain fun c c' =>
    ¬ (Surrogate.isHigh c = true ∧ Surrogate.isLow c' = true)))

/-- A string between quotes: verbatim, or each character in one of its spellings. -/
inductive StringText (d : Dialect) : Text → Text → Prop
  | verbatim {x : Text} : d.decodeEscapes = false → (∀ c ∈ x, c ≠ 0x22) →
      StringText d (0x22 :: x ++ [0x22]) x
  | spelled {x : Text} {parts : List Text} : d.decodeEscapes = true → Unpaired x →
      List.Forall₂ Spelling x parts → StringText d (0x22 :: parts.flatten ++ [0x22]) x

inductive EntryText (d : Dialect) (Value : Text → Json → Prop) : Text → Text × Json → Prop
  | intro {key before after t : Text} {k : Text} {v : Json} : StringText d key k → Blank d before →
      Blank d after → Value t v → EntryText d Value (key ++ before ++ 0x3A :: after ++ t) (k, v)

/-- A value, from its first token to its last. -/
inductive ValueText (d : Dialect) : Text → Json → Prop
  | null : ValueText d (text "null") .null
  | true : ValueText d (text "true") (.bool true)
  | false : ValueText d (text "false") (.bool false)
  | int (i : Int) : ValueText d (decimal i) (.number (.int i))
  | string {t x : Text} : StringText d t x → ValueText d t (.string x)
  | array {before body after : Text} {items : List Json} : Blank d before →
      Separated d (ValueText d) body items → Blank d after →
      ValueText d (0x5B :: before ++ body ++ after ++ [0x5D]) (.array items)
  | object {before body after : Text} {entries order : List (Text × Json)} :
      (entries.map Prod.fst).Nodup → entries.Perm order → Blank d before →
      Separated d (EntryText d (ValueText d)) body order → Blank d after →
      ValueText d (0x7B :: before ++ body ++ after ++ [0x7D]) (.object entries)

end Rendering

def Rendering (d : Dialect) : Text → Json → Prop := Syntax.Padded d (Rendering.ValueText d)

end Rewind.Json
