import Mathlib
import Rewind.Position

/-! # Where an offset lies

A reader who goes through a buffer unit by unit knows the line and the column at each offset: a line
feed leads to the beginning of the next line, anything else to the next column.  Positions are computed
by a count and a search instead.  One offset further they change as the reader's place does, and from
that all else follows by induction on the offset.

Past the end there is nothing to read; there each offset is one column further. -/

namespace Rewind.Position

/-! ## The walk -/

def past (p : Position) (c : Code) : Position :=
  if c = lineFeed then { p with line := p.line + 1, column := 1 }
  else { p with column := p.column + 1 }

def walk (name : Text) (units : List Code) : Position := units.foldl past ⟨1, 1, name⟩

theorem walk_concat (name : Text) (units : List Code) (c : Code) :
    walk name (units ++ [c]) = (walk name units).past c := by
  simp [walk]

def further (p : Position) : Option Code → Position
  | some c => p.past c
  | none => { p with column := p.column + 1 }

/-! ## One offset further -/

theorem lastLineFeed_concat (units : List Code) (c : Code) :
    lastLineFeed (units ++ [c]) = if c = lineFeed then (units.length : Int) else lastLineFeed units := by
  rw [lastLineFeed, List.reverse_concat, List.findIdx?_cons]
  by_cases feed : c = lineFeed
  · simp [feed]
  · rw [lastLineFeed, if_neg (by simpa using feed), if_neg feed]
    cases units.reverse.findIdx? (· == lineFeed) with
    | none => rfl
    | some back =>
      simp only [Option.map_some, List.length_append, List.length_singleton]
      omega

theorem index_natCast (b : Buffer) (offset : Nat) : b.index offset = min offset b.size := by
  have natural : ¬ (offset : Int) < 0 := by omega
  rw [Buffer.index, if_neg natural, Int.toNat_natCast]

/-- The units that are looked at: those before the offset, all of them past the end. -/
theorem take_index (b : Buffer) (offset : Nat) :
    b.codes.take (b.index offset) = b.codes.take offset := by
  rw [index_natCast, ← Buffer.length_codes, ← List.take_take, List.take_length]

theorem ofOffset_eq (b : Buffer) (offset : Nat) (name : Text) :
    ofOffset b offset name =
      ⟨(b.codes.take offset).count lineFeed + 1, offset - lastLineFeed (b.codes.take offset), name⟩ := by
  rw [ofOffset, take_index]

theorem ofOffset_zero (b : Buffer) (name : Text) : ofOffset b (0 : Nat) name = ⟨1, 1, name⟩ := by
  rw [ofOffset_eq]
  rfl

theorem ofOffset_succ (b : Buffer) (offset : Nat) (name : Text) :
    ofOffset b (offset + 1 : Nat) name = (ofOffset b offset name).further b.codes[offset]? := by
  rw [ofOffset_eq, ofOffset_eq, List.take_add_one]
  cases next : b.codes[offset]? with
  | none =>
    simp only [Option.toList_none, List.append_nil, further, mk.injEq, true_and, and_true]
    omega
  | some c =>
    have inside : offset < b.codes.length := (List.getElem?_eq_some_iff.1 next).1
    have taken : (b.codes.take offset).length = offset := List.length_take_of_le (Nat.le_of_lt inside)
    rw [Option.toList_some, lastLineFeed_concat, List.count_append, taken]
    by_cases feed : c = lineFeed
    · simp only [further, past, feed, if_true, List.count_singleton_self, mk.injEq, and_true,
        true_and]
      omega
    · have none : [c].count lineFeed = 0 := List.count_eq_zero.2 (by simpa using Ne.symm feed)
      simp only [further, past, feed, if_false, none, Nat.add_zero, mk.injEq, and_true,
        true_and]
      omega

/-! ## Along the buffer -/

variable (b : Buffer) (name : Text)

theorem ofOffset_eq_walk {offset : Nat} (inside : offset ≤ b.size) :
    ofOffset b offset name = walk name (b.codes.take offset) := by
  induction offset with
  | zero => exact ofOffset_zero b name
  | succ offset ih =>
    rw [← Buffer.length_codes] at inside
    have next : b.codes[offset]? = some b.codes[offset] := List.getElem?_eq_getElem inside
    rw [ofOffset_succ, ih (Nat.le_of_succ_le inside), List.take_add_one, next, Option.toList_some,
      walk_concat, further]

/-- Lines and columns count from one. -/
theorem one_le_ofOffset (offset : Nat) :
    1 ≤ (ofOffset b offset name).line ∧ 1 ≤ (ofOffset b offset name).column := by
  induction offset with
  | zero =>
    rw [ofOffset_zero]
    exact ⟨Nat.le_refl 1, Int.le_refl 1⟩
  | succ offset ih =>
    rw [ofOffset_succ]
    cases b.codes[offset]? with
    | none => exact ⟨ih.1, Int.le_add_one ih.2⟩
    | some c =>
      rw [further, past]
      split
      · exact ⟨Nat.le_add_left 1 _, Int.le_refl 1⟩
      · exact ⟨ih.1, Int.le_add_one ih.2⟩

def coordinates (p : Position) : Nat ×ₗ Int := toLex (p.line, p.column)

theorem coordinates_lt_further (p : Position) (next : Option Code) :
    p.coordinates < (p.further next).coordinates := by
  rw [coordinates, coordinates, Prod.Lex.toLex_lt_toLex]
  cases next with
  | none => exact .inr ⟨rfl, Int.lt_succ p.column⟩
  | some c =>
    rw [further, past]
    split
    · exact .inl (Nat.lt_succ_self p.line)
    · exact .inr ⟨rfl, Int.lt_succ p.column⟩

theorem strictMono_coordinates : StrictMono fun offset : Nat => (ofOffset b offset name).coordinates :=
  strictMono_nat_of_lt_succ fun offset => by
    rw [ofOffset_succ]
    exact coordinates_lt_further _ _

/-- The position of an offset is where a reader comes to who goes through all units before it.  It has
a line and a column, past the end too, and one that is further on than that of any smaller offset, so
it tells which offset it is that of. -/
theorem ofOffset_walks :
    (∀ offset ≤ b.size, ofOffset b offset name = walk name (b.codes.take offset)) ∧
    (∀ offset : Nat, 1 ≤ (ofOffset b offset name).line ∧ 1 ≤ (ofOffset b offset name).column) ∧
    (∀ o₁ o₂ : Nat, o₁ < o₂ →
      (ofOffset b o₁ name).line < (ofOffset b o₂ name).line ∨
        (ofOffset b o₁ name).line = (ofOffset b o₂ name).line ∧
          (ofOffset b o₁ name).column < (ofOffset b o₂ name).column) ∧
    Function.Injective fun offset : Nat =>
      ((ofOffset b offset name).line, (ofOffset b offset name).column) := by
  have increasing := strictMono_coordinates b name
  refine ⟨fun offset inside => ofOffset_eq_walk b name inside, one_le_ofOffset b name, ?_, ?_⟩
  · intro o₁ o₂ before
    exact Prod.Lex.toLex_lt_toLex.1 (increasing before)
  · intro o₁ o₂ same
    exact increasing.injective (congrArg toLex same)

/-- On a line feed and right after it, and past the end of a buffer of bytes. -/
theorem ofOffset_walks_of_lines :
    let b : Buffer := ⟨.bytes, #[0x61, lineFeed, lineFeed, 0x62]⟩
    let p (offset : Nat) := ofOffset b offset []
    1 ≤ b.size ∧ p 1 = walk [] [0x61] ∧ p 1 = ⟨1, 2, []⟩ ∧
      1 < 2 ∧ ((p 1).line < (p 2).line ∨ (p 1).line = (p 2).line ∧ (p 1).column < (p 2).column) ∧
      4 < 9 ∧ ((p 4).line < (p 9).line ∨ (p 4).line = (p 9).line ∧ (p 4).column < (p 9).column) ∧
      p 9 = ⟨3, 7, []⟩ := by
  intro b p
  obtain ⟨walks, -, increasing, -⟩ := ofOffset_walks b []
  have inside : 1 ≤ b.size := by decide
  exact ⟨inside, walks 1 inside, by decide, by decide, increasing 1 2 (by decide), by decide,
    increasing 4 9 (by decide), by decide⟩

end Rewind.Position
