import Rewind.Text.Utf8

/-! # Decoding inverts encoding

UTF-8 said from the side of the characters: which characters there are, and the bytes of each in its
shortest form.  The decoder reads off the first character exactly where the bytes of one come next.  So
well-formed bytes decode to the text that they encode, and of other bytes the decoder reports the end of
the longest part that is well formed. -/

namespace Rewind.Utf8

/-! ## Encoding -/

/-- A character that has an encoding: no surrogate, and at most `0x10FFFF`. -/
def IsScalar (c : Nat) : Prop := c < 0xD800 ∨ (0xE000 ≤ c ∧ c ≤ 0x10FFFF)

instance (c : Nat) : Decidable (IsScalar c) :=
  inferInstanceAs (Decidable (c < 0xD800 ∨ (0xE000 ≤ c ∧ c ≤ 0x10FFFF)))

def encodeChar (c : Nat) : List Code :=
  if c ≤ 0x7F then [c]
  else if c ≤ 0x7FF then [0xC0 + c / 64, 0x80 + c % 64]
  else if c ≤ 0xFFFF then [0xE0 + c / 4096, 0x80 + c / 64 % 64, 0x80 + c % 64]
  else [0xF0 + c / 262144, 0x80 + c / 4096 % 64, 0x80 + c / 64 % 64, 0x80 + c % 64]

def Encodes (bytes : List Code) (t : Text) : Prop :=
  (∀ c ∈ t, IsScalar c) ∧ bytes = t.flatMap encodeChar

def WellFormed (bytes : List Code) : Prop := ∃ t, Encodes bytes t

theorem encodes_nil : Encodes [] [] := ⟨nofun, rfl⟩

theorem encodes_cons {c : Code} {t : Text} {bytes : List Code} :
    Encodes bytes (c :: t) ↔
      IsScalar c ∧ ∃ rest, Encodes rest t ∧ bytes = encodeChar c ++ rest := by
  simp only [Encodes, List.forall_mem_cons, List.flatMap_cons]
  constructor
  · rintro ⟨⟨scalar, others⟩, rfl⟩
    exact ⟨scalar, _, ⟨others, rfl⟩, rfl⟩
  · rintro ⟨scalar, _, ⟨others, rfl⟩, rfl⟩
    exact ⟨⟨scalar, others⟩, rfl⟩

theorem length_encodeChar_pos (c : Nat) : 0 < (encodeChar c).length := by
  simp only [encodeChar]
  split
  · exact Nat.succ_pos _
  · split
    · exact Nat.succ_pos _
    · split <;> exact Nat.succ_pos _

/-! ## The first character

The decoder adds up the bits that each byte contributes: six for each byte after the first. -/

theorem encodeChar_one {a : Nat} (last : a < 128) : encodeChar a = [a] :=
  if_pos (Nat.le_of_lt_succ last)

theorem encodeChar_two {a b : Nat} (first : 2 ≤ a) (last : a < 32) (tail : b < 64) :
    encodeChar (a * 64 + b) = [0xC0 + a, 0x80 + b] := by
  have longer : ¬ a * 64 + b ≤ 0x7F := by omega
  have short : a * 64 + b ≤ 0x7FF := by omega
  have lead : (a * 64 + b) / 64 = a := by omega
  have low : (a * 64 + b) % 64 = b := by omega
  rw [encodeChar, if_neg longer, if_pos short, lead, low]

theorem encodeChar_three {a b c : Nat} (first : 32 ≤ a * 64 + b) (last : a < 16) (mid : b < 64)
    (tail : c < 64) : encodeChar ((a * 64 + b) * 64 + c) = [0xE0 + a, 0x80 + b, 0x80 + c] := by
  have longer : ¬ (a * 64 + b) * 64 + c ≤ 0x7FF := by omega
  have longer' : ¬ (a * 64 + b) * 64 + c ≤ 0x7F := by omega
  have short : (a * 64 + b) * 64 + c ≤ 0xFFFF := by omega
  have lead : ((a * 64 + b) * 64 + c) / 4096 = a := by omega
  have high : ((a * 64 + b) * 64 + c) / 64 % 64 = b := by omega
  have low : ((a * 64 + b) * 64 + c) % 64 = c := by omega
  rw [encodeChar, if_neg longer', if_neg longer, if_pos short, lead, high, low]

theorem encodeChar_four {a b c d : Nat} (first : 16 ≤ a * 64 + b) (mid : b < 64) (mid' : c < 64)
    (tail : d < 64) :
    encodeChar (((a * 64 + b) * 64 + c) * 64 + d) = [0xF0 + a, 0x80 + b, 0x80 + c, 0x80 + d] := by
  have longer : ¬ ((a * 64 + b) * 64 + c) * 64 + d ≤ 0xFFFF := by omega
  have longer' : ¬ ((a * 64 + b) * 64 + c) * 64 + d ≤ 0x7FF := by omega
  have longer'' : ¬ ((a * 64 + b) * 64 + c) * 64 + d ≤ 0x7F := by omega
  have lead : (((a * 64 + b) * 64 + c) * 64 + d) / 262144 = a := by omega
  have high : (((a * 64 + b) * 64 + c) * 64 + d) / 4096 % 64 = b := by omega
  have high' : (((a * 64 + b) * 64 + c) * 64 + d) / 64 % 64 = c := by omega
  have low : (((a * 64 + b) * 64 + c) * 64 + d) % 64 = d := by omega
  rw [encodeChar, if_neg longer'', if_neg longer', if_neg longer, lead, high, high', low]

/-- One more byte within the range, in terms of the bits that it adds. -/
theorem continue?_succ {following low high bits : Nat} {bytes : List Code} {c : Nat}
    (least : 0x80 ≤ low) (found : continue? (following + 1) low high bits bytes = some c) :
    ∃ (x : Nat) (rest : List Code), bytes = (0x80 + x) :: rest ∧ low ≤ 0x80 + x ∧ 0x80 + x ≤ high ∧
      continue? following 0x80 0xBF (bits * 64 + x) rest = some c := by
  cases bytes with
  | nil => cases found
  | cons b rest =>
    simp only [continue?] at found
    split at found
    case isTrue inside =>
      obtain ⟨x, rfl⟩ := Nat.exists_eq_add_of_le (Nat.le_trans least inside.1)
      rw [Nat.add_sub_cancel_left] at found
      exact ⟨x, rest, rfl, inside.1, inside.2, found⟩
    case isFalse => cases found

theorem continue?_one {low high bits : Nat} {bytes : List Code} {c : Nat}
    (least : 0x80 ≤ low) (found : continue? 1 low high bits bytes = some c) :
    ∃ (x : Nat) (rest : List Code), bytes = (0x80 + x) :: rest ∧ low ≤ 0x80 + x ∧ 0x80 + x ≤ high ∧
      c = bits * 64 + x := by
  obtain ⟨x, rest, same, above, below, last⟩ := continue?_succ least found
  exact ⟨x, rest, same, above, below, (Option.some.inj last).symm⟩

theorem continue?_two {low high bits : Nat} {bytes : List Code} {c : Nat}
    (least : 0x80 ≤ low) (found : continue? 2 low high bits bytes = some c) :
    ∃ (x y : Nat) (rest : List Code), bytes = (0x80 + x) :: (0x80 + y) :: rest ∧ low ≤ 0x80 + x ∧
      0x80 + x ≤ high ∧ y < 64 ∧ c = (bits * 64 + x) * 64 + y := by
  obtain ⟨x, _, rfl, above, below, more⟩ := continue?_succ least found
  obtain ⟨y, rest, rfl, _, tail, last⟩ := continue?_one (Nat.le_refl _) more
  exact ⟨x, y, rest, rfl, above, below, by omega, last⟩

theorem continue?_three {low high bits : Nat} {bytes : List Code} {c : Nat}
    (least : 0x80 ≤ low) (found : continue? 3 low high bits bytes = some c) :
    ∃ (x y z : Nat) (rest : List Code), bytes = (0x80 + x) :: (0x80 + y) :: (0x80 + z) :: rest ∧
      low ≤ 0x80 + x ∧ 0x80 + x ≤ high ∧ y < 64 ∧ z < 64 ∧
      c = ((bits * 64 + x) * 64 + y) * 64 + z := by
  obtain ⟨x, _, rfl, above, below, more⟩ := continue?_succ least found
  obtain ⟨y, z, rest, rfl, _, mid, tail, last⟩ := continue?_two (Nat.le_refl _) more
  exact ⟨x, y, z, rest, rfl, above, below, by omega, tail, last⟩

/-- The table of first bytes, by how many bytes follow. -/
theorem lead?_eq_some {b : Nat} {l : Lead} (row : lead? b = some l) :
    (b < 0x80 ∧ l = ⟨b, 0, 0x80, 0xBF⟩) ∨
    (∃ a : Nat, 2 ≤ a ∧ a < 32 ∧ b = 0xC0 + a ∧ l = ⟨a, 1, 0x80, 0xBF⟩) ∨
    (∃ a low high : Nat, a < 16 ∧ b = 0xE0 + a ∧ l = ⟨a, 2, low, high⟩ ∧ 0x80 ≤ low ∧ high ≤ 0xBF ∧
      (a = 0 → low = 0xA0) ∧ (a = 13 → high = 0x9F)) ∨
    (∃ a low high : Nat, a < 5 ∧ b = 0xF0 + a ∧ l = ⟨a, 3, low, high⟩ ∧ 0x80 ≤ low ∧ high ≤ 0xBF ∧
      (a = 0 → low = 0x90) ∧ (a = 4 → high = 0x8F)) := by
  -- One split for each row of the table, in its order.
  unfold lead? Code at row
  split at row
  · exact .inl ⟨by omega, (Option.some.inj row).symm⟩
  split at row
  · refine .inr (.inl ⟨b - 0xC0, ?_, ?_, ?_, (Option.some.inj row).symm⟩) <;> omega
  split at row
  · refine .inr (.inr (.inl ⟨0, 0xA0, 0xBF, ?_, ?_, (Option.some.inj row).symm, ?_⟩)) <;> omega
  split at row
  · refine .inr (.inr (.inl ⟨0xD, 0x80, 0x9F, ?_, ?_, (Option.some.inj row).symm, ?_⟩)) <;> omega
  split at row
  · refine .inr (.inr (.inl ⟨b - 0xE0, 0x80, 0xBF, ?_, ?_, (Option.some.inj row).symm, ?_⟩)) <;> omega
  split at row
  · refine .inr (.inr (.inr ⟨0, 0x90, 0xBF, ?_, ?_, (Option.some.inj row).symm, ?_⟩)) <;> omega
  split at row
  · refine .inr (.inr (.inr ⟨b - 0xF0, 0x80, 0xBF, ?_, ?_, (Option.some.inj row).symm, ?_⟩)) <;> omega
  split at row
  · refine .inr (.inr (.inr ⟨4, 0x80, 0x8F, ?_, ?_, (Option.some.inj row).symm, ?_⟩)) <;> omega
  · cases row

/-- What the decoder takes for a character is the encoding of one. -/
theorem encodeChar_of_first? {bytes : List Code} {c following : Nat}
    (found : first? bytes = some (c, following)) :
    IsScalar c ∧ (encodeChar c).length = following + 1 ∧ encodeChar c <+: bytes := by
  cases bytes with
  | nil => cases found
  | cons b rest =>
    simp only [first?] at found
    split at found
    case h_1 => cases found
    case h_2 l row =>
      simp only [Option.map_eq_some_iff, Prod.mk.injEq] at found
      obtain ⟨_, more, rfl, rfl⟩ := found
      obtain ⟨last, rfl⟩ | ⟨a, first, last, rfl, rfl⟩ |
        ⟨a, low, high, last, rfl, rfl, least, greatest, long, surrogate⟩ |
        ⟨a, low, high, last, rfl, rfl, least, greatest, long, large⟩ := lead?_eq_some row
      -- The bounds on the second byte are what excludes surrogates and encodings that are too long.
      all_goals dsimp only at more
      · cases more
        rw [encodeChar_one last]
        exact ⟨.inl (by omega), rfl, rest, rfl⟩
      · obtain ⟨x, tail, rfl, _, below, rfl⟩ := continue?_one (Nat.le_refl _) more
        rw [encodeChar_two first last (by omega)]
        exact ⟨.inl (by omega), rfl, tail, rfl⟩
      · obtain ⟨x, y, tail, rfl, above, below, mid, rfl⟩ := continue?_two least more
        rw [encodeChar_three (by omega) last (by omega) mid]
        exact ⟨by simp only [IsScalar]; omega, rfl, tail, rfl⟩
      · obtain ⟨x, y, z, tail, rfl, above, below, mid, mid', rfl⟩ := continue?_three least more
        rw [encodeChar_four (by omega) (by omega) mid mid']
        exact ⟨.inr (by omega), rfl, tail, rfl⟩

theorem lead?_two : ∀ a : Nat, a < 32 → 2 ≤ a → lead? (0xC0 + a) = some ⟨a, 1, 0x80, 0xBF⟩ := by decide

theorem lead?_three : ∀ a : Nat, a < 16 → lead? (0xE0 + a) =
    some ⟨a, 2, if a = 0 then 0xA0 else 0x80, if a = 13 then 0x9F else 0xBF⟩ := by decide

theorem lead?_four : ∀ a : Nat, a < 5 → lead? (0xF0 + a) =
    some ⟨a, 3, if a = 0 then 0x90 else 0x80, if a = 4 then 0x8F else 0xBF⟩ := by decide

theorem continue?_cons {following low high bits x : Nat} (rest : List Code) (above : low ≤ 0x80 + x)
    (below : 0x80 + x ≤ high) :
    continue? (following + 1) low high bits ((0x80 + x) :: rest) =
      continue? following 0x80 0xBF (bits * 64 + x) rest := by
  have inside : low ≤ 0x80 + x ∧ 0x80 + x ≤ high := ⟨above, below⟩
  rw [continue?, if_pos inside, Nat.add_sub_cancel_left]

/-- The encoding of a character is taken for it, whatever comes after. -/
theorem first?_encodeChar {c : Nat} (scalar : IsScalar c) (rest : List Code) :
    first? (encodeChar c ++ rest) = some (c, (encodeChar c).length - 1) := by
  have below : c ≤ 0x10FFFF := by
    simp only [IsScalar] at scalar
    omega
  by_cases one : c < 0x80
  · have row : lead? c = some ⟨c, 0, 0x80, 0xBF⟩ := if_pos (Nat.le_of_lt_succ one)
    rw [encodeChar_one one]
    simp only [List.cons_append, List.nil_append, first?, row]
    rfl
  by_cases two : c < 0x800
  · obtain ⟨a, x, rfl, low⟩ : ∃ a x, c = a * 64 + x ∧ x < 64 :=
      ⟨c / 64, c % 64, by omega, by omega⟩
    have row := lead?_two a (by omega) (by omega)
    rw [encodeChar_two (by omega) (by omega) low]
    simp only [List.cons_append, List.nil_append, first?, row]
    rw [continue?_cons _ (by omega) (by omega)]
    rfl
  by_cases three : c < 0x10000
  · obtain ⟨a, x, y, rfl, mid, low⟩ : ∃ a x y, c = (a * 64 + x) * 64 + y ∧ x < 64 ∧ y < 64 :=
      ⟨c / 64 / 64, c / 64 % 64, c % 64, by omega, by omega, by omega⟩
    have row := lead?_three a (by omega)
    have above : (if a = 0 then 0xA0 else 0x80) ≤ 0x80 + x := by split <;> omega
    -- Only a surrogate would go beyond this.
    have within : 0x80 + x ≤ if a = 13 then 0x9F else 0xBF := by
      simp only [IsScalar] at scalar
      split <;> omega
    rw [encodeChar_three (by omega) (by omega) mid low]
    simp only [List.cons_append, List.nil_append, first?, row]
    rw [continue?_cons _ above within, continue?_cons _ (by omega) (by omega)]
    rfl
  · obtain ⟨a, x, y, z, rfl, mid, mid', low⟩ : ∃ a x y z, c = ((a * 64 + x) * 64 + y) * 64 + z ∧
        x < 64 ∧ y < 64 ∧ z < 64 :=
      ⟨c / 64 / 64 / 64, c / 64 / 64 % 64, c / 64 % 64, c % 64, by omega, by omega, by omega,
        by omega⟩
    have row := lead?_four a (by omega)
    have above : (if a = 0 then 0x90 else 0x80) ≤ 0x80 + x := by split <;> omega
    have within : 0x80 + x ≤ if a = 4 then 0x8F else 0xBF := by split <;> omega
    rw [encodeChar_four (by omega) mid mid' low]
    simp only [List.cons_append, List.nil_append, first?, row]
    rw [continue?_cons _ above within, continue?_cons _ (by omega) (by omega),
      continue?_cons _ (by omega) (by omega)]
    rfl

/-! ## Whole texts -/

/-- No two texts have the same bytes, not even up to what comes after a character. -/
theorem encodeChar_inj {c c' : Nat} {rest rest' : List Code} (scalar : IsScalar c)
    (scalar' : IsScalar c') (same : encodeChar c ++ rest = encodeChar c' ++ rest') :
    c = c' ∧ rest = rest' := by
  have first := first?_encodeChar scalar rest
  rw [same, first?_encodeChar scalar' rest'] at first
  obtain rfl : c' = c := (Prod.mk.inj (Option.some.inj first)).1
  exact ⟨rfl, List.append_cancel_left same⟩

theorem decodeFrom_encodes {bytes : List Code} {t : Text} (encodes : Encodes bytes t) (pos : Nat)
    (decoded : Array Code) : decodeFrom pos decoded bytes = .ok (decoded.toList ++ t) := by
  induction t generalizing bytes pos decoded with
  | nil =>
    obtain ⟨_, rfl⟩ := encodes
    simp [decodeFrom]
  | cons c t ih =>
    obtain ⟨scalar, rest, more, rfl⟩ := encodes_cons.1 encodes
    have first := first?_encodeChar scalar rest
    obtain ⟨b, tails, bytes⟩ := List.exists_cons_of_length_pos (length_encodeChar_pos c)
    have length : (encodeChar c).length - 1 = tails.length := by simp [bytes]
    rw [length, bytes] at first
    rw [bytes, List.cons_append, decodeFrom]
    simp only [List.cons_append] at first
    simp only [first, List.drop_left, ih more]
    simp

/-- Well-formed bytes up to `n`, where no character comes next. -/
structure Stuck (bytes : List Code) (n : Nat) : Prop where
  inside : n < bytes.length
  wellFormed : WellFormed (bytes.take n)
  none : ∀ c, IsScalar c → ¬ encodeChar c <+: bytes.drop n

/-- The decoder comes to the end of the bytes, or to where no character comes next. -/
theorem decodeFrom_eq_error (pos : Nat) (decoded : Array Code) (bytes : List Code) :
    WellFormed bytes ∨ ∃ n, Stuck bytes n ∧ decodeFrom pos decoded bytes = .error (pos + n) := by
  fun_induction decodeFrom pos decoded bytes with
  | case1 => exact .inl ⟨[], encodes_nil⟩
  | case2 pos decoded b rest none =>
    refine .inr ⟨0, ⟨Nat.succ_pos _, ⟨[], encodes_nil⟩, ?_⟩, rfl⟩
    rintro c scalar ⟨tail, whole⟩
    rw [List.drop_zero] at whole
    rw [← whole, first?_encodeChar scalar] at none
    cases none
  | case3 pos decoded b rest c following found ih =>
    obtain ⟨scalar, length, tail, whole⟩ := encodeChar_of_first? found
    -- What is left after the character is what is left after the bytes that follow its first.
    have left : rest.drop following = tail := by
      have drop := congrArg (List.drop (following + 1)) whole
      rw [← length, List.drop_left, length] at drop
      exact drop.symm
    rw [left] at ih ⊢
    obtain ⟨t, encodes⟩ | ⟨n, ⟨inside, ⟨t, encodes⟩, none⟩, fails⟩ := ih
    · exact .inl ⟨c :: t, encodes_cons.2 ⟨scalar, tail, encodes, whole.symm⟩⟩
    · refine .inr ⟨(encodeChar c).length + n, ⟨?_, ⟨c :: t, ?_⟩, ?_⟩, ?_⟩
      · rw [← whole, List.length_append]
        omega
      · rw [← whole, List.take_length_add_append]
        exact encodes_cons.2 ⟨scalar, _, encodes, rfl⟩
      · rw [← whole, List.drop_length_add_append]
        exact none
      · rw [fails, length]
        congr 1
        omega

/-- Where no character comes next, no longer part from the start is well formed. -/
theorem length_le_of_none {front back front' back' : List Code} {t u : Text}
    (none : ∀ c, IsScalar c → ¬ encodeChar c <+: back) (encodes : Encodes front t)
    (encodes' : Encodes front' u) (same : front' ++ back' = front ++ back) :
    front'.length ≤ front.length := by
  induction t generalizing front front' u with
  | nil =>
    obtain ⟨_, rfl⟩ := encodes
    cases u with
    | nil => exact Nat.le_of_eq (congrArg List.length encodes'.2)
    | cons c u =>
      obtain ⟨scalar, rest, _, rfl⟩ := encodes_cons.1 encodes'
      rw [List.append_assoc] at same
      exact absurd ⟨_, same⟩ (none c scalar)
  | cons c t ih =>
    cases u with
    | nil =>
      obtain ⟨_, rfl⟩ := encodes'
      exact Nat.zero_le _
    | cons c' u =>
      -- Both begin with the same character, after which the same is left.
      obtain ⟨scalar, rest, more, rfl⟩ := encodes_cons.1 encodes
      obtain ⟨scalar', rest', more', rfl⟩ := encodes_cons.1 encodes'
      rw [List.append_assoc, List.append_assoc] at same
      obtain ⟨rfl, left⟩ := encodeChar_inj scalar' scalar same
      have shorter := ih more more' left
      rw [List.length_append, List.length_append]
      omega

theorem Stuck.le {bytes : List Code} {n m : Nat} (stuck : Stuck bytes n) (bound : m ≤ bytes.length)
    (wellFormed : WellFormed (bytes.take m)) : m ≤ n := by
  obtain ⟨inside, ⟨t, encodes⟩, none⟩ := stuck
  obtain ⟨u, encodes'⟩ := wellFormed
  have same : bytes.take m ++ bytes.drop m = bytes.take n ++ bytes.drop n := by
    rw [List.take_append_drop, List.take_append_drop]
  have shorter := length_le_of_none none encodes encodes' same
  rwa [List.length_take_of_le bound, List.length_take_of_le (Nat.le_of_lt inside)] at shorter

/-- Well-formed bytes decode to the text that they encode. -/
theorem decode_eq_ok {bytes : List Code} {t : Text} (encodes : Encodes bytes t) :
    decode bytes = .ok t :=
  decodeFrom_encodes encodes 0 #[]

/-- Of bytes that are not well formed, the decoder reports where their longest well-formed part
ends. -/
theorem exists_decode_eq_error {bytes : List Code} (illFormed : ¬ WellFormed bytes) :
    ∃ k, Stuck bytes k ∧ decode bytes = .error k := by
  obtain wellFormed | ⟨k, stuck, fails⟩ := decodeFrom_eq_error 0 #[] bytes
  · exact absurd wellFormed illFormed
  · rw [Nat.zero_add] at fails
    exact ⟨k, stuck, fails⟩

end Rewind.Utf8
