import Rewind.Proofs.Json.RoundTrip

/-! # Strings with escapes

What a string with escapes is, character by character: a text between quotes in which each character
stands for itself or is escaped, by a letter or by its number.  Two of the characters may be the halves
of a third one; where they follow each other, however each is spelled, the third takes their place.

The rule reads runs of plain characters at once and joins halves at the end, and none of that shows. -/

namespace Rewind.Json

open Rewind.Parser Syntax Rendering

/-! ## Surrogates -/

/-- The second text is the first one with the two halves of every character above `0xFFFF` put together,
from left to right, and everything else, halves that stand alone included, as it is. -/
inductive Joined : Text → Text → Prop
  | nil : Joined [] []
  | pair {c : Nat} {t x : Text} : 0x10000 ≤ c → c ≤ 0x10FFFF → Joined t x →
      Joined (highHalf c :: lowHalf c :: t) (c :: x)
  | single {c : Code} {t x : Text} :
      (∀ c' ∈ t.head?, ¬ (Surrogate.isHigh c = true ∧ Surrogate.isLow c' = true)) → Joined t x →
      Joined (c :: t) (c :: x)

theorem joined_join (t : Text) : Joined t (Surrogate.join t) := by
  fun_induction Surrogate.join t with
  | case1 high low rest halves ih =>
    rw [Bool.and_eq_true] at halves
    obtain ⟨c, astral, bound, rfl, rfl⟩ := astral_of_halves halves.1 halves.2
    rw [(halves_of_astral astral bound).2.2]
    exact .pair astral bound ih
  | case2 high low rest apart ih =>
    refine .single ?_ ih
    rintro _ ⟨⟩ halves
    exact apart (Bool.and_eq_true _ _ ▸ halves)
  | case3 t short =>
    match t with
    | [] => exact .nil
    | [c] => exact .single nofun .nil
    | high :: low :: rest => exact absurd rfl (short high low rest)

theorem Joined.eq_join {t x : Text} (joined : Joined t x) : x = Surrogate.join t := by
  induction joined with
  | nil => rfl
  | pair astral bound _ ih =>
    obtain ⟨high, low, pair⟩ := halves_of_astral astral bound
    rw [Surrogate.join_pair high low, pair, ih]
  | single apart _ ih => rw [Surrogate.join_cons apart, ih]

/-- What begins a joined text began the text, unless it is a character above `0xFFFF`. -/
theorem Joined.head {t x : Text} (joined : Joined t x) {c : Code} (first : c ∈ x.head?)
    (low : Surrogate.isLow c = true) : c ∈ t.head? := by
  cases joined with
  | nil => exact first
  | pair astral _ _ =>
    cases first
    have bounds := Surrogate.isLow_iff.1 low
    omega
  | single _ _ => exact first

theorem Joined.unpaired {t x : Text} (joined : Joined t x) : Unpaired x := by
  induction joined with
  | nil => exact .nil
  | pair astral _ _ ih =>
    refine List.isChain_cons.2 ⟨?_, ih⟩
    rintro c' _ ⟨high, _⟩
    have bounds := Surrogate.isHigh_iff.1 high
    omega
  | single apart joined ih =>
    refine List.isChain_cons.2 ⟨?_, ih⟩
    rintro c' first ⟨high, low⟩
    exact apart c' (joined.head first low) ⟨high, low⟩

/-- A text without pairs has none to join. -/
theorem joined_self {x : Text} (unpaired : Unpaired x) : Joined x x := by
  induction x with
  | nil => exact .nil
  | cons c x ih =>
    obtain ⟨apart, rest⟩ := List.isChain_cons.1 unpaired
    exact .single apart (ih rest)

/-! ## Characters and their spellings

A string is taken apart into its characters, each with the text that spells it. -/

theorem items_iff {t x : Text} :
    Items t x ↔ ∃ items : List (Text × Code), (∀ item ∈ items, Item item.1 item.2) ∧
      t = items.flatMap Prod.fst ∧ x = items.map Prod.snd := by
  constructor
  · intro derived
    induction derived with
    | nil => exact ⟨[], nofun, rfl, rfl⟩
    | @cons t rest c x item _ ih =>
      obtain ⟨items, all, rfl, rfl⟩ := ih
      exact ⟨(t, c) :: items, List.forall_mem_cons.2 ⟨item, all⟩, rfl, rfl⟩
  · rintro ⟨items, all, rfl, rfl⟩
    induction items with
    | nil => exact .nil
    | cons item items ih =>
      obtain ⟨first, rest⟩ := List.forall_mem_cons.1 all
      exact .cons first (ih rest)

theorem escapes_unique : ∀ e ∈ Token.escapes, ∀ e' ∈ Token.escapes, e.1 = e'.1 → e.2 = e'.2 := by
  decide

/-- The letter before the number of a character is no escape of its own. -/
theorem notMem_escapes (c : Code) : (0x75, c) ∉ Token.escapes := by
  simp [Token.escapes]

/-- No spelling begins another one. -/
theorem Syntax.Item.unique {t t' rest rest' : Text} {c c' : Code} (item : Item t c)
    (item' : Item t' c') (same : t ++ rest = t' ++ rest') : t = t' ∧ c = c' := by
  cases item with
  | plain _ notBackslash =>
    cases item' with
    | plain _ _ =>
      cases same
      exact ⟨rfl, rfl⟩
    | short _ =>
      cases same
      exact absurd rfl notBackslash
    | numbered _ _ =>
      cases same
      exact absurd rfl notBackslash
  | short listed =>
    cases item' with
    | plain _ notBackslash =>
      cases same
      exact absurd rfl notBackslash
    | short listed' =>
      cases same
      exact ⟨rfl, escapes_unique _ listed _ listed' rfl⟩
    | numbered _ _ =>
      cases same
      exact absurd listed (notMem_escapes c)
  | @numbered digits four _ =>
    cases item' with
    | plain _ notBackslash =>
      cases same
      exact absurd rfl notBackslash
    | short listed' =>
      cases same
      exact absurd listed' (notMem_escapes c')
    | @numbered digits' four' _ =>
      -- Both numbers have four digits, and so they end at the same place.
      have digits := List.append_inj_left (List.cons_inj_right _ |>.1 (List.cons_inj_right _ |>.1 same))
        (four.trans four'.symm)
      subst digits
      exact ⟨rfl, rfl⟩

theorem Syntax.Item.head {t : Text} {c : Code} (item : Item t c) (rest : Text) :
    (t ++ rest).head? ≠ some 0x22 := by
  cases item with
  | plain notQuote _ => simpa using notQuote
  | short _ => simp
  | numbered _ _ => simp

/-- What is spelled up to the closing quote is spelled in one way only. -/
theorem items_unique {items items' : List (Text × Code)} {rest rest' : Text}
    (all : ∀ item ∈ items, Item item.1 item.2) (all' : ∀ item ∈ items', Item item.1 item.2)
    (same : items.flatMap Prod.fst ++ 0x22 :: rest = items'.flatMap Prod.fst ++ 0x22 :: rest') :
    items = items' ∧ rest = rest' := by
  induction items generalizing items' with
  | nil =>
    cases items' with
    | nil =>
      cases same
      exact ⟨rfl, rfl⟩
    | cons item' items' =>
      -- The one text goes on with the closing quote, which begins no spelling.
      rw [List.flatMap_cons, List.append_assoc] at same
      exact absurd (congrArg List.head? same).symm ((List.forall_mem_cons.1 all').1.head _)
  | cons item items ih =>
    obtain ⟨first, more⟩ := List.forall_mem_cons.1 all
    rw [List.flatMap_cons, List.append_assoc] at same
    cases items' with
    | nil => exact absurd (congrArg List.head? same) (first.head _)
    | cons item' items' =>
      obtain ⟨first', more'⟩ := List.forall_mem_cons.1 all'
      rw [List.flatMap_cons, List.append_assoc] at same
      obtain ⟨text, code⟩ := first.unique first' same
      obtain rfl : item = item' := Prod.ext text code
      obtain ⟨rfl, left⟩ := ih more more' (List.append_cancel_left same)
      exact ⟨rfl, left⟩

/-! ## Strings -/

/-- Between the cursor and `pos` stand characters in quotes, each in its spelling. -/
structure StringAt (s : State) (spellings : List (Text × Code)) (pos : Nat) : Prop where
  inside : pos ≤ s.input.size
  items : ∀ spelling ∈ spellings, Item spelling.1 spelling.2
  codes : (s.input.slice s.pos pos).codes = 0x22 :: spellings.flatMap Prod.fst ++ [0x22]

namespace StringAt

variable {s : State} {spellings spellings' : List (Text × Code)} {pos pos' : Nat}

theorem forward (string : StringAt s spellings pos) : s.pos < pos := by
  have codes := congrArg List.length string.codes
  rw [Buffer.codes_slice, List.length_take] at codes
  simp only [List.cons_append, List.length_cons] at codes
  omega

theorem spans (string : StringAt s spellings pos) :
    s.Spans (0x22 :: spellings.flatMap Prod.fst ++ [0x22]) pos := by
  rw [← string.codes]
  exact .of_slice (Nat.le_of_lt string.forward)

theorem unique (string : StringAt s spellings pos) (string' : StringAt s spellings' pos') :
    spellings = spellings' ∧ pos = pos' := by
  have same := string.spans.symm.trans string'.spans
  simp only [List.cons_append, List.append_assoc, List.nil_append, List.cons_inj_right] at same
  obtain ⟨rfl, left⟩ := items_unique string.items string'.items same
  have begins := Nat.le_trans (Nat.le_of_lt string.forward) string.inside
  exact ⟨rfl, (string.spans.pos_eq begins string.inside).trans
    (string'.spans.pos_eq begins string'.inside).symm⟩

end StringAt

namespace Dialect

variable {d : Dialect} {s : State} {spellings : List (Text × Code)} {x : Text} {pos : Nat}

theorem exists_stringAt (decodes : d.decodeEscapes = true) (yields : d.quotedString.Yields s x pos) :
    ∃ spellings, StringAt s spellings pos ∧ Joined (spellings.map Prod.snd) x := by
  obtain ⟨t, ⟨body⟩, spans⟩ := d.reads_quotedString _ _ _ yields
  cases body with
  | raw asWritten _ => simp [decodes] at asWritten
  | escaped _ derived =>
    obtain ⟨spellings, items, rfl, rfl⟩ := items_iff.1 derived
    have reached := yields.precedes (d.obeys_quotedString d.covers_forward.toReports)
    obtain ⟨forward, inside⟩ := spans.further (List.cons_ne_nil _ _) reached
    have begins := Nat.le_trans (Nat.le_of_lt forward) inside
    exact ⟨spellings, ⟨inside, items, spans.codes_slice begins inside⟩, joined_join _⟩

theorem quotedString_matches (decodes : d.decodeEscapes = true) (kind : s.input.kind = .text)
    (string : StringAt s spellings pos) (joined : Joined (spellings.map Prod.snd) x) (j : Journal) :
    ∃ ghost, (d.quotedString.run s j).1 = .matched x pos ghost := by
  have quoted : Quoted d (0x22 :: spellings.flatMap Prod.fst ++ [0x22]) x := by
    rw [joined.eq_join]
    exact .intro (.escaped decodes (items_iff.2 ⟨spellings, string.items, rfl, rfl⟩))
  obtain ⟨stop, ghost, k, ran, left⟩ := (d.accepts_quotedString quoted).run kind string.spans j
  have reached := Yields.precedes (d.obeys_quotedString d.covers_forward.toReports) ⟨ghost, j, k, ran⟩
  have begins := Nat.le_trans (Nat.le_of_lt string.forward) string.inside
  -- What is left behind the match tells where it ends.
  have here : s.Spans (0x22 :: spellings.flatMap Prod.fst ++ [0x22]) stop := by
    rw [State.Spans, left]
    exact string.spans
  obtain rfl : stop = pos := (here.pos_eq begins (reached.inside begins)).trans
    (string.spans.pos_eq begins string.inside).symm
  exact ⟨ghost, congrArg Prod.fst ran⟩

/-- With escapes, a string is read exactly where one stands: characters between quotes, each spelled by
itself, by an escape or by its number.  It is read as these characters, with the surrogates among them
joined in pairs, so none are left to be joined.  There is only one way to read it. -/
theorem quotedString_decodes (decodes : d.decodeEscapes = true) (kind : s.input.kind = .text)
    (j : Journal) :
    (∀ x pos, (∃ ghost, (d.quotedString.run s j).1 = .matched x pos ghost) ↔
        ∃ spellings, StringAt s spellings pos ∧ Joined (spellings.map Prod.snd) x) ∧
      (∀ x pos ghost, (d.quotedString.run s j).1 = .matched x pos ghost →
        Unpaired x ∧ Surrogate.join x = x) ∧
      ∀ spellings spellings' x x' pos pos',
        StringAt s spellings pos → Joined (spellings.map Prod.snd) x →
        StringAt s spellings' pos' → Joined (spellings'.map Prod.snd) x' →
        spellings = spellings' ∧ x = x' ∧ pos = pos' := by
  have sound (x : Text) (pos : Nat) (ghost : Option Failure)
      (replied : (d.quotedString.run s j).1 = .matched x pos ghost) :
      ∃ spellings, StringAt s spellings pos ∧ Joined (spellings.map Prod.snd) x :=
    exists_stringAt decodes ⟨ghost, j, _, Prod.ext replied rfl⟩
  refine ⟨fun x pos => ⟨?_, ?_⟩, fun x pos ghost replied => ?_, ?_⟩
  · rintro ⟨ghost, replied⟩
    exact sound x pos ghost replied
  · rintro ⟨spellings, string, joined⟩
    exact quotedString_matches decodes kind string joined j
  · obtain ⟨spellings, _, joined⟩ := sound x pos ghost replied
    exact ⟨joined.unpaired, (joined_self joined.unpaired).eq_join.symm⟩
  · intro spellings spellings' x x' pos pos' string joined string' joined'
    obtain ⟨rfl, rfl⟩ := string.unique string'
    exact ⟨rfl, joined.eq_join.trans joined'.eq_join.symm, rfl⟩

/-- One half escaped, the other as it is. -/
theorem quotedString_decodes_of_halves :
    ∃ ghost, (Dialect.strict.quotedString.run
      ⟨.ofText (text ":\"\\uD83d" ++ 0xDE00 :: text "\\n\","), 1⟩ .empty).1 =
        .matched [0x1F600, 0x0A] 12 ghost := by
  have decodes := @quotedString_decodes .strict
    ⟨.ofText (text ":\"\\uD83d" ++ 0xDE00 :: text "\\n\","), 1⟩ rfl rfl .empty
  refine (decodes.1 [0x1F600, 0x0A] 12).2
    ⟨[(text "\\uD83d", 0xD83D), ([0xDE00], 0xDE00), (text "\\n", 0x0A)], ⟨by decide, ?_, by decide⟩, ?_⟩
  · refine List.forall_mem_cons.2 ⟨@Item.numbered (text "D83d") rfl (by decide), ?_⟩
    refine List.forall_mem_cons.2 ⟨.plain (by decide) (by decide), ?_⟩
    exact List.forall_mem_singleton.2 (.short (by decide))
  · exact @Joined.pair 0x1F600 [0x0A] [0x0A] (by decide) (by decide) (.single nofun .nil)

end Dialect

end Rewind.Json
