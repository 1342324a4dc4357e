import Rewind.Proofs.Json.Container
import Rewind.Proofs.Json.Syntax
import Rewind.Proofs.Parser.Reads

/-! # Whatever matches is derived

Every match of a rule has read a text that the grammar derives, and its value is what the text denotes.
White space is read by whichever rule comes across it first, so a value is found with blanks around
it, and the blanks between two elements of a list are put together again from what the rules on
either side have read. -/

namespace Rewind.Json

open Rewind.Parser RunProperty Syntax

/-! ## Tokens -/

namespace Token

variable {s : State} {pos : Nat}

theorem yields_verbatim {t : String} {x : Buffer} (yields : (verbatim t).Yields s x pos) :
    x.codes = text t ∧ s.Spans (text t) pos := by
  obtain ⟨rfl, spans⟩ := yields_literal yields
  rw [Buffer.codes_ofText] at spans ⊢
  exact ⟨rfl, spans⟩

theorem reads_integer : integer.Reads Numeral := by
  intro s l pos yields
  obtain ⟨sign, mid, signed, rest⟩ := yields_bind yields
  obtain ⟨units, rfl, more⟩ := yields_map rest
  obtain ⟨unit, stop, first, others⟩ := yields_bind more
  obtain ⟨units, rfl, repeated⟩ := yields_map others
  have rounds := Rounds.cons first (yields_zeroOrMore (advances_satisfy _) repeated)
  obtain ⟨spans, length, all⟩ := rounds_satisfy rounds
  -- The first digit is read on its own, so there is one.
  have nonempty : (unit :: units).flatMap Buffer.codes ≠ [] := by
    rw [← List.length_pos_iff, length]
    exact Nat.succ_pos _
  have known (sign : Text) (listed : sign ∈ [text "", text "-", text "+"]) :
      Numeral (sign ++ (unit :: units).flatMap Buffer.codes)
        ⟨sign, (unit :: units).flatMap Buffer.codes⟩ := .intro listed nonempty all
  obtain ⟨found, rfl, chosen⟩ | ⟨rfl, rfl⟩ := yields_optional signed
  · obtain minus | plus := yields_orElse chosen
    · obtain ⟨codes, ahead⟩ := yields_verbatim minus
      refine ⟨_, known found.codes ?_, ?_⟩
      · simp [codes]
      · rw [codes]
        exact ahead.append spans
    · obtain ⟨codes, ahead⟩ := yields_verbatim plus
      refine ⟨_, known found.codes ?_, ?_⟩
      · simp [codes]
      · rw [codes]
        exact ahead.append spans
  · exact ⟨_, known [] (by decide), spans⟩

theorem reads_introduced (introducers : Text) : (introduced introducers).Reads (Part introducers) := by
  intro s part pos yields
  obtain ⟨c, mid, looked, rest⟩ := yields_bind yields
  obtain ⟨rfl, rfl⟩ := yields_peek looked
  cases seen : s.upcoming 1 with
  | none =>
    rw [seen] at rest
    obtain ⟨rfl, rfl⟩ := yields_pure rest
    exact ⟨[], .absent, .empty s⟩
  | some c =>
    rw [seen] at rest
    dsimp only at rest
    split at rest
    · obtain ⟨l, rfl, more⟩ := yields_map rest
      obtain ⟨x, mid, first, number⟩ := yields_right more
      obtain ⟨unit, accepted, _, spans⟩ := yields_satisfy first
      obtain ⟨t, numeral, others⟩ := reads_integer _ l pos number
      exact ⟨_, .present (CharClass.accepts_anyOf.1 accepted) numeral, spans.append others⟩
    · obtain ⟨rfl, rfl⟩ := yields_pure rest
      exact ⟨[], .absent, .empty s⟩

/-! ### Parts of strings -/

theorem items_append {t u x y : Text} (first : Items t x) (second : Items u y) :
    Items (t ++ u) (x ++ y) := by
  induction first with
  | nil => exact second
  | cons item _ ih =>
    rw [List.append_assoc, List.cons_append]
    exact .cons item ih

theorem items_singleton {t : Text} {c : Code} (item : Item t c) : Items t [c] := by
  have items := Items.cons item .nil
  rwa [List.append_nil] at items

theorem items_plain {t : Text} (plain : ∀ c ∈ t, isPlain c = true) : Items t t := by
  induction t with
  | nil => exact .nil
  | cons c t ih =>
    have kept := plain c List.mem_cons_self
    simp only [isPlain, Bool.and_eq_true, bne_iff_ne] at kept
    exact .cons (.plain kept.1 kept.2) (ih fun c member => plain c (List.mem_cons_of_mem _ member))

theorem reads_unicodeEscape : unicodeEscape.Reads fun t x => Items (0x5C :: t) x := by
  intro s x pos yields
  obtain ⟨u, mid, first, rest⟩ := yields_right yields
  obtain ⟨units, rfl, counted⟩ := yields_map rest
  obtain ⟨unit, accepted, _, spans⟩ := yields_satisfy first
  obtain ⟨rounds, four⟩ := yields_count counted
  obtain ⟨others, length, all⟩ := rounds_satisfy rounds
  obtain rfl : unit = 0x75 := by simpa [CharClass.accepts_only, text] using accepted
  exact ⟨_, items_singleton (.numbered (length.trans four) all), spans.append others⟩

theorem reads_escape : escape.Reads Items := by
  intro s x pos yields
  obtain ⟨backslash, mid, first, rest⟩ := yields_right yields
  obtain ⟨unit, accepted, _, spans⟩ := yields_satisfy first
  obtain rfl : unit = 0x5C := by simpa [CharClass.accepts_only, text] using accepted
  obtain short | numbered := yields_orElse rest
  · obtain ⟨letter, rfl, found⟩ := yields_map short
    obtain ⟨c, listed, codes, others⟩ := yields_satisfy found
    have known : c ∈ escapes.map Prod.fst := CharClass.accepts_anyOf.1 listed
    have pair : (c, unescape c) ∈ escapes := by
      revert known
      simp only [escapes, List.map_cons, List.map_nil, List.mem_cons, List.not_mem_nil, or_false]
      rintro (rfl | rfl | rfl | rfl | rfl | rfl | rfl | rfl) <;> decide
    rw [codes]
    exact ⟨_, items_singleton (.short pair), spans.append others⟩
  · obtain ⟨t, items, others⟩ := reads_unicodeEscape _ x pos numbered
    exact ⟨_, items, spans.append others⟩

theorem reads_chunk : chunk.Reads Items := by
  intro s x pos yields
  obtain ⟨run, mid, first, rest⟩ := yields_bind yields
  obtain ⟨spans, plain⟩ := yields_takeWhile first
  split at rest
  · exact absurd rest yields_fail
  · obtain ⟨rfl, rfl⟩ := yields_pure rest
    exact ⟨_, items_plain plain, spans⟩

end Token

namespace Dialect

open Token

variable (d : Dialect)

theorem reads_reported {α : Type} {p : Parser α} {Language : Text → α → Prop}
    (reads : p.Reads Language) (name : String) : (d.reported name p).Reads Language := by
  simp only [reported]
  split
  · exact reads.traced _
  · exact reads

theorem yields_reported {α : Type} {p : Parser α} {name : String} {s : State} {x : α} {pos : Nat}
    (yields : (d.reported name p).Yields s x pos) : p.Yields s x pos := by
  simp only [reported] at yields
  split at yields
  · exact yields_traced yields
  · exact yields

theorem reads_whiteSpace : d.whiteSpace.Reads fun t _ => Blank d t := by
  intro s x pos yields
  obtain ⟨spans, accepted⟩ := yields_takeWhile yields
  exact ⟨x.codes, fun c member => List.contains_iff_mem.1 (accepted c member), spans⟩

/-- A punctuation mark and the white space around it. -/
theorem reads_mark {t : String} :
    ((d.whiteSpace.right (verbatim t)).left d.whiteSpace).Reads fun u _ =>
      ∃ before after, Blank d before ∧ Blank d after ∧ u = before ++ text t ++ after := by
  intro s x pos yields
  obtain ⟨space, mid, marked, trailing⟩ := yields_left yields
  obtain ⟨lead, stop, leading, mark⟩ := yields_right marked
  obtain ⟨before, blank, spans⟩ := d.reads_whiteSpace _ _ _ leading
  obtain ⟨_, marks⟩ := yields_verbatim mark
  obtain ⟨after, blank', more⟩ := d.reads_whiteSpace _ _ _ trailing
  exact ⟨_, ⟨before, after, blank, blank', rfl⟩, (spans.append marks).append more⟩

theorem reads_null : d.null.Reads fun t _ => Syntax.Value d t .null := by
  refine d.reads_reported (fun s x pos yields => ?_) _
  obtain ⟨word, _, found⟩ := yields_map yields
  exact ⟨_, .null, (yields_verbatim found).2⟩

theorem reads_boolean : d.boolean.Reads fun t b => Syntax.Value d t (.bool b) := by
  refine d.reads_reported (fun s x pos yields => ?_) _
  obtain ⟨word, rfl, found⟩ := yields_map yields
  obtain yes | no := yields_orElse found
  · obtain ⟨codes, spans⟩ := yields_verbatim yes
    rw [codes]
    exact ⟨_, .true, spans⟩
  · obtain ⟨codes, spans⟩ := yields_verbatim no
    rw [codes]
    exact ⟨_, .false, spans⟩

theorem reads_items {s : State} {parts : List Text} {pos : Nat}
    (rounds : (escape.orElse chunk).Rounds s parts pos) :
    ∃ t, Items t parts.flatten ∧ s.Spans t pos := by
  induction rounds with
  | nil s => exact ⟨[], .nil, .empty s⟩
  | cons first _ ih =>
    obtain ⟨rest, items, spans⟩ := ih
    obtain escaped | plain := yields_orElse first
    · obtain ⟨t, head, begins⟩ := reads_escape _ _ _ escaped
      exact ⟨_, items_append head items, begins.append spans⟩
    · obtain ⟨t, head, begins⟩ := reads_chunk _ _ _ plain
      exact ⟨_, items_append head items, begins.append spans⟩

theorem reads_stringBody : d.stringBody.Reads (Body d) := by
  intro s x pos yields
  simp only [stringBody] at yields
  split at yields
  case isTrue decodes =>
    obtain ⟨parts, rfl, repeated⟩ := yields_map yields
    obtain ⟨t, items, spans⟩ := reads_items (yields_zeroOrMore advances_item repeated)
    exact ⟨t, .escaped decodes items, spans⟩
  case isFalse asWritten =>
    obtain ⟨run, rfl, taken⟩ := yields_map yields
    obtain ⟨spans, accepted⟩ := yields_takeWhile taken
    refine ⟨_, .raw (Bool.eq_false_iff.2 asWritten) fun c member => ?_, spans⟩
    exact bne_iff_ne.1 (accepted c member)

theorem reads_quotedString : d.quotedString.Reads (Quoted d) := by
  refine d.reads_reported (fun s x pos yields => ?_) _
  obtain ⟨opening, mid, opened, rest⟩ := yields_bind yields
  obtain ⟨body, stop, inner, closing⟩ := yields_bind rest
  obtain ⟨_, rfl, closed⟩ := yields_map closing
  obtain ⟨t, derived, spans⟩ := d.reads_stringBody _ _ _ inner
  have whole := ((yields_verbatim opened).2.append spans).append (yields_verbatim closed).2
  exact ⟨_, .intro derived, whole⟩

theorem reads_number : d.number.Reads (NumberText d) := by
  refine d.reads_reported (fun s n pos yields => ?_) _
  obtain ⟨w, mid, first, rest⟩ := yields_bind yields
  obtain ⟨f, stop, second, rest⟩ := yields_bind rest
  obtain ⟨e, last, third, rest⟩ := yields_bind rest
  obtain ⟨whole, numeral, spans⟩ := reads_integer _ _ _ first
  obtain ⟨fraction, part, spans'⟩ := reads_introduced _ _ _ _ second
  obtain ⟨exponent, part', spans''⟩ := reads_introduced _ _ _ _ third
  simp only [assembled] at rest
  split at rest
  case h_1 made assembles =>
    obtain ⟨rfl, rfl⟩ := yields_pure rest
    exact ⟨_, .intro numeral part part' assembles, (spans.append spans').append spans''⟩
  case h_2 => exact absurd rest yields_raise

/-! ## Lists -/

section

variable {α : Type} {Element : Text → α → Prop} {element : Parser α}
  (reads : element.Reads (Padded d Element))

include reads

/-- What is left of the white space after one element belongs to the separator before the next. -/
theorem reads_following {s : State} {xs : List α} {pos : Nat}
    (rounds : (d.comma.right element).Rounds s xs pos) (gap : Text) (blank : Blank d gap) :
    ∃ body after, Following d Element body xs ∧ Blank d after ∧
      gap ++ s.rest = body ++ after ++ s.input.rest pos := by
  induction rounds generalizing gap with
  | nil s => exact ⟨[], gap, .nil, blank, rfl⟩
  | @cons s x xs mid pos first _ ih =>
    obtain ⟨_, stop, parted, found⟩ := yields_right first
    obtain ⟨_, ⟨before, after, ahead, behind, rfl⟩, separator⟩ := d.reads_mark _ _ _ parted
    obtain ⟨_, @⟨lead, t, trail, _, leading, derived, trailing⟩, padded⟩ := reads _ _ _ found
    obtain ⟨body, last, following, closing, whole⟩ := ih trail trailing
    -- The gap belongs in front of the comma, and what was left after this element is the next gap.
    refine ⟨_, last, .cons (blank_append blank ahead) (blank_append behind leading) derived following,
      closing, ?_⟩
    have here : s.rest = before ++ text "," ++ after ++ (lead ++ t ++ trail) ++ s.input.rest mid :=
      separator.append padded
    have there : trail ++ s.input.rest mid = body ++ last ++ s.input.rest pos := whole
    have comma : text "," = [0x2C] := rfl
    rw [here, comma]
    simp only [List.append_assoc, List.cons_append, List.nil_append] at there ⊢
    rw [there]

theorem reads_separated :
    (rounds element (d.comma.right element)).Reads (Padded d (Separated d Element)) := by
  intro s xs pos yields
  obtain ⟨rfl, rfl⟩ | ⟨x, ys, mid, rfl, first, others⟩ := yields_rounds yields
  · exact ⟨_, padded_self .nil, .empty s⟩
  · obtain ⟨_, ⟨lead, derived, trail⟩, spans⟩ := reads _ _ _ first
    rename_i before t after
    obtain ⟨body, rest, following, last, whole⟩ := d.reads_following reads others after trail
    refine ⟨_, .intro lead (.cons derived following) last, ?_⟩
    have here : s.rest = before ++ t ++ after ++ s.input.rest mid := spans
    have there : after ++ s.input.rest mid = body ++ rest ++ s.input.rest pos := whole
    show s.rest = before ++ (t ++ body) ++ rest ++ s.input.rest pos
    rw [here]
    simp only [List.append_assoc] at there ⊢
    rw [there]

end

/-! ## Values -/

theorem reads_entry {member : Parser Json} {Element : Text → Json → Prop}
    (reads : member.Reads (Padded d Element)) :
    (d.entry member).Reads (Padded d (Member d Element)) := by
  intro s entry pos yields
  obtain ⟨k, mid, keyed, rest⟩ := yields_bind yields
  obtain ⟨_, stop, parted, found⟩ := yields_bind rest
  obtain ⟨v, rfl, value⟩ := yields_map found
  obtain ⟨key, quoted, first⟩ := d.reads_quotedString _ _ _ keyed
  obtain ⟨_, ⟨before, after, ahead, behind, rfl⟩, colon⟩ := d.reads_mark _ _ _ parted
  obtain ⟨_, @⟨lead, t, trail, _, leading, derived, trailing⟩, padded⟩ := reads _ _ _ value
  have member := Member.intro quoted ahead (blank_append behind leading) derived
  refine ⟨_, padded_after member trailing, ?_⟩
  have whole := (first.append colon).append padded
  have mark : text ":" = [0x3A] := rfl
  rw [mark] at whole
  simpa only [List.append_assoc, List.cons_append, List.nil_append] using whole

section

variable {member : Parser Json} (reads : member.Reads (Padded d (Syntax.Value d)))

include reads

theorem reads_braced : (d.braced member).Reads (Syntax.Value d) := by
  intro s v pos yields
  obtain ⟨_, mid, opened, rest⟩ := yields_right yields
  obtain ⟨members, stop, looped, closing⟩ := yields_bind rest
  obtain ⟨_, rfl, closed⟩ := yields_map closing
  -- From here on, the texts that the parts have read are put together in their order.
  obtain ⟨_, first, opening, space⟩ := yields_left opened
  obtain ⟨_, last, space', close⟩ := yields_right closed
  obtain ⟨before, ahead, gap⟩ := d.reads_whiteSpace _ _ _ space
  obtain ⟨_, @⟨lead, body, trail, _, leading, derived, trailing⟩, list⟩ :=
    d.reads_separated (d.reads_entry reads) _ _ _ looped
  obtain ⟨after, behind, gap'⟩ := d.reads_whiteSpace _ _ _ space'
  refine ⟨_, .object (blank_append ahead leading) derived (blank_append trailing behind), ?_⟩
  have whole := ((((yields_verbatim opening).2.append gap).append list).append gap').append
    (yields_verbatim close).2
  have braces : text "\x7b" = [0x7B] ∧ text "\x7d" = [0x7D] := ⟨rfl, rfl⟩
  rw [braces.1, braces.2] at whole
  simpa only [List.append_assoc, List.cons_append, List.nil_append] using whole

theorem reads_bracketed : (d.bracketed member).Reads (Padded d (Syntax.Value d)) := by
  intro s v pos yields
  obtain ⟨_, mid, opened, rest⟩ := yields_right yields
  obtain ⟨items, stop, looped, closing⟩ := yields_bind rest
  obtain ⟨_, rfl, closed⟩ := yields_map closing
  obtain ⟨_, first, opening, space⟩ := yields_left opened
  obtain ⟨_, last, closed, space''⟩ := yields_left closed
  obtain ⟨_, next, space', close⟩ := yields_right closed
  obtain ⟨before, ahead, gap⟩ := d.reads_whiteSpace _ _ _ space
  obtain ⟨_, @⟨lead, body, trail, _, leading, derived, trailing⟩, list⟩ :=
    d.reads_separated reads _ _ _ looped
  obtain ⟨after, behind, gap'⟩ := d.reads_whiteSpace _ _ _ space'
  obtain ⟨rest, beyond, gap''⟩ := d.reads_whiteSpace _ _ _ space''
  have array := Value.array (blank_append ahead leading) derived (blank_append trailing behind)
  refine ⟨_, padded_after array beyond, ?_⟩
  have whole := (((((yields_verbatim opening).2.append gap).append list).append gap').append
    (yields_verbatim close).2).append gap''
  have brackets : text "[" = [0x5B] ∧ text "]" = [0x5D] := ⟨rfl, rfl⟩
  rw [brackets.1, brackets.2] at whole
  simpa only [List.append_assoc, List.cons_append, List.nil_append] using whole

omit reads in
theorem reads_scalar : d.scalar.Reads (Syntax.Value d) := by
  intro s v pos yields
  obtain ⟨p, listed, found⟩ := yields_oneOf yields
  simp only [List.mem_cons, List.not_mem_nil, or_false] at listed
  rcases listed with rfl | rfl | rfl | rfl
  · obtain ⟨x, rfl, inner⟩ := yields_map found
    obtain ⟨t, quoted, spans⟩ := d.reads_quotedString _ _ _ inner
    exact ⟨t, .string quoted, spans⟩
  · obtain ⟨b, rfl, inner⟩ := yields_map found
    exact d.reads_boolean _ _ _ inner
  · obtain ⟨_, rfl, inner⟩ := yields_map found
    exact d.reads_null _ _ _ inner
  · obtain ⟨n, rfl, inner⟩ := yields_map found
    obtain ⟨t, number, spans⟩ := d.reads_number _ _ _ inner
    exact ⟨t, .number number, spans⟩

omit reads in
theorem yields_container {p : Parser Json} {name : String} {s : State} {v : Json} {pos : Nat}
    (yields : (d.container name p).Yields s v pos) : p.Yields s v pos := by
  have inner := yields_marking yields
  split at inner
  · exact yields_concluded inner
  · exact inner

theorem reads_announced (c : Option Buffer) :
    (d.announced member c).Reads (Padded d (Syntax.Value d)) := by
  intro s v pos yields
  simp only [announced] at yields
  split at yields
  · obtain ⟨t, derived, spans⟩ := d.reads_braced reads _ _ _ (d.yields_container yields)
    exact ⟨t, padded_self derived, spans⟩
  · split at yields
    · exact d.reads_bracketed reads _ _ _ (yields_passing (d.yields_container yields))
    · obtain ⟨t, derived, spans⟩ := d.reads_scalar _ _ _ (yields_passing yields)
      exact ⟨t, padded_self derived, spans⟩

theorem reads_valueOver : (d.valueOver member).Reads (Padded d (Syntax.Value d)) := by
  intro s v pos yields
  rw [valueOver_eq] at yields
  obtain ⟨_, mid, space, rest⟩ := yields_right (yields_marking yields)
  obtain ⟨c, stop, looked, found⟩ := yields_bind rest
  obtain ⟨_, rfl⟩ := yields_peek looked
  obtain ⟨before, ahead, gap⟩ := d.reads_whiteSpace _ _ _ space
  obtain ⟨_, @⟨lead, t, trail, _, leading, derived, trailing⟩, padded⟩ :=
    d.reads_announced reads c _ _ _ found
  refine ⟨_, .intro (blank_append ahead leading) derived trailing, ?_⟩
  have whole := gap.append padded
  simpa only [List.append_assoc] using whole

end

theorem reads_nested (levels : Nat) : (d.nested levels).Reads (Padded d (Syntax.Value d)) := by
  induction levels with
  | zero =>
    intro s v pos yields
    exact absurd (yields_marking yields) yields_fail
  | succ levels ih =>
    rw [nested_succ]
    exact d.reads_valueOver ih

/-- A document that is matched is one, and nothing comes after it. -/
theorem yields_document (ends : d.requireEnd = true) {levels : Nat} {s : State} {v : Json} {pos : Nat}
    (yields : (d.document levels).Yields s v pos) : Document d s.rest v := by
  rw [document, if_pos ends] at yields
  obtain ⟨_, mid, valued, ended⟩ := yields_left yields
  obtain ⟨_, stop, value, space⟩ := yields_left valued
  obtain ⟨_, @⟨lead, t, trail, _, leading, derived, trailing⟩, padded⟩ :=
    d.reads_reported (d.reads_nested levels) _ _ _ _ value
  obtain ⟨after, behind, gap⟩ := d.reads_whiteSpace _ _ _ space
  -- What is left after the white space is nothing.
  have finished : s.input.rest mid = [] := (yields_eof ended).1
  have whole : s.rest = lead ++ t ++ trail ++ after ++ s.input.rest mid := padded.append gap
  rw [whole, finished, List.append_nil, List.append_assoc (lead ++ t)]
  exact .intro leading derived (blank_append trailing behind)

end Dialect

end Rewind.Json
