import Rewind.Proofs.Json.Form
import Rewind.Proofs.Json.Soundness
import Rewind.Proofs.Parser.Prospects

/-! # What might have followed

Whatever failure a run of the rule for documents carries, the text before its offset begins a text that
has the form of a document. -/

namespace Rewind.Json

open Rewind.Parser RunProperty Syntax

namespace Syntax

def Texts {α : Type} (Language : Text → α → Prop) (t : Text) : Prop := ∃ x, Language t x

end Syntax

/-! ## Tokens -/

namespace Token

theorem reads_satisfy (c : CharClass) :
    (satisfy c).Reads fun t _ => ∃ unit, c.accepts unit = true ∧ t = [unit] := by
  intro s x pos yields
  obtain ⟨unit, accepted, _, spans⟩ := yields_satisfy yields
  exact ⟨[unit], ⟨unit, accepted, rfl⟩, spans⟩

theorem reads_takeWhile (accepts : Code → Bool) :
    (takeWhile accepts).Reads fun t _ => ∀ c ∈ t, accepts c = true := by
  intro s x pos yields
  obtain ⟨spans, accepted⟩ := yields_takeWhile yields
  exact ⟨x.codes, accepted, spans⟩

theorem reads_peek : peek.Reads fun t _ => t = [] := by
  intro s x pos yields
  obtain ⟨_, rfl⟩ := yields_peek yields
  exact ⟨[], rfl, .empty s⟩

theorem reads_sign : (optional sign).Reads fun t _ => t ∈ [text "", text "-", text "+"] := by
  intro s x pos yields
  obtain ⟨found, rfl, chosen⟩ | ⟨rfl, rfl⟩ := yields_optional yields
  · obtain minus | plus := yields_orElse chosen
    · exact ⟨text "-", by simp, (yields_verbatim minus).2⟩
    · exact ⟨text "+", by simp, (yields_verbatim plus).2⟩
  · exact ⟨[], List.mem_cons_self, .empty s⟩

theorem integer_within : integer.FailsWithin (Texts Numeral) := by
  have zero : ∀ c ∈ text "0", CharClass.isDigit c = true := by decide
  have unsigned : Numeral (text "" ++ text "0") ⟨text "", text "0"⟩ :=
    .intro (by decide) (by decide) zero
  refine FailsWithin.bind ?_ (obeys_optional forward_compositional (obeys_sign forward_compositional))
    reads_sign fun signs _ listed => .map ?_ _
  · refine .of_inPlace (failsInPlace_optional ?_) ⟨_, unsigned⟩
    exact failsInPlace_orElse (failsInPlace_literal _) (failsInPlace_literal _)
  · refine FailsWithin.bind (.of_inPlace (failsInPlace_satisfy _) ⟨_, .intro listed ?_ zero⟩)
      (obeys_satisfy forward_compositional _) (reads_satisfy _) ?_
    · exact List.cons_ne_nil _ _
    · rintro _ _ ⟨first, leads, rfl⟩
      -- After the first digit there may be any number of further ones.
      have others : digit.zeroOrMore.FailsWithin fun u => ∀ c ∈ u, CharClass.isDigit c = true := by
        refine .zeroOrMore (.of_inPlace (failsInPlace_satisfy _) (List.forall_mem_nil _))
          (reads_satisfy _) ?_
        rintro _ _ u ⟨unit, accepted, rfl⟩ all
        exact List.forall_mem_cons.2 ⟨accepted, all⟩
      refine (others.imp fun u all => ⟨⟨signs, first :: u⟩, ?_⟩).map _
      exact .intro listed (List.cons_ne_nil _ _) (List.forall_mem_cons.2 ⟨leads, all⟩)

theorem introduced_within (introducers : Text) :
    (introduced introducers).FailsWithin (Texts (Part introducers)) := by
  refine .bind .peek (obeys_peek forward_compositional) reads_peek ?_
  rintro _ (_ | c) rfl
  · exact .pure _
  · dsimp only
    split
    · refine (FailsWithin.right (.of_inPlace (failsInPlace_satisfy _) ⟨none, .absent⟩)
        (obeys_satisfy forward_compositional _) (reads_satisfy _) ?_).map _
      rintro _ _ ⟨unit, accepted, rfl⟩
      refine integer_within.imp fun t ⟨l, numeral⟩ => ⟨some l, ?_⟩
      exact .present (CharClass.accepts_anyOf.1 accepted) numeral
    · exact .pure _

/-! ### Parts of strings -/

theorem hexDigits_within (n : Nat) :
    (count n hexDigit).FailsWithin fun t =>
      t.length = n ∧ ∀ c ∈ t, CharClass.isHexDigit c = true := by
  induction n with
  | zero => exact .pure _
  | succ n ih =>
    have zeros : ∀ c ∈ List.replicate (n + 1) 0x30, CharClass.isHexDigit c = true := by
      intro c member
      rw [List.eq_of_mem_replicate member]
      rfl
    refine .bind (.of_inPlace (failsInPlace_satisfy _) ⟨List.length_replicate, zeros⟩)
      (obeys_satisfy forward_compositional _) (reads_satisfy _) ?_
    rintro _ _ ⟨unit, hex, rfl⟩
    refine (ih.imp fun t ⟨length, all⟩ => ?_).map _
    exact ⟨congrArg Nat.succ length, List.forall_mem_cons.2 ⟨hex, all⟩⟩

theorem unicodeEscape_within : unicodeEscape.FailsWithin fun t => Texts Items (0x5C :: t) := by
  have zeros : Items (0x5C :: 0x75 :: text "0000") [ofHex (text "0000")] :=
    items_singleton (.numbered rfl (by decide))
  refine .right (.of_inPlace (failsInPlace_satisfy _) ⟨_, zeros⟩)
    (obeys_satisfy forward_compositional _) (reads_satisfy _) ?_
  rintro _ _ ⟨unit, accepted, rfl⟩
  obtain rfl : unit = 0x75 := by simpa [CharClass.accepts_only, text] using accepted
  refine ((hexDigits_within 4).imp fun t digits => ?_).map _
  obtain ⟨four, hex⟩ := digits
  exact ⟨_, items_singleton (.numbered four hex)⟩

theorem escape_within : escape.FailsWithin (Texts Items) := by
  refine .right (.of_inPlace (failsInPlace_satisfy _) ⟨[], .nil⟩)
    (obeys_satisfy forward_compositional _) (reads_satisfy _) ?_
  rintro _ _ ⟨unit, accepted, rfl⟩
  obtain rfl : unit = 0x5C := by simpa [CharClass.accepts_only, text] using accepted
  have letter : Items [0x5C, 0x6E] [0x0A] := items_singleton (.short (by decide))
  refine .orElse (.of_inPlace (failsInPlace_map (failsInPlace_satisfy _) _) ⟨_, letter⟩) ?_
  exact unicodeEscape_within

theorem chunk_within : chunk.FailsWithin (Texts Items) := by
  refine .bind (.takeWhile _) (obeys_takeWhile forward_compositional _) (reads_takeWhile _) ?_
  intro t run plain
  split
  · refine .of_inPlace (failsInPlace_fail _) (t := []) ⟨t, ?_⟩
    rw [List.append_nil]
    exact items_plain plain
  · exact .pure _

theorem reads_item : (escape.orElse chunk).Reads Items := by
  intro s x pos yields
  obtain escaped | plain := yields_orElse yields
  · exact reads_escape _ _ _ escaped
  · exact reads_chunk _ _ _ plain

end Token

namespace Dialect

open Token

variable (d : Dialect)

theorem reported_within {α : Type} {p : Parser α} {Language : Text → Prop}
    (within : p.FailsWithin Language) (name : String) : (d.reported name p).FailsWithin Language := by
  simp only [reported]
  split
  · exact within.traced _
  · exact within

theorem exists_body_nil : ∃ x, Body d [] x := by
  cases decodes : d.decodeEscapes with
  | true => exact ⟨_, .escaped decodes .nil⟩
  | false => exact ⟨_, .raw decodes (List.forall_mem_nil _)⟩

theorem stringBody_within : d.stringBody.FailsWithin (Texts (Body d)) := by
  simp only [stringBody]
  split
  case isTrue decodes =>
    have items : (escape.orElse chunk).zeroOrMore.FailsWithin (Texts Items) := by
      refine .zeroOrMore (escape_within.orElse chunk_within) reads_item ?_
      intro t x u item derives
      obtain ⟨y, items⟩ := derives
      exact ⟨x ++ y, items_append item items⟩
    refine (items.imp fun t derives => ?_).map _
    obtain ⟨x, items⟩ := derives
    exact ⟨_, .escaped decodes items⟩
  case isFalse => exact .map (.takeWhile _) _

theorem reads_verbatim (t : String) : (verbatim t).Reads fun u _ => u = text t :=
  fun _ _ _ yields => ⟨_, rfl, (yields_verbatim yields).2⟩

theorem quotedString_within : d.quotedString.FailsWithin (Texts (Quoted d)) := by
  obtain ⟨x, nothing⟩ := d.exists_body_nil
  refine d.reported_within (.bind (.of_inPlace (failsInPlace_literal _) ⟨x, .intro nothing⟩)
    (obeys_verbatim forward_compositional _) (reads_verbatim _) ?_) _
  rintro _ _ rfl
  refine .bind ?_ (d.obeys_stringBody forward_compositional) d.reads_stringBody ?_
  · exact d.stringBody_within.mono fun t ⟨x, body⟩ => ⟨text "\"", x, .intro body⟩
  · exact fun t x body => .map (.of_inPlace (failsInPlace_literal _) (t := text "\"") ⟨x, .intro body⟩) _

theorem number_within : d.number.FailsWithin NumberForm := by
  refine d.reported_within (.bind ?_ (obeys_integer forward_compositional) reads_integer ?_) _
  · refine integer_within.imp fun t ⟨w, numeral⟩ => ?_
    have form := NumberForm.intro numeral .absent .absent
    rwa [List.append_nil, List.append_nil] at form
  intro whole w numeral
  refine .bind ?_ (obeys_introduced forward_compositional _) (reads_introduced _) ?_
  · refine (introduced_within _).imp fun t ⟨f, part⟩ => ?_
    have form := NumberForm.intro numeral part .absent
    rwa [List.append_nil] at form
  intro fraction f part
  refine .bind ?_ (obeys_introduced forward_compositional _) (reads_introduced _) ?_
  · refine (introduced_within _).imp fun t ⟨e, part'⟩ => ?_
    have form := NumberForm.intro numeral part part'
    rwa [← List.append_assoc]
  intro exponent e _
  simp only [assembled]
  split
  · exact .pure _
  · exact .raise _

theorem scalar_within : d.scalar.FailsWithin (Texts (Form d)) := by
  have null : Texts (Form d) (text "null") := ⟨_, .null⟩
  refine .oneOf (.map (d.quotedString_within.imp fun t ⟨x, quoted⟩ => ⟨_, .string quoted⟩) _) ?_
  simp only [List.mem_cons, List.not_mem_nil, or_false]
  rintro p (rfl | rfl | rfl)
  · refine .map (d.reported_within (.map (.of_inPlace ?_ null) _) _) _
    exact failsInPlace_orElse (failsInPlace_literal _) (failsInPlace_literal _)
  · exact .map (d.reported_within (.map (.of_inPlace (failsInPlace_literal _) null) _) _) _
  · exact .map (d.number_within.imp fun t form => ⟨.number (.int 0), .number form⟩) _

/-! ## Lists -/

/-- A punctuation mark fails after the white space in front of it. -/
theorem punctuation_within {Language : Text → Prop} {t : String}
    (continues : ∀ before, Blank d before → ∃ u, Language (before ++ u)) :
    (d.whiteSpace.right (verbatim t)).FailsWithin Language := by
  refine .right (.takeWhile _) (d.obeys_whiteSpace forward_compositional) d.reads_whiteSpace ?_
  intro before _ blank
  obtain ⟨u, possible⟩ := continues before blank
  exact .of_inPlace (failsInPlace_literal _) possible

section

variable {d} {α : Type} {Element : Text → α → Prop} {element : Parser α}

def Trailing (d : Dialect) (Element : Text → α → Prop) (t : Text) : Prop :=
  ∃ xs body after, Following d Element body xs ∧ Blank d after ∧ t = body ++ after

theorem trailing_of_blank {t : Text} (blank : Blank d t) : Trailing d Element t :=
  ⟨[], [], t, .nil, blank, rfl⟩

/-- White space in front belongs to the first comma, or to the white space at the end. -/
theorem Trailing.prepend_blank {gap t : Text} (trailing : Trailing d Element t)
    (blank : Blank d gap) : Trailing d Element (gap ++ t) := by
  obtain ⟨xs, _, after, following, blank', rfl⟩ := trailing
  cases following with
  | nil => exact trailing_of_blank (blank_append blank blank')
  | cons lead trail derived rest =>
    refine ⟨_, _, after, .cons (blank_append blank lead) trail derived rest, blank', ?_⟩
    simp only [List.append_assoc]

theorem Trailing.prepend {before after t u : Text} {x : α} (trailing : Trailing d Element u)
    (blank : Blank d before) (blank' : Blank d after) (padded : Padded d Element t x) :
    Trailing d Element (before ++ text "," ++ after ++ t ++ u) := by
  obtain ⟨lead, derived, trail⟩ := padded
  obtain ⟨xs, body, last, following, closing, whole⟩ := trailing.prepend_blank trail
  have comma : text "," = [0x2C] := rfl
  refine ⟨_, _, last, .cons blank (blank_append blank' lead) derived following, closing, ?_⟩
  simp only [comma, List.append_assoc, List.cons_append, List.nil_append, whole]

theorem Trailing.separated {t u : Text} {x : α} (trailing : Trailing d Element u)
    (padded : Padded d Element t x) : Texts (Padded d (Separated d Element)) (t ++ u) := by
  obtain @⟨before, e, after, _, lead, derived, trail⟩ := padded
  obtain ⟨xs, body, last, following, closing, whole⟩ := trailing.prepend_blank trail
  refine ⟨x :: xs, ?_⟩
  rw [List.append_assoc, whole, List.append_assoc before, ← List.append_assoc e,
    ← List.append_assoc before]
  exact .intro lead (.cons derived following) closing

variable (within : element.FailsWithin (Texts (Padded d Element)))
  (reads : element.Reads (Padded d Element)) (steady : element.Obeys forward)
  (advances : element.Advances)

include within reads advances

theorem following_within :
    (rounds (d.comma.right element) (d.comma.right element)).FailsWithin (Trailing d Element) := by
  have separator := d.obeys_comma forward_compositional
  refine .rounds_self (R := fun t x => ∃ before after u, Blank d before ∧ Blank d after ∧
    Padded d Element u x ∧ t = before ++ text "," ++ after ++ u)
    (advances_bind_rest separator fun _ => advances) ?_ ?_ ?_
  · refine .right (.left_takeWhile (d.punctuation_within fun before blank => ⟨[], ?_⟩) _)
      separator d.reads_mark ?_
    · rw [List.append_nil]
      exact trailing_of_blank blank
    · rintro _ _ ⟨before, after, blank, blank', rfl⟩
      refine within.imp fun t ⟨x, padded⟩ => ?_
      have whole := (trailing_of_blank (List.forall_mem_nil _)).prepend blank blank' padded
      rwa [List.append_nil] at whole
  · intro s x pos yields
    obtain ⟨_, mid, parted, found⟩ := yields_right yields
    obtain ⟨_, ⟨before, after, blank, blank', rfl⟩, separator⟩ := d.reads_mark _ _ _ parted
    obtain ⟨u, padded, spans⟩ := reads _ _ _ found
    exact ⟨_, ⟨before, after, u, blank, blank', padded, rfl⟩, separator.append spans⟩
  · rintro _ x u ⟨before, after, t, blank, blank', padded, rfl⟩ trailing
    exact trailing.prepend blank blank' padded

theorem separated_within :
    (rounds element (d.comma.right element)).FailsWithin
      (Texts (Padded d (Separated d Element))) := by
  refine .rounds advances ?_ reads fun t x padded => ?_
  · refine within.mono fun t ⟨x, padded⟩ => ⟨[], ?_⟩
    exact (trailing_of_blank (List.forall_mem_nil _)).separated padded
  · exact (following_within within reads advances).imp fun u trailing => trailing.separated padded

end

/-! ## Values -/

section

variable {d} {α : Type} {Element : Text → α → Prop}

/-- A list between the marks of a container, of which the second may be followed by white space. -/
theorem enclosed_within (opens closes : String) {list : Parser (List α)} {closing : Parser Buffer}
    {make : List α → Json}
    (encloses : ∀ before body after xs, Blank d before → Separated d Element body xs →
      Blank d after → Texts (Form d) (text opens ++ before ++ body ++ after ++ text closes))
    (within : list.FailsWithin (Texts (Padded d (Separated d Element))))
    (reads : list.Reads (Padded d (Separated d Element))) (steady : list.Obeys forward)
    (last : ∀ {Language : Text → Prop}, (∀ before, Blank d before → ∃ u, Language (before ++ u)) →
      closing.FailsWithin Language) :
    (((verbatim opens).left d.whiteSpace).right
      (list.bind fun xs => closing.map fun _ => make xs)).FailsWithin (Texts (Form d)) := by
  refine .right (.left_takeWhile (.of_inPlace (failsInPlace_literal _) ⟨_, .null⟩) _)
    (R := fun t _ => ∃ before, Blank d before ∧ t = text opens ++ before)
    (d.obeys_opening forward_compositional _) ?_ ?_
  · intro s x pos yields
    obtain ⟨_, mid, first, space⟩ := yields_left yields
    obtain ⟨before, blank, gap⟩ := d.reads_whiteSpace _ _ _ space
    exact ⟨_, ⟨before, blank, rfl⟩, (yields_verbatim first).2.append gap⟩
  -- What has been read is continued by closing the list, with or without what is still to come.
  rintro _ _ ⟨before, blank, rfl⟩
  refine .bind ?_ steady reads ?_
  · refine within.mono fun t ⟨xs, padded⟩ => ?_
    obtain ⟨lead, separated, trail⟩ := padded
    refine ⟨text closes, ?_⟩
    have form := encloses _ _ _ _ (blank_append blank lead) separated trail
    simpa only [List.append_assoc] using form
  · rintro _ xs ⟨lead, separated, trail⟩
    refine (last fun after blank' => ⟨text closes, ?_⟩).map _
    have form := encloses _ _ _ _ (blank_append blank lead) separated (blank_append trail blank')
    simpa only [List.append_assoc] using form

end

section

variable {member : Parser Json} (within : member.FailsWithin (Texts (Padded d (Form d))))
  (reads : member.Reads (Padded d (Form d))) (steady : member.Obeys forward)

include within

omit steady reads in
theorem entry_within :
    (d.entry member).FailsWithin (Texts (Padded d (Member d (Form d)))) := by
  -- Any value completes an entry that has come to its colon.
  have completes {key before k : Text} (quoted : Quoted d key k) (blank : Blank d before) :
      Texts (Padded d (Member d (Form d))) (key ++ (before ++ text ":null")) := by
    have entry : Padded d (Member d (Form d)) _ _ :=
      padded_self (.intro quoted blank (List.forall_mem_nil _) .null)
    exact ⟨_, by simpa [text] using entry⟩
  refine .bind ?_ (d.obeys_quotedString d.covers_forward.toReports) d.reads_quotedString ?_
  · refine d.quotedString_within.mono fun key derives => ?_
    obtain ⟨k, quoted⟩ := derives
    exact ⟨_, completes quoted (List.forall_mem_nil _ : Blank d [])⟩
  intro key k quoted
  refine .bind ?_ (d.obeys_colon forward_compositional) d.reads_mark ?_
  · refine .left_takeWhile (d.punctuation_within fun before blank => ⟨text ":null", ?_⟩) _
    exact completes quoted blank
  rintro _ _ ⟨before, after, blank, blank', rfl⟩
  refine (within.imp fun t derives => ?_).map _
  obtain ⟨v, lead, form, trail⟩ := derives
  refine ⟨(k, v), ?_⟩
  have entry := padded_after (Member.intro quoted blank (blank_append blank' lead) form) trail
  simpa [text] using entry

include reads steady

theorem braced_within : (d.braced member).FailsWithin (Texts (Form d)) := by
  have quiet := d.covers_forward
  have entry := d.obeys_entry quiet steady
  refine enclosed_within "\x7b" "\x7d" ?_
    (separated_within (d.entry_within within) (d.reads_entry reads) (d.advances_entry steady))
    (d.reads_separated (d.reads_entry reads)) ?_ fun continues => d.punctuation_within continues
  · intro before body after members blank separated blank'
    have braces : text "\x7b" = [0x7B] ∧ text "\x7d" = [0x7D] := ⟨rfl, rfl⟩
    rw [braces.1, braces.2]
    exact ⟨_, .object blank separated blank'⟩
  · exact obeys_rounds forward_compositional (forward_markblind.ignores _) entry
      (obeys_right forward_compositional (d.obeys_comma forward_compositional) entry)

theorem bracketed_within (advances : member.Advances) :
    (d.bracketed member).FailsWithin (Texts (Form d)) := by
  refine enclosed_within "[" "]" ?_ (separated_within within reads advances)
    (d.reads_separated reads) ?_ fun continues => .left_takeWhile (d.punctuation_within continues) _
  · intro before body after items blank separated blank'
    have brackets : text "[" = [0x5B] ∧ text "]" = [0x5D] := ⟨rfl, rfl⟩
    rw [brackets.1, brackets.2]
    exact ⟨_, .array blank separated blank'⟩
  · exact obeys_rounds forward_compositional (forward_markblind.ignores _) steady
      (obeys_right forward_compositional (d.obeys_comma forward_compositional) steady)

omit within reads steady in
theorem container_within {p : Parser Json} {Language : Text → Prop}
    (within : p.FailsWithin Language) (name : String) :
    (d.container name p).FailsWithin Language := by
  apply FailsWithin.marking
  split
  · exact within.concluded _
  · exact within

theorem announced_within (advances : member.Advances) (c : Option Buffer) :
    (d.announced member c).FailsWithin (Texts (Form d)) := by
  simp only [announced]
  split
  · exact d.container_within (d.braced_within within reads steady) _
  · split
    · exact d.container_within ((d.bracketed_within within reads steady advances).passing _ ⟨_, .null⟩) _
    · exact d.scalar_within.passing _ ⟨_, .null⟩

theorem valueOver_within (advances : member.Advances) :
    (d.valueOver member).FailsWithin (Texts (Padded d (Form d))) := by
  rw [valueOver_eq]
  refine .marking (.right (.takeWhile _) (d.obeys_whiteSpace forward_compositional)
    d.reads_whiteSpace fun before _ blank => ?_) _
  refine .bind .peek (obeys_peek forward_compositional) reads_peek ?_
  rintro _ c rfl
  refine (d.announced_within within reads steady advances c).imp fun t ⟨v, form⟩ => ⟨v, ?_⟩
  have padded := Padded.intro blank form (List.forall_mem_nil _ : Blank d [])
  rwa [List.append_nil] at padded

end

theorem reads_nested_form (levels : Nat) : (d.nested levels).Reads (Padded d (Form d)) := by
  intro s v pos yields
  obtain ⟨_, ⟨lead, derived, trail⟩, spans⟩ := d.reads_nested levels _ _ _ yields
  exact ⟨_, .intro lead derived.form trail, spans⟩

theorem nested_within (levels : Nat) :
    (d.nested levels).FailsWithin (Texts (Padded d (Form d))) := by
  induction levels with
  | zero => exact .marking (.of_inPlace (failsInPlace_fail _) ⟨_, padded_self .null⟩) _
  | succ levels ih =>
    rw [nested_succ]
    exact d.valueOver_within ih (d.reads_nested_form levels)
      (d.obeys_nested d.covers_forward levels) (d.advances_nested levels)

theorem document_within (ends : d.requireEnd = true) (levels : Nat) :
    (d.document levels).FailsWithin (Texts (Padded d (Form d))) := by
  have space := d.obeys_whiteSpace forward_compositional
  rw [document, if_pos ends]
  refine .left (.left_takeWhile (d.reported_within (d.nested_within levels) _) _)
    (obeys_left forward_compositional (d.obeys_value d.covers_forward levels) space)
    (R := Padded d (Form d)) ?_ ?_
  · intro s v pos yields
    obtain ⟨_, mid, found, gap⟩ := yields_left yields
    obtain ⟨_, ⟨lead, form, trail⟩, spans⟩ :=
      d.reads_reported (d.reads_nested_form levels) _ _ _ _ found
    obtain ⟨after, blank, spans'⟩ := d.reads_whiteSpace _ _ _ gap
    refine ⟨_, .intro lead form (blank_append trail blank), ?_⟩
    have whole := spans.append spans'
    simpa only [List.append_assoc] using whole
  · intro t v padded
    refine .of_inPlace failsInPlace_eof (t := []) ⟨v, ?_⟩
    rwa [List.append_nil]

/-- The text before the failure of a run begins a text that has the form of a document. -/
theorem viable_of_failed (ends : d.requireEnd = true) {levels : Nat} {t : Text} {pos : Nat}
    {e : Failure} (failed : ((d.document levels).parse (.ofText t)).1 = .failed pos e) :
    e.pos ≤ t.length ∧ Viable d (t.take e.pos) := by
  have start := State.rest_start t
  have carried := d.document_within ends levels (.start (.ofText t)) (Nat.zero_le _) .empty e
  rw [← Parser.parse, failed] at carried
  obtain ⟨inside, u, more, spans, v, form⟩ := carried rfl
  have size : (State.start (.ofText t)).input.size = t.length := Buffer.size_ofText t
  have read : t = u ++ t.drop e.pos := by
    rw [State.Spans, start, Buffer.rest, State.start, Buffer.codes_ofText] at spans
    exact spans
  rw [size] at inside
  refine ⟨inside, more, v, ?_⟩
  have first : t.take e.pos = u :=
    List.append_cancel_right ((List.take_append_drop e.pos t).trans read)
  rwa [first]

end Dialect

end Rewind.Json
