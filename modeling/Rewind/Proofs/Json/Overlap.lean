import Rewind.Proofs.Json.Form
import Rewind.Proofs.Json.Tidy
import Rewind.Proofs.Parser.Overlap

/-! # JSON texts that begin alike

The copy has the digits of the source replaced by zeros.  The rules for tokens take the same course on
both, and so do the rules that nest, with one exception: where a word stands in the copy that the source
does not hold, since the overlap ends within it, the source is rejected at the start of the word. -/

namespace Rewind.Json

open Rewind.Parser RunProperty Syntax Token Overlap

def words : List Text := [text "true", text "false", text "null"]

def CutOff (o : Overlap) (pos : Nat) : Prop :=
  pos < o.reach ∧ ∃ w ∈ words, w <+: (o.copyAt pos).rest ∧ ¬ w <+: (o.sourceAt pos).rest

variable {o : Overlap} (zeros : o.image = zeroed)

section

include zeros

/-! ## Tokens -/

namespace Token

theorem image_level {p : Code → Bool} (level : ∀ c, CharClass.isDigit c = true → p c = p 0x30)
    (c : Code) : p (o.image c) = p c := by
  rw [zeros]
  exact zeroed_invariant level c

theorem image_eq_iff {c : Code} (other : CharClass.isDigit c = false) (x : Code) :
    o.image x = c ↔ x = c := by
  rw [zeros]
  exact zeroed_eq_iff other

omit zeros in
theorem ne_of_digit {c x : Code} (digit : CharClass.isDigit c = true)
    (other : CharClass.isDigit x = false) : c ≠ x := by
  rintro rfl
  exact Bool.false_ne_true (other.symm.trans digit)

omit zeros in
theorem contains_of_digit {cs : Text} (free : ∀ c ∈ cs, CharClass.isDigit c = false) (c : Code)
    (digit : CharClass.isDigit c = true) : cs.contains c = false := by
  rw [List.contains_eq_mem, decide_eq_false_iff_not]
  exact fun listed => ne_of_digit digit (free c listed) rfl

/-- Classes without digits. -/
theorem mirrors_of_no_digit {c : CharClass} (free : ∀ x, CharClass.isDigit x = true → c.accepts x = false)
    (pos : Nat) : o.MirrorsAt (satisfy c) (satisfy c) pos :=
  mirrors_satisfy (image_level zeros fun x digit => (free x digit).trans (free 0x30 rfl).symm)

theorem mirrors_mark {t : String} {c : Code} (spelled : text t = [c])
    (other : CharClass.isDigit c = false) (pos : Nat) :
    o.MirrorsAt (verbatim t) (verbatim t) pos := by
  rw [verbatim, spelled]
  exact mirrors_character (image_eq_iff zeros other)

theorem mirrors_word {t : String} (listed : text t ∈ words) {pos : Nat} (whole : ¬ CutOff o pos) :
    o.MirrorsAt (verbatim t) (verbatim t) pos := by
  have free : ∀ w ∈ words, ∀ c ∈ w, CharClass.isDigit c = false := by decide
  refine mirrors_literal (fun c member => image_eq_iff zeros (free _ listed c member)) ?_
  intro inside there
  by_contra absent
  exact whole ⟨inside, _, listed, there, absent⟩

/-! ### Parts of strings -/

theorem mirrors_escape (pos : Nat) : o.MirrorsAt escape escape pos := by
  have codes := obeys_unicodeEscape forward_compositional
  have hex := obeys_satisfy forward_compositional CharClass.hexDigit
  have only (c : Code) (other : CharClass.isDigit c = false) (x : Code)
      (digit : CharClass.isDigit x = true) : (CharClass.only [c]).accepts x = false := by
    rw [← Bool.not_eq_true, CharClass.accepts_only]
    rintro ⟨⟩
    exact Bool.false_ne_true (other.symm.trans digit)
  refine (mirrors_of_no_digit zeros (only 0x5C rfl) pos).right ?_ fun mid => ?_
  · exact obeys_orElse forward_compositional (obeys_map (obeys_satisfy forward_compositional _) _) codes
  refine MirrorsAt.orElse (FollowsAt.map (mirrors_of_no_digit zeros ?_ mid) _ _) ?_
  · exact contains_of_digit (by decide)
  · refine (mirrors_of_no_digit zeros (only 0x75 rfl) mid).right ?_ fun stop => ?_
    · exact obeys_map (obeys_count forward_compositional hex 4) _
    · refine FollowsAt.map (MirrorsAt.count hex (fun last => mirrors_satisfy ?_) 4 stop) _ _
      intro x
      rw [zeros]
      exact isHexDigit_zeroed x

theorem mirrors_chunk (pos : Nat) : o.MirrorsAt chunk chunk pos := by
  refine MirrorsAt.bind (mirrors_takeWhile (image_level zeros ?_)) (fun run => ?_) ?_
  · intro c digit
    have quote : c ≠ 0x22 := ne_of_digit digit rfl
    have backslash : c ≠ 0x5C := ne_of_digit digit rfl
    simp [isPlain, quote, backslash]
  · split
    · exact obeys_fail forward_compositional _
    · exact obeys_pure forward_compositional _
  · intro run run' mid first second inside
    rw [yields_takeWhile_both first second inside]
    split
    · exact mirrors_fail _
    · exact mirrors_pure _ _

/-! ### Parts of numbers -/

theorem mirrors_integer (pos : Nat) : o.MirrorsAt integer integer pos := by
  have digit (mid : Nat) : o.MirrorsAt Parser.digit Parser.digit mid :=
    mirrors_satisfy (image_level zeros fun c digit => digit)
  have steady := obeys_satisfy forward_compositional CharClass.digit
  refine MirrorsAt.bind (MirrorsAt.optional ?_) (fun _ => ?_) fun _ _ mid _ _ _ => ?_
  · exact (mirrors_mark zeros rfl rfl pos).orElse (mirrors_mark zeros rfl rfl pos)
  · exact obeys_map (obeys_atLeastOne forward_compositional steady) _
  · exact FollowsAt.map (MirrorsAt.atLeastOne (advances_satisfy _) steady digit mid) _ _

theorem mirrors_introduced {introducers : Text}
    (free : ∀ c ∈ introducers, CharClass.isDigit c = false) (pos : Nat) :
    o.MirrorsAt (introduced introducers) (introduced introducers) pos := by
  refine MirrorsAt.bind mirrors_peek ?_ ?_
  · rintro (_ | c)
    · exact obeys_pure forward_compositional _
    · dsimp only
      split
      · exact obeys_map (obeys_right forward_compositional (obeys_satisfy forward_compositional _)
          (obeys_integer forward_compositional)) _
      · exact obeys_pure forward_compositional _
  · intro x y mid first second inside
    obtain ⟨rfl, c, -, rfl, rfl⟩ := yields_peek_both first second inside
    have same : introducers.contains (o.image c) = introducers.contains c :=
      image_level zeros (fun c digit =>
        (contains_of_digit free c digit).trans (contains_of_digit free 0x30 rfl).symm) c
    simp only [Buffer.codes_ofText, List.all_cons, List.all_nil, Bool.and_true, same]
    split
    · refine FollowsAt.map (MirrorsAt.right ?_ (obeys_integer forward_compositional)
        (mirrors_integer zeros)) _ _
      exact mirrors_of_no_digit zeros (contains_of_digit free) mid
    · exact mirrors_pure _ _

end Token

namespace Dialect

variable {d : Dialect}

/-! ## Strings, numbers and punctuation -/

omit zeros in
theorem follows_reported {α : Type} {X : Reply Unit → Prop} {p : Parser α} {pos : Nat}
    (follows : o.FollowsAt X p p pos) (name : String) :
    o.FollowsAt X (d.reported name p) (d.reported name p) pos := by
  simp only [reported]
  split
  · exact follows.traced _
  · exact follows

variable (d) in
theorem mirrors_quotedString (pos : Nat) : o.MirrorsAt d.quotedString d.quotedString pos := by
  have quote (x : Text) : ((verbatim "\"").map fun _ => x).Obeys forward :=
    obeys_map (obeys_verbatim forward_compositional _) _
  have mark := mirrors_mark zeros (t := "\"") (c := 0x22) rfl rfl
  have body (mid : Nat) : o.MirrorsAt d.stringBody d.stringBody mid := by
    simp only [stringBody]
    split
    · refine FollowsAt.map (MirrorsAt.zeroOrMore advances_item ?_ (fun stop => ?_) mid) _ _
      · exact obeys_orElse forward_compositional (obeys_escape forward_compositional)
          (obeys_chunk forward_compositional)
      · exact (mirrors_escape zeros stop).orElse (mirrors_chunk zeros stop)
    · refine FollowsAt.map (mirrors_takeWhile (image_level zeros fun c digit => ?_)) _ _
      have quote : c ≠ 0x22 := ne_of_digit digit rfl
      simp [quote]
  refine follows_reported (MirrorsAt.bind (mark pos) (fun _ => ?_) fun _ _ mid _ _ _ => ?_) _
  · exact obeys_bind forward_compositional (d.obeys_stringBody forward_compositional) quote
  · exact (body mid).bind quote fun _ _ stop _ _ _ => FollowsAt.map (mark stop) _ _

variable (d) in
theorem mirrors_number (pos : Nat) : o.MirrorsAt d.number d.number pos := by
  have made (w : Literal) (f e : Option Literal) := d.obeys_assembled forward_compositional w f e
  have part (introducers : Text) := obeys_introduced forward_compositional introducers
  refine follows_reported (MirrorsAt.bind (mirrors_integer zeros pos) (fun w => ?_) ?_) _
  · exact obeys_bind forward_compositional (part _) fun _ =>
      obeys_bind forward_compositional (part _) fun _ => made _ _ _
  intro w w' mid _ _ _
  refine MirrorsAt.bind (mirrors_introduced zeros (by decide) mid) (fun f => ?_) ?_
  · exact obeys_bind forward_compositional (part _) fun _ => made _ _ _
  intro f f' stop _ _ _
  refine MirrorsAt.bind (mirrors_introduced zeros (by decide) stop) (fun e => made _ _ _) ?_
  intro e e' last _ _ _
  -- The parts come to different numbers, or to none.
  simp only [assembled]
  split
  · split
    · exact mirrors_pure _ _
    · exact mirrors_raise _
  · exact mirrors_of_raise _

section

variable (standard : d.StandardSpace)

include standard

theorem mirrors_whiteSpace (pos : Nat) : o.MirrorsAt d.whiteSpace d.whiteSpace pos := by
  have free : ∀ c ∈ d.whitespace, CharClass.isDigit c = false := by
    intro c blank
    have all : ∀ c ∈ text " \t\n\r", CharClass.isDigit c = false := by decide
    exact all c (standard c blank)
  exact mirrors_takeWhile (image_level zeros fun c digit =>
    (contains_of_digit free c digit).trans (contains_of_digit free 0x30 rfl).symm)

theorem mirrors_opening {t : String} {c : Code} (spelled : text t = [c])
    (other : CharClass.isDigit c = false) (pos : Nat) :
    o.MirrorsAt ((verbatim t).left d.whiteSpace) ((verbatim t).left d.whiteSpace) pos :=
  (mirrors_mark zeros spelled other pos).left (d.obeys_whiteSpace forward_compositional)
    (mirrors_whiteSpace zeros standard)

theorem mirrors_spaced {t : String} {c : Code} (spelled : text t = [c])
    (other : CharClass.isDigit c = false) (pos : Nat) :
    o.MirrorsAt (d.whiteSpace.right (verbatim t)) (d.whiteSpace.right (verbatim t)) pos :=
  (mirrors_whiteSpace zeros standard pos).right (obeys_verbatim forward_compositional t)
    (mirrors_mark zeros spelled other)

theorem mirrors_separator {t : String} {c : Code} (spelled : text t = [c])
    (other : CharClass.isDigit c = false) (pos : Nat) :
    o.MirrorsAt ((d.whiteSpace.right (verbatim t)).left d.whiteSpace)
      ((d.whiteSpace.right (verbatim t)).left d.whiteSpace) pos :=
  (mirrors_spaced zeros standard spelled other pos).left (d.obeys_whiteSpace forward_compositional)
    (mirrors_whiteSpace zeros standard)

end

/-! ## Words that are cut off -/

/-- A word that is cut off still has its first character. -/
theorem head_of_cutOff {pos : Nat} (cut : CutOff o pos) :
    ∃ c ∈ text "tfn", (o.sourceAt pos).rest.head? = some c ∧
      ∀ w ∈ words, ¬ w <+: (o.sourceAt pos).rest := by
  obtain ⟨inside, w, listed, there, absent⟩ := cut
  have first : ∀ w ∈ words, ∃ c ∈ text "tfn", w.head? = some c ∧
      CharClass.isDigit c = false ∧ ∀ w' ∈ words, w'.head? = some c → w' = w := by decide
  obtain ⟨c, known, begins, other, distinct⟩ := first w listed
  obtain ⟨x, head⟩ := exists_head inside
  have alike := head_copy inside
  obtain ⟨more, whole⟩ := there
  rw [← whole, List.head?_append, begins, Option.some_or, head, Option.map_some] at alike
  obtain rfl : x = c := (image_eq_iff zeros other x).1 (Option.some.inj alike).symm
  refine ⟨x, known, head, fun w' listed' => ?_⟩
  rintro ⟨tail, same⟩
  have spelled : ∀ w ∈ words, w ≠ [] := by decide
  obtain ⟨c, rest, rfl⟩ := List.exists_cons_of_ne_nil (spelled w' listed')
  rw [← same] at head
  obtain rfl : c = x := Option.some.inj head
  obtain rfl := distinct _ listed' rfl
  exact absent ⟨tail, same⟩

/-- No alternative gets anywhere with it. -/
theorem missesAt_scalar_of_cutOff {pos : Nat} (cut : CutOff o pos) :
    d.scalar.MissesAt (o.sourceAt pos) := by
  obtain ⟨c, known, head, absent⟩ := head_of_cutOff zeros cut
  have kind : (o.sourceAt pos).input.kind = .text := o.source_text
  have other {x : Code} (strange : x ∉ text "tfn") : (o.sourceAt pos).rest.head? ≠ some x := by
    rw [head]
    rintro ⟨⟩
    exact strange known
  have digit : ∀ x ∈ (o.sourceAt pos).rest.head?, CharClass.isDigit x = false := by
    have free : ∀ c ∈ text "tfn", CharClass.isDigit c = false := by decide
    rw [head]
    rintro x ⟨⟩
    exact free c known
  -- The letter begins a word, but no word stands there as a whole.
  have word {t : String} (listed : text t ∈ words) : (verbatim t).MissesAt (o.sourceAt pos) := by
    refine (failsAt_literal kind ?_).missesAt rfl
    rw [Buffer.codes_ofText]
    exact absent _ listed
  refine MissesAt.oneOf ((d.missesAt_quotedString kind (other (by decide))).map _) ?_
  simp only [List.mem_cons, List.not_mem_nil, or_false]
  rintro p (rfl | rfl | rfl)
  · have either := (word (t := "true") (by decide)).orElse (word (t := "false") (by decide))
    exact (d.missesAt_reported (either.map _) _).map _
  · exact (d.missesAt_reported ((word (t := "null") (by decide)).map _) _).map _
  · exact (d.missesAt_number kind (other (by decide)) (other (by decide)) digit).map _

variable (d) in
theorem follows_scalar (pos : Nat) : o.FollowsAt (Broken (CutOff o)) d.scalar d.scalar pos := by
  by_cases cut : CutOff o pos
  · obtain ⟨error, here, fails⟩ := missesAt_scalar_of_cutOff (d := d) zeros cut
    have cut' : CutOff o error.pos := by rwa [here]
    intro j k _
    rw [fails j]
    exact .inr ⟨_, error, rfl, cut'⟩
  · have word {t : String} (listed : text t ∈ words) := mirrors_word zeros listed cut
    refine MirrorsAt.follows (MirrorsAt.oneOf (FollowsAt.map (mirrors_quotedString zeros d pos) _ _)
      (.cons ?_ (.cons ?_ (.cons ?_ .nil))))
    · refine FollowsAt.map (follows_reported (FollowsAt.map (MirrorsAt.orElse ?_ ?_) _ _) _) _ _
      · exact word (by decide)
      · exact word (by decide)
    · exact FollowsAt.map (follows_reported (FollowsAt.map (word (by decide)) _ _) _) _ _
    · exact FollowsAt.map (mirrors_number zeros d pos) _ _

/-! ## Lists -/

omit zeros in
theorem failedBy_mark {s : State} {t : String} {c : Code} (kind : s.input.kind = .text)
    (begins : (text t).head? = some c) (other : (d.landing s).rest.head? ≠ some c) :
    (d.whiteSpace.right (verbatim t)).RepliesAt (FailedBy (d.landing s).pos) s := by
  obtain ⟨error, fails, there⟩ := d.fails_mark kind begins other
  intro j
  exact ⟨s.pos, error, congrArg Reply.shape (fails j), Nat.le_of_eq there⟩

/-- Where an element is cut off there is no mark, and so none closes the list. -/
theorem failedBy_of_cutOff {α β : Type} {element : Parser α} {closing : Parser β} {c : Code}
    {pos start : Nat} {e : Failure} (strange : c ∉ text "tfn") (stops : d.StopsAt c element)
    (behind : (d.landing (o.sourceAt pos)).pos ≤ e.pos)
    (failed : Run.Gives (element.run (o.sourceAt pos)) (.failed start e)) (cut : CutOff o e.pos)
    (fails : ∀ s : State, s.input.kind = .text → (d.landing s).rest.head? ≠ some c →
      closing.RepliesAt (FailedBy (d.landing s).pos) s) :
    closing.RepliesAt (FailedBy e.pos) (o.sourceAt pos) := by
  have elsewhere : (d.landing (o.sourceAt pos)).rest.head? ≠ some c := by
    intro head
    have here := Nat.le_antisymm ((stops _ o.source_text head).gives failed e rfl) behind
    have same : o.sourceAt e.pos = d.landing (o.sourceAt pos) := by
      rw [here]
      rfl
    obtain ⟨x, known, found, _⟩ := head_of_cutOff zeros cut
    rw [same, head] at found
    obtain rfl := Option.some.inj found
    exact strange known
  exact (fails _ o.source_text elsewhere).mono fun r => FailedBy.mono behind

section

variable (standard : d.StandardSpace)

include standard

/-- A list, and the mark that closes it. -/
theorem follows_list {α : Type} {element : Parser α} {closing : Parser Buffer} {c : Code}
    {make : List α → Json} {pos : Nat} (landed : d.landing (o.sourceAt pos) = o.sourceAt pos)
    (steady : element.Obeys forward)
    (follows : ∀ pos, o.FollowsAt (Broken (CutOff o)) element element pos)
    (tidy : ∀ t : State, t.input.kind = .text → element.TidyAt t) (stops : d.StopsAt c element)
    (strange : c ∉ text ",tfn") (last : closing.Obeys forward)
    (mirrors : ∀ pos, o.MirrorsAt closing closing pos)
    (fails : ∀ s : State, s.input.kind = .text → (d.landing s).rest.head? ≠ some c →
      closing.RepliesAt (FailedBy (d.landing s).pos) s) :
    o.FollowsAt (Broken (CutOff o))
      ((rounds element (d.comma.right element)).bind fun xs => closing.map fun _ => make xs)
      ((rounds element (d.comma.right element)).bind fun xs => closing.map fun _ => make xs) pos := by
  have comma : c ≠ 0x2C := by
    rintro rfl
    exact strange (by decide)
  have other : c ∉ text "tfn" := fun known => strange (List.mem_cons_of_mem _ known)
  have separator := mirrors_separator zeros standard (t := ",") (c := 0x2C) rfl rfl
  have onwards : (d.comma.right element).Obeys forward :=
    obeys_right forward_compositional (d.obeys_comma forward_compositional) steady
  refine FollowsAt.rounds_bind (follows pos) (fun mid => ?_) (tidy _ o.source_text) (fun mid => ?_)
    onwards (fun _ => obeys_map last _) (fun _ _ mid => FollowsAt.map (mirrors mid) _ _) ?_ ?_
  · exact (separator mid).follows.right (d.tidyAt_spacedMark "," _) steady fun _ _ stop _ _ _ =>
      follows stop
  · exact (d.tidyAt_spacedMark "," _).right steady fun _ _ _ => tidy _ o.source_text
  -- The first element is cut off, and the closing mark is looked for where it begins.
  · intro xs start e failed cut
    have behind : (d.landing (o.sourceAt pos)).pos ≤ e.pos := by
      rw [landed]
      exact (steady.repliesAt _).gives failed e rfl
    exact (failedBy_of_cutOff zeros other stops behind failed cut fails).map _
  -- One behind a comma is cut off, and the closing mark is looked for in front of the comma.
  · intro xs mid start e failed cut
    have behind := (d.further_behind steady _).gives failed e rfl
    exact (failedBy_of_cutOff zeros other (d.stopsAt_further comma _) behind failed cut fails).map _

/-! ## Containers, given that their members follow -/

section

variable {member : Parser Json} (steady : member.Obeys forward)
  (tidy : ∀ t : State, t.input.kind = .text → member.TidyAt t)
  (follows : ∀ pos, o.FollowsAt (Broken (CutOff o)) member member pos)

include steady

include follows in
theorem follows_entry (pos : Nat) :
    o.FollowsAt (Broken (CutOff o)) (d.entry member) (d.entry member) pos := by
  have separator := mirrors_separator zeros standard (t := ":") (c := 0x3A) rfl rfl
  refine (mirrors_quotedString zeros d pos).follows.bind (d.tidyAt_quotedString _) (fun _ => ?_) ?_
  · exact obeys_bind forward_compositional (d.obeys_colon forward_compositional) fun _ =>
      obeys_map steady _
  · intro _ _ mid _ _ _
    exact (separator mid).follows.bind (d.tidyAt_spacedMark ":" _) (fun _ => obeys_map steady _)
      fun _ _ stop _ _ _ => (follows stop).map _ _

include tidy follows

theorem follows_braced (pos : Nat) :
    o.FollowsAt (Broken (CutOff o)) (d.braced member) (d.braced member) pos := by
  have opening := mirrors_opening zeros standard (t := "\x7b") rfl rfl pos
  refine opening.follows.right (d.tidyAt_opening _ _) (d.steady_members steady)
    fun _ _ mid yields _ _ => ?_
  exact follows_list (c := 0x7D) zeros standard (d.landed_of_yields_opening yields)
    (d.obeys_entry d.covers_forward steady)
    (follows_entry zeros standard steady follows)
    (fun t kind => d.tidyAt_entry kind steady tidy) (d.stopsAt_entry standard member) (by decide)
    (d.obeys_mark forward_compositional _)
    (mirrors_spaced zeros standard rfl rfl) fun s kind other => failedBy_mark kind rfl other

theorem follows_bracketed (stops : d.StopsAt 0x5D member) (pos : Nat) :
    o.FollowsAt (Broken (CutOff o)) (d.bracketed member) (d.bracketed member) pos := by
  have opening := mirrors_opening zeros standard (t := "[") rfl rfl pos
  refine opening.follows.right (d.tidyAt_opening _ _) (d.steady_items steady)
    fun _ _ mid yields _ _ => ?_
  refine follows_list (c := 0x5D) zeros standard (d.landed_of_yields_opening yields) steady follows tidy
    stops (by decide) (d.obeys_spacedMark forward_compositional _)
    (mirrors_separator zeros standard rfl rfl) fun s kind other => ?_
  exact failedBy_bind (failedBy_mark kind rfl other) _

omit zeros standard steady tidy follows in
theorem follows_container {X : Reply Unit → Prop} {p : Parser Json} {pos : Nat}
    (follows : o.FollowsAt X p p pos) (name : String) :
    o.FollowsAt X (d.container name p) (d.container name p) pos := by
  apply FollowsAt.marking
  split
  · exact follows.concluded _
  · exact follows

/-- Both texts announce the same kind of value. -/
theorem follows_announced (stops : d.StopsAt 0x5D member) (pos : Nat) (c : Code) :
    o.FollowsAt (Broken (CutOff o)) (d.announced member (some (.ofText [c])))
      (d.announced member (some (.ofText [o.image c]))) pos := by
  have quiet := d.covers_forward
  have announces : ∀ x ∈ text "\x7b[", o.image c = x ↔ c = x := by
    have free : ∀ x ∈ text "\x7b[", CharClass.isDigit x = false := by decide
    exact fun x listed => image_eq_iff zeros (free x listed) c
  by_cases brace : c = 0x7B
  · rw [(announces 0x7B (by decide)).2 brace, brace]
    exact follows_container (follows_braced zeros standard steady tidy follows pos) _
  by_cases bracket : c = 0x5B
  · rw [(announces 0x5B (by decide)).2 bracket, bracket]
    refine follows_container (FollowsAt.passing ?_ (d.obeys_bracketed quiet steady) _) _
    exact follows_bracketed zeros standard steady tidy follows stops pos
  · rw [announced_other brace bracket, announced_other (mt (announces _ (by decide)).1 brace)
      (mt (announces _ (by decide)).1 bracket)]
    exact (follows_scalar zeros d pos).passing (d.obeys_scalar quiet.toReports) _

end

/-! ## Nesting -/

theorem follows_nested (levels pos : Nat) :
    o.FollowsAt (Broken (CutOff o)) (d.nested levels) (d.nested levels) pos := by
  induction levels generalizing pos with
  | zero => exact (mirrors_fail _).follows.marking _
  | succ levels ih =>
    have steady : (d.nested levels).Obeys forward := d.obeys_nested d.covers_forward levels
    rw [nested_succ, valueOver_eq]
    refine FollowsAt.marking ((mirrors_whiteSpace zeros standard pos).follows.right
      (d.tidyAt_whiteSpace _) ?_ fun _ _ mid _ _ _ => ?_) _
    · exact obeys_bind forward_compositional (obeys_peek forward_compositional)
        (d.steady_announced steady)
    · refine mirrors_peek.follows.bind (tidyAt_peek _) (d.steady_announced steady) ?_
      intro x y stop first second inside
      obtain ⟨rfl, c, -, rfl, rfl⟩ := yields_peek_both first second inside
      exact follows_announced zeros standard steady (fun t kind => d.tidyAt_nested standard levels kind)
        ih (d.stopsAt_nested levels) stop c

theorem follows_document (ends : d.requireEnd = true) (levels pos : Nat) :
    o.FollowsAt (Broken (CutOff o)) (d.document levels) (d.document levels) pos := by
  have space := d.obeys_whiteSpace forward_compositional
  have tidy : (d.value levels).TidyAt (o.sourceAt pos) :=
    d.tidyAt_reported (d.tidyAt_nested standard levels o.source_text) _
  have value : o.FollowsAt (Broken (CutOff o)) (d.value levels) (d.value levels) pos :=
    follows_reported (follows_nested zeros standard levels pos) _
  rw [document, if_pos ends]
  refine FollowsAt.left (FollowsAt.left value tidy space fun mid => ?_)
    (tidy.left space d.tidyAt_whiteSpace) (obeys_eof forward_compositional) fun mid => ?_
  · exact (mirrors_whiteSpace zeros standard mid).follows
  · exact mirrors_eof.follows

end

end Dialect

end

end Rewind.Json
