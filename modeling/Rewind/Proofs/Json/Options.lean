import Rewind.Proofs.Json.Lockstep
import Rewind.Proofs.Json.Recognition
import Rewind.Proofs.Json.Tracking
import Rewind.Proofs.Number.Assembly

/-! # What the options of a dialect affect

How fractions count decides on the value of floats and on nothing else.  Whether escapes are decoded
makes no difference where there are none: a string with escapes is read in runs of characters, and the
attempt to read one more run fails at the closing quote.  That failure is swallowed with the quote still
ahead, and so it never is the furthest one.

Decoding escapes does take a part of the stack, and so there is less of it for the nesting. -/

namespace Rewind

open Rewind.Run Rewind.Parser RunProperty Json.Token

/-! ## Replies up to offsets -/

/-- A reply without its ghost, and a failure only by its offset. -/
def Reply.outline {α : Type} : Reply α → Reply α
  | .matched x pos _ => .matched x pos none
  | .failed start e => .failed start ⟨e.pos, [], none⟩
  | .fault cause => .fault cause

theorem Reply.Tracks.outline_eq {α : Type} {b : Buffer} {kind : b.kind = .text} {r r' : Reply α}
    (tracks : Tracks (.offsets b kind) r r') : r.outline = r'.outline := by
  cases tracks with
  | matched _ => rfl
  | failed same => rw [outline, outline, show _ = _ from same]
  | excused excused => exact excused.elim
  | fault => rfl

/-- Every run of `p` matches `x`, ends at `stop` and carries no failure from beyond. -/
def Parser.ComesTo {α : Type} (p : Parser α) (s : State) (x : α) (stop : Nat) : Prop :=
  ∀ j, ∃ ghost, (p.run s j).1 = .matched x stop ghost ∧ ∀ e ∈ ghost, e.pos ≤ stop

theorem Parser.ComesTo.map {α β : Type} {p : Parser α} {s : State} {x : α} {stop : Nat}
    (comes : p.ComesTo s x stop) (f : α → β) : (p.map f).ComesTo s (f x) stop := by
  intro j
  obtain ⟨ghost, ran, before⟩ := comes j
  exact ⟨ghost, congrArg (Reply.map f) ran, before⟩

/-- Two bodies that come to the same, and what closes them. -/
theorem Tolerance.tracks_closed {α β : Type} {b : Buffer} (kind : b.kind = .text) {x : α}
    {p q : Parser α} {closing : Parser β} {pos stop : Nat} (first : p.ComesTo ⟨b, pos⟩ x stop)
    (second : q.ComesTo ⟨b, pos⟩ x stop) (closes : Closing closing) (advances : closing.Advances)
    (inPlace : closing.FailsInPlace) :
    (offsets b kind).Tracks (p.bind fun x => closing.map fun _ => x)
      (q.bind fun x => closing.map fun _ => x) pos := by
  intro j k
  change Reply.Tracks _ ((p.bind fun x => closing.map fun _ => x).run ⟨b, pos⟩ j).1
    ((q.bind fun x => closing.map fun _ => x).run ⟨b, pos⟩ k).1
  obtain ⟨ghost, ran, before⟩ := first j
  obtain ⟨ghost', ran', before'⟩ := second k
  -- From here on both do the same, and what they have swallowed lies before the closing mark.
  have same := closes.oblivious.reply_eq ⟨b, stop⟩ (p.run ⟨b, pos⟩ j).2 (q.run ⟨b, pos⟩ k).2
  rw [run_bind, run_bind, resume_matched (Prod.ext ran rfl), resume_matched (Prod.ext ran' rfl)]
  simp only [State.goto, Run.after, run_map, Run.map, same]
  cases closed : (closing.run ⟨b, stop⟩ (p.run ⟨b, pos⟩ j).2).1 with
  | matched y last next =>
    have gives : Gives (closing.run ⟨b, stop⟩) (.matched y last next) := ⟨_, _, Prod.ext closed rfl⟩
    obtain rfl := closes.ghostless _ y last next gives
    obtain ⟨further, _⟩ := advances _ y last ⟨none, gives⟩
    simp only [Reply.map, Reply.after, Failure.join_none]
    refine .matched (.inr ⟨trivial, fun e carried => ?_, fun e carried => ?_⟩)
    · exact Nat.lt_of_le_of_lt (before e carried) further
    · exact Nat.lt_of_le_of_lt (before' e carried) further
  | failed start e =>
    have gives : Gives (closing.run ⟨b, stop⟩) (.failed start e) := ⟨_, _, Prod.ext closed rfl⟩
    have here : e.pos = stop := (inPlace _).gives gives e rfl
    refine .failed ?_
    rw [← here] at before before'
    exact (Failure.pos_cover before').trans (Failure.pos_cover before).symm
  | fault cause => exact .fault

/-! ## Exact fractions -/

def Value.unvalued : Value → Value
  | .float _ => .float 0
  | leaf => leaf

namespace Json

def Dialect.counting (d : Dialect) (exact : Bool) : Dialect := { d with exactFractions := exact }

/-- Numbers are of the same kind, and integers are the same. -/
theorem Dialect.inStep_number_counting (d : Dialect) (exact : Bool) (b : Buffer) :
    (Pairing.exact b).InStep (fun m n =>
      (Value.ofNumber m).mapLeaves .unvalued = (Value.ofNumber n).mapLeaves .unvalued)
      d.number (d.counting exact).number := by
  have part (introducers : Text) :=
    Pairing.InStep.of_scripted (b := b) (Token.scripted_introduced introducers)
  refine inStep_reported d (d.counting exact) ?_ _
  refine (Pairing.InStep.of_scripted Token.scripted_integer).bind fun w _ same => ?_
  subst same
  refine (part _).bind fun f _ same => ?_
  subst same
  refine (part _).bind fun e _ same => ?_
  subst same
  rw [assembled, assembled]
  obtain ⟨n, int⟩ | ⟨cause, error⟩ | float := Number.assemble_alike w f e
  · rw [int, int]
    exact .pure rfl
  · rw [error, error]
    exact .raise trivial
  · obtain ⟨x, first⟩ := float d.exactFractions
    obtain ⟨y, second⟩ := float (d.counting exact).exactFractions
    rw [first, second]
    exact .pure rfl

theorem Rule.run_counting (rule : Rule) (d : Dialect) (exact : Bool) (levels : Nat) (s : State)
    (j k : Journal) :
    ((rule.parser d levels).run s j).1.map (Value.mapLeaves .unvalued) =
      ((rule.parser (d.counting exact) levels).run s k).1.map (Value.mapLeaves .unvalued) := by
  have alike : Dialect.Alike (fun v w => v.mapLeaves .unvalued = w.mapLeaves .unvalued) s.input d
      (d.counting exact) :=
    { whitespace := rfl
      requireEnd := rfl
      strings := .of_scripted d.scripted_quotedString
      numbers := d.inStep_number_counting exact s.input }
  have step : (Pairing.exact s.input).InStep _ (rule.parser d levels)
      (rule.parser (d.counting exact) levels) :=
    alike.rule (Value.congruence_mapLeaves Value.unvalued) levels rule
  exact ((step s.pos j k).map (W := Eq) fun _ _ same => same).eq

/-! ## Escapes

Where neither a backslash nor a surrogate stands, the bodies of strings come to the same. -/

/-- Neither a backslash nor a surrogate is in the text. -/
def Unescaped (t : Text) : Prop := ∀ c ∈ t, c ≠ 0x5C ∧ ¬ (0xD800 ≤ c ∧ c ≤ 0xDFFF)

instance (t : Text) : Decidable (Unescaped t) :=
  inferInstanceAs (Decidable (∀ c ∈ t, c ≠ 0x5C ∧ ¬ (0xD800 ≤ c ∧ c ≤ 0xDFFF)))

namespace Token

/-- Without backslashes, the items of a string are the characters up to a quote, in one piece. -/
theorem accepts_unescaped {ahead : Text} (free : ∀ c ∈ ahead, c ≠ 0x5C) :
    ∃ parts : List Text, parts.flatten = ahead.takeWhile (· != 0x22) ∧
      (escape.orElse chunk).zeroOrMore.Accepts ahead parts (ahead.dropWhile (· != 0x22)) := by
  have whole := List.takeWhile_append_dropWhile (p := (· != 0x22)) (l := ahead)
  have stops : ∀ c ∈ (ahead.dropWhile (· != 0x22)).head?, c = 0x22 := by
    intro c head
    have quote := List.head?_dropWhile_not (· != 0x22) ahead
    rw [head] at quote
    simpa using quote
  have plain : ∀ c ∈ ahead.takeWhile (· != 0x22), isPlain c = true := by
    intro c member
    have kept := List.mem_takeWhile_imp member
    have backslash := free c ((List.takeWhile_prefix _).subset member)
    simp [isPlain, backslash, kept]
  generalize ahead.takeWhile (· != 0x22) = run at whole plain ⊢
  generalize ahead.dropWhile (· != 0x22) = tail at whole stops ⊢
  subst whole
  have ends : (escape.orElse chunk).zeroOrMore.Accepts tail [] tail := by
    refine Rejects.zeroOrMore (Rejects.orElse (rejects_escape fun c head => ?_)
      (rejects_chunk fun c head => ?_))
    · rw [stops c head]
      decide
    · rw [stops c head]
      rfl
  -- A chunk takes one character at least, so that of an empty string there is none.
  by_cases empty : run = []
  · subst empty
    exact ⟨[], rfl, ends⟩
  · refine ⟨[run], List.flatten_singleton, ?_⟩
    refine Accepts.zeroOrMore (Rejects.orElse_accepts (rejects_escape ?_)
      (accepts_chunk empty plain fun c head => ?_)) advances_item ends
    · intro c head
      exact free c (List.mem_of_mem_head? head)
    · rw [stops c head]
      rfl

/-- What the loop has swallowed lies no further than where it ends: there no item begins. -/
theorem items_comeTo {s : State} (kind : s.input.kind = .text) (inside : s.pos ≤ s.input.size)
    (free : ∀ c ∈ s.input.codes, c ≠ 0x5C) :
    ∃ parts : List Text, parts.flatten = s.rest.takeWhile (· != 0x22) ∧
      (escape.orElse chunk).zeroOrMore.ComesTo s parts
        (s.pos + (s.rest.takeWhile (· != 0x22)).length) := by
  have ahead {t : State} (here : t.input = s.input) : ∀ c ∈ t.rest, c ≠ 0x5C := by
    intro c member
    exact free c (here ▸ (List.drop_sublist _ _).subset member)
  obtain ⟨parts, whole, accepts⟩ := accepts_unescaped (ahead rfl)
  refine ⟨parts, whole, fun j => ?_⟩
  obtain ⟨pos, ghost, k, ran, left⟩ := accepts.run kind rfl j
  have gives : Gives ((escape.orElse chunk).zeroOrMore.run s) (.matched parts pos ghost) := ⟨j, k, ran⟩
  have items := obeys_orElse forward_compositional (obeys_escape forward_compositional)
    (obeys_chunk forward_compositional)
  have reached := Yields.precedes (obeys_zeroOrMore forward_compositional items) ⟨ghost, gives⟩
  have spans : s.Spans (s.rest.takeWhile (· != 0x22)) pos := by
    rw [State.Spans, left, List.takeWhile_append_dropWhile]
  rw [← spans.pos_eq inside (reached.inside inside)]
  refine ⟨ghost, congrArg Prod.fst ran, ?_⟩
  -- What ends the loop fails where it stands, as no escape begins there.
  refine zeroOrMore_carried_le advances_item (scripted_orElse scripted_escape scripted_chunk)
    (fun _ => tidyAt_item _) gives (Nat.le_refl pos) fun start e failed => ?_
  have misses : escape.MissesAt (s.goto pos) := missesAt_escape fun head =>
    ahead (t := s.goto pos) rfl 0x5C (List.mem_of_mem_head? head) rfl
  have inPlace := RepliesAt.orElse (misses.repliesAt (P := (· = pos)) rfl) (failsInPlace_chunk _)
  exact Nat.le_of_eq (inPlace.gives failed e rfl)

end Token

/-- The body of a string goes up to the next quote. -/
theorem Dialect.stringBody_comesTo (d : Dialect) {s : State} (kind : s.input.kind = .text)
    (inside : s.pos ≤ s.input.size) (free : Unescaped s.input.codes) :
    d.stringBody.ComesTo s (s.rest.takeWhile (· != 0x22))
      (s.pos + (s.rest.takeWhile (· != 0x22)).length) := by
  simp only [stringBody]
  split
  case isTrue =>
    obtain ⟨parts, whole, comes⟩ := items_comeTo kind inside fun c member => (free c member).1
    have joined : Surrogate.join parts.flatten = s.rest.takeWhile (· != 0x22) := by
      rw [whole]
      refine Surrogate.join_eq_self fun c member => (free c ?_).2
      exact (List.drop_sublist _ _).subset ((List.takeWhile_prefix _).subset member)
    rw [← joined] at comes ⊢
    exact comes.map fun parts => Surrogate.join parts.flatten
  case isFalse =>
    intro j
    refine ⟨none, ?_, fun _ carried => absurd carried (Option.not_mem_none _)⟩
    show Reply.matched (s.input.slice s.pos (s.input.runEnd (· != 0x22) s.pos)).codes
      (s.input.runEnd (· != 0x22) s.pos) none = _
    rw [codes_slice_runEnd, Buffer.runEnd_eq]
    rfl

/-! ### Strings and scalars -/

section

variable {b : Buffer} (kind : b.kind = .text)

namespace Dialect

variable (d : Dialect) (decode : Bool)

theorem scripted_unquoted : (oneOf d.unquoted).Scripted := by
  apply scripted_oneOf
  simp only [unquoted, List.mem_cons, List.not_mem_nil, or_false]
  rintro p (rfl | rfl | rfl)
  · exact scripted_map d.scripted_boolean _
  · exact scripted_map d.scripted_null _
  · exact scripted_map d.scripted_number _

/-- Without escapes, strings and scalars keep track of each other. -/
theorem tracked_escaping (free : Unescaped b.codes) : d.Tracked (.offsets b kind) decode := by
  have quote := advances_verbatim (t := "\"") (by decide)
  have closes : Tolerance.Closing (verbatim "\"") :=
    { oblivious := (scripted_verbatim _).oblivious
      faultless := faultless_verbatim _
      steady := obeys_verbatim forward_compositional _
      ghostless := ghostless_literal _ }
  have steady (d : Dialect) : (d.stringBody.bind fun x => (verbatim "\"").map fun _ => x).Obeys
      forward :=
    obeys_bind forward_compositional (d.obeys_stringBody forward_compositional) fun _ =>
      obeys_map closes.steady _
  have strings (pos : Nat) :
      (Tolerance.offsets b kind).Tracks d.quotedString (d.escaping decode).quotedString pos := by
    have opening : (Tolerance.offsets b kind).Tracks (verbatim "\"") (verbatim "\"") pos :=
      .self (scripted_verbatim _) (tidyAt_verbatim _ _)
    refine tracks_reported (opening.bind (fun _ => steady d) (fun _ => steady (d.escaping decode))
      fun _ mid yields => ?_) _
    obtain ⟨_, inside⟩ := quote _ _ mid yields
    exact Tolerance.tracks_closed kind (d.stringBody_comesTo (s := ⟨b, mid⟩) kind inside free)
      ((d.escaping decode).stringBody_comesTo (s := ⟨b, mid⟩) kind inside free) closes quote
      (failsInPlace_literal _)
  refine ⟨strings, fun pos => ?_⟩
  -- The other scalars are the same in both dialects.
  have others : (Tolerance.offsets b kind).Tracks (oneOf d.unquoted) (oneOf d.unquoted) pos :=
    .self d.scripted_unquoted (d.tidyAt_unquoted _)
  refine ((strings pos).map _).oneOf_cons others d.obeys_unquoted (fun _ => id) ?_
  exact (d.quotedString_or_unquoted (s := ⟨b, pos⟩) kind).imp_left fun inPlace => inPlace.map _

end Dialect

end

theorem Rule.run_escaping (rule : Rule) (d : Dialect) (decode : Bool) (levels : Nat) {s : State}
    (kind : s.input.kind = .text) (free : Unescaped s.input.codes) (j k : Journal) :
    ((rule.parser d levels).run s j).1.outline =
      ((rule.parser (d.escaping decode) levels).run s k).1.outline :=
  ((d.tracked_escaping kind decode free).rule (.inl rfl) rule j k).outline_eq

/-- Within the limits it makes no difference that the limits differ, nor that the stacks do. -/
theorem Rule.run_escaping_of_withinLimit {rule : Rule} {d : Dialect} {decode : Bool}
    {levels levels' : Nat} {stack stack' : Stack} {s : State} {j k : Journal}
    (kind : s.input.kind = .text) (free : Unescaped s.input.codes)
    (within : WithinLimit ((rule.parser d levels stack).run s j).2)
    (within' : WithinLimit ((rule.parser (d.escaping decode) levels' stack').run s k).2) :
    ((rule.parser d levels stack).run s j).1.outline =
      ((rule.parser (d.escaping decode) levels' stack').run s k).1.outline := by
  have raw := Rule.run_eq_of_withinLimit (Nat.le_max_left levels levels') within j
  have decoded := Rule.run_eq_of_withinLimit (Nat.le_max_right levels levels') within' k
  rw [← raw, ← decoded]
  exact rule.run_escaping d decode _ kind free j k

/-! ## The whole -/

/-- The options of a dialect affect only what they name.  Whether fractions are exact makes no difference
but for the value of floats: not to success, failure or fault, to the cursor, to any failure or ghost, or
to the form of the value and the leaves that are not floats.  Whether escapes are decoded makes no
difference on text without backslashes and surrogates, within the limits on the nesting, but for what was
expected and swallowed: replies agree on the value and the cursor, on the offset of the failure, and on
the fault. -/
theorem options_affect_only_what_they_name :
    (∀ (rule : Rule) (d : Dialect) (exact : Bool) (levels : Nat) (s : State) (j k : Journal),
      ((rule.parser d levels).run s j).1.map (Value.mapLeaves .unvalued) =
        ((rule.parser (d.counting exact) levels).run s k).1.map (Value.mapLeaves .unvalued)) ∧
    ∀ (rule : Rule) (d : Dialect) (decode : Bool) (levels levels' : Nat) (stack stack' : Stack)
      (s : State) (j k : Journal), s.input.kind = .text → Unescaped s.input.codes →
      WithinLimit ((rule.parser d levels stack).run s j).2 →
      WithinLimit ((rule.parser (d.escaping decode) levels' stack').run s k).2 →
      ((rule.parser d levels stack).run s j).1.outline =
        ((rule.parser (d.escaping decode) levels' stack').run s k).1.outline :=
  ⟨Rule.run_counting, fun _ _ _ _ _ _ _ _ _ _ kind free within within' =>
    Rule.run_escaping_of_withinLimit kind free within within'⟩

/-- An object with a string and two numbers, cut short in the second string, under different limits. -/
theorem options_affect_only_what_they_name_in_object :
    let source := Buffer.ofText (text "x \x7b\"a\": [1.05, 2], \"b")
    let decoding := Dialect.lenient.escaping true
    source.kind = .text ∧ Unescaped source.codes ∧
      WithinLimit ((Rule.document.parser .lenient 4).run ⟨source, 1⟩ .empty).2 ∧
      WithinLimit ((Rule.document.parser decoding 3).run ⟨source, 1⟩ .empty).2 ∧
      ((Rule.document.parser .lenient 4).run ⟨source, 1⟩ .empty).1.outline =
        ((Rule.document.parser decoding 3).run ⟨source, 1⟩ .empty).1.outline := by
  intro source decoding
  have free : Unescaped source.codes := by decide +kernel
  have within : WithinLimit ((Rule.document.parser .lenient 4).run ⟨source, 1⟩ .empty).2 := by
    decide +kernel
  have within' : WithinLimit ((Rule.document.parser decoding 3).run ⟨source, 1⟩ .empty).2 := by
    decide +kernel
  exact ⟨rfl, free, within, within', options_affect_only_what_they_name.2 .document .lenient true 4 3
    [] [] _ .empty .empty rfl free within within'⟩

/-! ## Beyond the limit

A string within so many arrays that there is room for it only if its escapes are not decoded. -/

def inArrays : (n : Nat) → Text
  | 0 => text "\"a\""
  | n + 1 => 0x5B :: inArrays n ++ [0x5D]

theorem codes_inArrays (n : Nat) : ∀ c ∈ inArrays n, c ∈ text "[]\"a" := by
  induction n with
  | zero => decide
  | succ n ih => simpa [inArrays, or_imp, forall_and] using ⟨by decide, ih, by decide⟩

theorem unescaped_inArrays (n : Nat) : Unescaped (inArrays n) := fun c member =>
  have plain : ∀ c ∈ text "[]\"a", c ≠ 0x5C ∧ ¬ (0xD800 ≤ c ∧ c ≤ 0xDFFF) := by decide
  plain c (codes_inArrays n c member)

theorem exists_valueWithin_inArrays {d : Dialect} (raw : d.decodeEscapes = false) {levels n : Nat}
    (room : n < levels) : ∃ v, Syntax.ValueWithin d levels (inArrays n) v := by
  induction n generalizing levels with
  | zero =>
    obtain ⟨levels, rfl⟩ := Nat.exists_eq_add_of_lt room
    have body : Syntax.Body d (text "a") (text "a") := .raw raw (by decide)
    exact ⟨_, .scalar (.string (.intro body))⟩
  | succ n ih =>
    obtain _ | levels := levels
    · exact absurd room (Nat.not_lt_zero _)
    obtain ⟨v, derived⟩ := ih (Nat.lt_of_succ_lt_succ room)
    have blank : Syntax.Blank d [] := List.forall_mem_nil _
    have items := Syntax.Separated.cons derived (.nil (d := d))
    have array := Syntax.ValueOver.array blank items blank
    simp only [List.append_nil] at array
    exact ⟨_, array⟩

namespace Dialect

variable {d : Dialect}

theorem skip_inArrays (standard : d.StandardSpace) (n : Nat) (tail : Text) :
    d.skip (inArrays n ++ tail) = inArrays n ++ tail := by
  cases n <;> exact skip_cons (standard.solid (by decide)) _

/-- An array fails whose first member does, unless it is closed at once. -/
theorem rejects_bracketed {member : Parser Json} {tail : Text} (solid : d.skip tail = tail)
    (rejects : member.Rejects tail) (unclosed : tail.head? ≠ some 0x5D) :
    (d.bracketed member).Rejects (0x5B :: tail) := by
  have opening := d.accepts_opening (t := "[") (by decide) tail
  change Accepts _ _ _ (d.skip _) at opening
  rw [solid] at opening
  rw [← solid] at unclosed
  have closing := d.rejects_mark (t := "]") rfl unclosed
  exact opening.bind_rejects ((rejects.rounds _).bind_rejects (closing.map _))

/-- At the limit, an array that begins with a value fails: the value is too deep, and the mark that
closes an empty array is missing. -/
theorem rejects_nested_inArrays (standard : d.StandardSpace) {levels n : Nat} (deep : levels ≤ n)
    (tail : Text) : (d.nested levels).Rejects (inArrays n ++ tail) := by
  induction levels generalizing n tail with
  | zero => exact fun s _ _ j => ⟨_, _, rfl⟩
  | succ levels ih =>
    obtain _ | n := n
    · exact absurd deep (Nat.not_succ_le_zero _)
    obtain ⟨b, space⟩ := d.accepts_whiteSpace (inArrays (n + 1) ++ tail)
    rw [skip_inArrays standard] at space
    have member := ih (Nat.le_of_succ_le_succ deep) (0x5D :: tail)
    have unclosed : (inArrays n ++ 0x5D :: tail).head? ≠ some 0x5D := by cases n <;> nofun
    have array := rejects_bracketed (skip_inArrays standard n _) member unclosed
    rw [nested_succ, valueOver_eq]
    refine (space.bind_rejects ((accepts_peek _).bind_rejects ?_)).marking _
    rw [inArrays, List.append_assoc]
    exact rejects_container (array.passing _) _

end Dialect

/-- Each dialect at its own limit. -/
theorem escaping_lowers_limit :
    let source := Buffer.ofText (inArrays 975)
    let decoding := Dialect.lenient.escaping true
    source.kind = .text ∧ Unescaped source.codes ∧
      (∃ v pos ghost, ((Rule.value.parser .lenient Dialect.lenient.nestingLimit).run (.start source)
        .empty).1 = .matched v pos ghost) ∧
      ∃ start e, ((Rule.value.parser decoding decoding.nestingLimit).run (.start source) .empty).1 =
        .failed start e := by
  intro source decoding
  have free : Unescaped source.codes := by
    rw [Buffer.codes_ofText]
    exact unescaped_inArrays 975
  have begins : (State.start source).rest = inArrays 975 := State.rest_start _
  refine ⟨rfl, free, ?_, ?_⟩
  · have room : 975 < Dialect.lenient.nestingLimit := by decide
    obtain ⟨v, derived⟩ := exists_valueWithin_inArrays (d := .lenient) rfl room
    obtain ⟨left, accepts, _⟩ := Dialect.accepts_value (by decide) (Syntax.padded_self derived)
    obtain ⟨pos, ghost, matched, _⟩ := accepts (.start source) rfl begins .empty
    exact ⟨_, pos, ghost, congrArg (Reply.map Value.ofJson) matched⟩
  · have deep : decoding.nestingLimit ≤ 975 := by decide
    have rejects := Dialect.rejects_nested_inArrays (d := decoding) (by decide) deep []
    rw [List.append_nil] at rejects
    obtain ⟨start, e, failed⟩ := rejects (.start source) rfl begins .empty
    exact ⟨start, e, congrArg (Reply.map Value.ofJson) failed⟩

end Json

end Rewind
