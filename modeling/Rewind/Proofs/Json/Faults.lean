import Rewind.Proofs.Json.Bytes
import Rewind.Proofs.Json.Soundness
import Rewind.Proofs.Number.Assembly

/-! # Faults of JSON runs

The only rule that may end a run with a fault is the one that puts numbers together, and it does so for
one kind of number: one with a fraction or an exponent whose whole part no float holds.  So a text in
which no such number stands is parsed to a value or rejected with a failure. -/

namespace Rewind.Json

open Rewind.Parser RunProperty Syntax Token

/-- Somewhere in the text stands a number with a fraction or an exponent whose whole part no float
holds. -/
inductive HoldsOversized : Text → Prop
  | intro {before whole fraction exponent after : Text} {w : Literal} {f e : Option Literal} :
      Numeral whole w → Part (text ".") fraction f → Part (text "eE") exponent e →
      (f ≠ none ∨ e ≠ none) → Number.floatLimit ≤ w.value.natAbs →
      HoldsOversized (before ++ (whole ++ fraction ++ exponent) ++ after)

def Oversized (t : Text) (cause : Fault) : Prop := cause = .numberTooLarge ∧ HoldsOversized t

/-! ## Numbers -/

namespace Dialect

variable (d : Dialect)

/-- The parts that cannot be put together have been read from the text. -/
theorem faultsOnlyAt_number {s : State} (kind : s.input.kind = .text) :
    d.number.FaultsOnlyAt (Oversized s.input.codes) s := by
  refine d.faultsOnlyAt_reported ?_ _
  refine (faultless_integer _ _ kind).bind fun w mid first => ?_
  refine (faultless_introduced _ _ (s.goto mid) kind).bind fun f stop second => ?_
  refine (faultless_introduced _ _ (s.goto stop) kind).bind fun e last third => ?_
  obtain ⟨whole, numeral, spans⟩ := reads_integer _ _ _ first
  obtain ⟨fraction, part, spans'⟩ := reads_introduced _ _ _ _ second
  obtain ⟨exponent, part', spans''⟩ := reads_introduced _ _ _ _ third
  simp only [assembled]
  split
  · exact faultless_pure _ _ _ kind
  · rename_i cause fails
    rintro _ _ ⟨⟩
    obtain ⟨rfl, parts, large⟩ := Number.assemble_eq_error_iff.1 fails
    have ahead : s.rest = whole ++ fraction ++ exponent ++ s.input.rest last :=
      (spans.append spans').append spans''
    have split : s.input.codes =
        s.input.codes.take s.pos ++ (whole ++ fraction ++ exponent) ++ s.input.rest last := by
      rw [List.append_assoc, ← ahead]
      exact (List.take_append_drop _ _).symm
    rw [split]
    exact ⟨rfl, .intro numeral part part' parts large⟩

/-! ## Containers, given where their members may fault -/

section

variable {b : Buffer} (kind : b.kind = .text)

include kind

theorem faultsOnlyAt_scalar {s : State} (here : s.input = b) :
    d.scalar.FaultsOnlyAt (Oversized b.codes) s := by
  subst here
  refine .oneOf (faultless_map d.faultless_quotedString _ _ _ kind) ?_
  simp only [List.mem_cons, List.not_mem_nil, or_false]
  rintro p (rfl | rfl | rfl)
  · exact faultless_map d.faultless_boolean _ _ _ kind
  · exact faultless_map d.faultless_null _ _ _ kind
  · exact (d.faultsOnlyAt_number kind).map _

variable {why : Fault → Prop} {member : Parser Json}
  (members : ∀ s : State, s.input = b → member.FaultsOnlyAt why s)
  (steady : member.Obeys RunProperty.forward)

include members

theorem faultsOnlyAt_entry {s : State} (here : s.input = b) : (d.entry member).FaultsOnlyAt why s := by
  subst here
  exact (d.faultless_quotedString _ _ kind).bind fun _ mid _ =>
    (d.faultless_colon _ (s.goto mid) kind).bind fun _ stop _ =>
      (members ((s.goto mid).goto stop) rfl).map _

include steady

theorem faultsOnlyAt_braced {s : State} (here : s.input = b) :
    (d.braced member).FaultsOnlyAt why s := by
  have entry (t : State) (same : t.input = b) := d.faultsOnlyAt_entry kind members same
  have advances := d.advances_entry steady
  subst here
  refine (d.faultless_opening "\x7b" _ _ kind).right fun _ mid _ => RepliesAt.bind ?_ fun _ stop _ => ?_
  · refine .rounds advances ?_ (entry _ rfl) fun t reached => ?_
    · exact advances_bind_rest (d.obeys_comma forward_compositional) fun _ => advances
    · refine (d.faultless_comma _ _ (reached.input_eq ▸ kind)).right fun _ _ _ => ?_
      exact entry _ reached.input_eq
  · exact (d.faultless_mark "\x7d" _ (s.goto stop) kind).map _

omit steady in
theorem faultsOnlyAt_bracketed (advances : member.Advances) {s : State} (here : s.input = b) :
    (d.bracketed member).FaultsOnlyAt why s := by
  subst here
  refine (d.faultless_opening "[" _ _ kind).right fun _ mid _ => RepliesAt.bind ?_ fun _ stop _ => ?_
  · refine .rounds advances ?_ (members _ rfl) fun t reached => ?_
    · exact advances_bind_rest (d.obeys_comma forward_compositional) fun _ => advances
    · refine (d.faultless_comma _ _ (reached.input_eq ▸ kind)).right fun _ _ _ => ?_
      exact members _ reached.input_eq
  · exact (d.faultless_spacedMark "]" _ (s.goto stop) kind).map _

end

/-! ## Nesting -/

theorem faultsOnlyAt_tooDeep {why : Fault → Prop} {s : State} (kind : s.input.kind = .text) :
    tooDeep.FaultsOnlyAt why s :=
  (faultless_fail _ _ _ kind).marking _

/-- Where the stack runs out there is a failure instead of a fault. -/
theorem faultsOnlyAt_guarded {p : Parser Json} {why : Fault → Prop} {s : State}
    (kind : s.input.kind = .text) (only : p.FaultsOnlyAt why s) (stack : Stack) (level : Nat) :
    (guarded stack level p).FaultsOnlyAt why s := by
  intro j
  simp only [guarded]
  split
  · exact only j
  · exact faultsOnlyAt_tooDeep kind _

theorem faultsOnlyAt_container {p : Parser Json} {why : Fault → Prop} {s : State}
    (only : p.FaultsOnlyAt why s) (name : String) : (d.container name p).FaultsOnlyAt why s := by
  apply RepliesAt.marking
  split
  · exact only.concluded _
  · exact only

section

variable {b : Buffer} (kind : b.kind = .text)

include kind

theorem faultsOnlyAt_nested (levels : Nat) {stack : Stack} {s : State} (here : s.input = b) :
    (d.nested levels stack).FaultsOnlyAt (Oversized b.codes) s := by
  induction levels generalizing s with
  | zero => exact faultsOnlyAt_tooDeep (here ▸ kind)
  | succ levels ih =>
    have members (t : State) (same : t.input = b) :=
      faultsOnlyAt_guarded (same ▸ kind) (ih same) stack levels
    have steady : (guarded stack levels (d.nested levels stack)).Obeys forward :=
      d.obeys_guarded d.covers_forward (d.obeys_nested d.covers_forward levels) stack levels
    rw [nested_succ_on, valueOver_eq]
    -- Up to the opening character nothing faults, and what comes then is told apart by it.
    refine RepliesAt.marking ?_ _
    have kind' : s.input.kind = .text := here ▸ kind
    refine (d.faultless_whiteSpace _ _ kind').right fun _ mid _ => ?_
    refine (faultless_peek _ (s.goto mid) kind').bind fun c _ _ => ?_
    simp only [announced]
    split
    · refine d.faultsOnlyAt_container (d.faultsOnlyAt_braced kind members steady ?_) _
      exact here
    · split
      · refine d.faultsOnlyAt_container (RepliesAt.passing ?_ _ Reply.faultsOnly_failed) _
        exact d.faultsOnlyAt_bracketed kind members
          (advances_guarded (d.advances_nested levels) stack levels) here
      · refine RepliesAt.passing ?_ _ Reply.faultsOnly_failed
        exact d.faultsOnlyAt_scalar kind here

theorem faultsOnlyAt_document (levels : Nat) {stack : Stack} :
    (d.document levels stack).FaultsOnlyAt (Oversized b.codes) (.start b) := by
  have value : (d.value levels stack).FaultsOnlyAt (Oversized b.codes) (.start b) :=
    d.faultsOnlyAt_reported (d.faultsOnlyAt_nested kind levels rfl) _
  simp only [document]
  split
  · exact (value.left fun _ _ _ => d.faultless_whiteSpace _ _ kind).left fun _ _ _ =>
      faultless_eof _ _ kind
  · exact value

end

end Dialect

/-! ## Parsing and loading -/

def Spells (input : Buffer) (t : Text) : Prop :=
  match input.kind with
  | .text => input.codes = t
  | .bytes => Utf8.Encodes input.codes t

theorem parse_ofText_error {d : Dialect} {t : Text} {levels : Nat} {stack : Stack} {cause : Fault}
    (faulty : parse d (.ofText t) levels stack = .error cause) : Oversized t cause := by
  have document : (d.document levels stack).FaultsOnlyAt (Oversized t) (.start (.ofText t)) := by
    rw [← Buffer.codes_ofText t]
    exact d.faultsOnlyAt_document rfl levels
  have only := Dialect.faultsOnlyAt_guarded rfl document stack levels
  have replied : ((guarded stack levels (d.document levels stack)).parse (.ofText t)).1 = .fault cause :=
    Reply.result_eq_error_iff.1 faulty
  exact only .empty cause (congrArg Reply.shape replied)

/-- Parsing answers with a value or a failure, except on inputs whose text holds a number out of range;
loading has no value exactly when parsing has none, for the same reason; and the parts of a number that
is in range make a float whenever there is more than a whole part. -/
theorem parse_answers (d : Dialect) (input : Buffer) (levels : Nat) (stack : Stack) :
    (∀ cause, parse d input levels stack = .error cause →
        cause = .numberTooLarge ∧ ∃ t, Spells input t ∧ HoldsOversized t) ∧
      (∀ e, load d input levels stack = .error (.rejected e) ↔
        parse d input levels stack = .ok (.error e)) ∧
      (∀ cause, load d input levels stack = .error (.fault cause) ↔
        parse d input levels stack = .error cause) ∧
      (∀ w f e, f ≠ none ∨ e ≠ none →
        ((∃ x, Number.assemble d.exactFractions w f e = .ok (.float x)) ↔
          w.value.natAbs < Number.floatLimit) ∧
        (∀ cause, Number.assemble d.exactFractions w f e = .error cause →
          cause = .numberTooLarge)) := by
  refine ⟨fun cause faulty => ?_, fun e => ?_, fun cause => ?_, fun w f e parts => ⟨?_, ?_⟩⟩
  · cases kind : input.kind with
    | text =>
      rw [← Buffer.ofText_codes kind] at faulty
      obtain ⟨rfl, holds⟩ := parse_ofText_error faulty
      exact ⟨rfl, input.codes, by rw [Spells, kind], holds⟩
    | bytes =>
      -- Bytes are parsed as the text that they encode, or fail before anything is parsed.
      by_cases wellFormed : Utf8.WellFormed input.codes
      · obtain ⟨t, encodes⟩ := wellFormed
        rw [parse_of_encodes d kind levels stack encodes] at faulty
        obtain ⟨rfl, holds⟩ := parse_ofText_error faulty
        exact ⟨rfl, t, by rwa [Spells, kind], holds⟩
      · obtain ⟨k, _, _, _, fails⟩ :=
          exists_parse_of_not_wellFormed d kind levels stack wellFormed
        rw [fails] at faulty
        cases faulty
  · rw [load]
    rcases parse d input levels stack with cause | (error | v) <;> simp
  · rw [load]
    rcases parse d input levels stack with cause | (error | v) <;> simp
  · exact Number.exists_assemble_eq_float_iff parts
  · exact fun cause fails => (Number.assemble_eq_error_iff.1 fails).1

/-- Ten to the power of 309 and a half. -/
theorem parse_power_and_half :
    parse .lenient (.ofText (text "1" ++ List.replicate 309 0x30 ++ text ".5")) =
        .error .numberTooLarge ∧
      load .lenient (.ofText (text "1" ++ List.replicate 309 0x30 ++ text ".5")) =
        .error (.fault .numberTooLarge) := by
  have faulty : parse .lenient (.ofText (text "1" ++ List.replicate 309 0x30 ++ text ".5")) =
      .error .numberTooLarge := by decide +kernel
  exact ⟨faulty, by rw [load, faulty]⟩

end Rewind.Json
