import Rewind.Grammar.Rule
import Rewind.Proofs.Parser.RunProperty

/-! # Properties of JSON runs

The rules of the JSON grammar are put together from the same primitives and combinators as any other
parser, so a property that those keep holds of every rule, for every dialect and every limit on the
nesting.  The rules that nest are dealt with once for all levels: what the members of a container
obey, the container obeys. -/

namespace Rewind.Json

open Rewind.Parser

variable {Φ : RunProperty}

/-! ## Tokens -/

namespace Token

section

variable (laws : Φ.Compositional)

include laws

theorem obeys_verbatim (t : String) : (verbatim t).Obeys Φ := obeys_literal laws _

theorem obeys_unicodeEscape : unicodeEscape.Obeys Φ :=
  obeys_right laws (obeys_satisfy laws _) (obeys_map (obeys_count laws (obeys_satisfy laws _) 4) _)

theorem obeys_escape : escape.Obeys Φ :=
  obeys_right laws (obeys_satisfy laws _)
    (obeys_orElse laws (obeys_map (obeys_satisfy laws _) _) (obeys_unicodeEscape laws))

theorem obeys_chunk : chunk.Obeys Φ := by
  apply obeys_bind laws (obeys_takeWhile laws _)
  intro run
  split
  · exact obeys_fail laws _
  · exact obeys_pure laws _

theorem obeys_sign : sign.Obeys Φ := obeys_orElse laws (obeys_verbatim laws _) (obeys_verbatim laws _)

theorem obeys_integer : integer.Obeys Φ :=
  obeys_bind laws (obeys_optional laws (obeys_sign laws)) fun _ =>
    obeys_map (obeys_atLeastOne laws (obeys_satisfy laws _)) _

theorem obeys_introduced (introducers : Text) : (introduced introducers).Obeys Φ := by
  apply obeys_bind laws (obeys_peek laws)
  rintro (_ | c)
  · exact obeys_pure laws _
  · dsimp only
    split
    · exact obeys_map (obeys_right laws (obeys_satisfy laws _) (obeys_integer laws)) _
    · exact obeys_pure laws _

end

end Token

namespace Dialect

open Token

/-- Apart from the steps of runs, `Φ` does not notice what the rules of the dialect do to the journal:
all of them leave marks, and only if the dialect asks for it do they report. -/
structure Keeps (d : Dialect) (Φ : RunProperty) : Prop extends Φ.Markblind where
  passing : Φ.Passing
  unwound : ∀ {p : Parser Json} kept, p.Obeys Φ → (unwound kept p).Obeys Φ
  reporting : d.trace = true → Φ.Unobservant

/-- Apart from the steps of runs, `Φ` passes from a rule to the rule that reports in the dialect. -/
structure Reports (d : Dialect) (Φ : RunProperty) : Prop extends Φ.Compositional where
  reported : ∀ {α : Type} {p : Parser α} (name : String), p.Obeys Φ → (d.reported name p).Obeys Φ

/-- What `Φ` needs besides to hold of the rules that nest: the mark of a container may matter to it, as
long as it passes from what stands behind the mark to the whole, and so may the end of the stack. -/
structure Covers (d : Dialect) (Φ : RunProperty) : Prop extends d.Reports Φ where
  passing : Φ.Passing
  ignores : ∀ tag, tag ≠ containerMark → Φ.Ignores tag
  container : ∀ {p : Parser Json} (name : String), p.Obeys Φ → (d.container name p).Obeys Φ
  unwound : ∀ {p : Parser Json} kept, p.Obeys Φ → (unwound kept p).Obeys Φ

theorem Keeps.reports {d : Dialect} (laws : d.Keeps Φ) : d.Reports Φ where
  toCompositional := laws.toCompositional
  reported := by
    intro α p name obeys
    simp only [reported]
    split
    case isTrue traced => exact obeys_traced (laws.reporting traced) obeys _
    case isFalse => exact obeys

theorem Keeps.covers {d : Dialect} (laws : d.Keeps Φ) : d.Covers Φ where
  toReports := laws.reports
  passing := laws.passing
  ignores tag _ := laws.ignores tag
  container := by
    intro p name obeys
    apply obeys_marking (laws.ignores _)
    split
    case isTrue traced => exact obeys_concluded (laws.reporting traced) obeys _
    case isFalse => exact obeys
  unwound := laws.unwound

theorem obeys_tooDeep (steps : Φ.Compositional) (ignores : Φ.Ignores limitMark) : tooDeep.Obeys Φ :=
  obeys_marking ignores (obeys_fail steps _)

theorem covers_of_pervasive (laws : Φ.Pervasive) (d : Dialect) : d.Covers Φ :=
  Keeps.covers
    { toMarkblind := laws.toMarkblind
      passing := laws.passing
      unwound := fun _ _ s j =>
        laws.oblivious _ _ (obeys_tooDeep laws.toCompositional (laws.ignores _) s j)
      reporting := fun _ => laws.toUnobservant }

variable (d : Dialect)

section

variable (laws : Φ.Compositional)

include laws

theorem obeys_whiteSpace : d.whiteSpace.Obeys Φ := obeys_takeWhile laws _

theorem obeys_opening (t : String) : ((verbatim t).left d.whiteSpace).Obeys Φ :=
  obeys_left laws (obeys_verbatim laws t) (d.obeys_whiteSpace laws)

theorem obeys_mark (t : String) : (d.whiteSpace.right (verbatim t)).Obeys Φ :=
  obeys_right laws (d.obeys_whiteSpace laws) (obeys_verbatim laws t)

theorem obeys_spacedMark (t : String) :
    ((d.whiteSpace.right (verbatim t)).left d.whiteSpace).Obeys Φ :=
  obeys_left laws (d.obeys_mark laws t) (d.obeys_whiteSpace laws)

theorem obeys_comma : d.comma.Obeys Φ := d.obeys_spacedMark laws ","

theorem obeys_colon : d.colon.Obeys Φ := d.obeys_spacedMark laws ":"

theorem obeys_stringBody : d.stringBody.Obeys Φ := by
  simp only [stringBody]
  split
  · exact obeys_map
      (obeys_zeroOrMore laws (obeys_orElse laws (obeys_escape laws) (obeys_chunk laws))) _
  · exact obeys_map (obeys_takeWhile laws _) _

theorem obeys_assembled (whole : Literal) (fraction exponent : Option Literal) :
    (d.assembled whole fraction exponent).Obeys Φ := by
  simp only [assembled]
  split
  · exact obeys_pure laws _
  · exact obeys_raise laws _

end

section

variable (laws : d.Reports Φ)

include laws

theorem obeys_null : d.null.Obeys Φ :=
  laws.reported _ (obeys_map (obeys_verbatim laws.toCompositional _) _)

theorem obeys_boolean : d.boolean.Obeys Φ :=
  laws.reported _
    (obeys_map (obeys_orElse laws.toCompositional (obeys_verbatim laws.toCompositional _)
      (obeys_verbatim laws.toCompositional _)) _)

theorem obeys_quotedString : d.quotedString.Obeys Φ :=
  laws.reported _
    (obeys_between laws.toCompositional (obeys_verbatim laws.toCompositional _)
      (obeys_verbatim laws.toCompositional _) (d.obeys_stringBody laws.toCompositional))

theorem obeys_number : d.number.Obeys Φ :=
  have steps := laws.toCompositional
  laws.reported _
    (obeys_bind steps (obeys_integer steps) fun _ =>
      obeys_bind steps (obeys_introduced steps _) fun _ =>
        obeys_bind steps (obeys_introduced steps _) fun _ => d.obeys_assembled steps _ _ _)

/-! ## Values -/

theorem obeys_scalar : d.scalar.Obeys Φ := by
  apply obeys_oneOf laws.toCompositional
  simp only [List.mem_cons, List.not_mem_nil, or_false]
  rintro p (rfl | rfl | rfl | rfl)
  · exact obeys_map (d.obeys_quotedString laws) _
  · exact obeys_map (d.obeys_boolean laws) _
  · exact obeys_map (d.obeys_null laws) _
  · exact obeys_map (d.obeys_number laws) _

end

section

variable (laws : d.Covers Φ)

include laws

theorem obeys_passing_opening {p : Parser Json} (obeys : p.Obeys Φ) :
    (passing [quoted (text "\x7b")] p).Obeys Φ :=
  obeys_passing laws.passing obeys (List.cons_ne_nil _ _) (by decide)

theorem obeys_passing_openings {p : Parser Json} (obeys : p.Obeys Φ) :
    (passing [quoted (text "\x7b"), quoted (text "[")] p).Obeys Φ :=
  obeys_passing laws.passing obeys (List.cons_ne_nil _ _) (by decide)

/-! ## Containers, given what their members obey -/

variable {member : Parser Json} (members : member.Obeys Φ)

include members

theorem obeys_entry : (d.entry member).Obeys Φ :=
  have steps := laws.toCompositional
  obeys_bind steps (d.obeys_quotedString laws.toReports) fun _ =>
    obeys_bind steps (d.obeys_colon steps) fun _ => obeys_map members _

theorem obeys_braced : (d.braced member).Obeys Φ := by
  have steps := laws.toCompositional
  have quiet : Φ.Ignores roundMark := laws.ignores _ (by decide)
  have entry := d.obeys_entry laws members
  have loop := obeys_rounds steps quiet entry (obeys_right steps (d.obeys_comma steps) entry)
  apply obeys_right steps (d.obeys_opening steps _)
  apply obeys_bind steps loop
  intro _
  exact obeys_map (d.obeys_mark steps _) _

theorem obeys_bracketed : (d.bracketed member).Obeys Φ := by
  have steps := laws.toCompositional
  have quiet : Φ.Ignores roundMark := laws.ignores _ (by decide)
  have loop := obeys_rounds steps quiet members (obeys_right steps (d.obeys_comma steps) members)
  apply obeys_right steps (d.obeys_opening steps _)
  apply obeys_bind steps loop
  intro _
  exact obeys_map (d.obeys_spacedMark steps _) _

/-! ## Nesting -/

theorem obeys_valueOver : (d.valueOver member).Obeys Φ := by
  have steps := laws.toCompositional
  apply obeys_marking (laws.ignores _ (by decide))
  apply obeys_right steps (d.obeys_whiteSpace steps)
  apply obeys_bind steps (obeys_peek steps)
  intro c
  split
  · exact laws.container _ (d.obeys_braced laws members)
  · split
    · exact laws.container _ (d.obeys_passing_opening laws (d.obeys_bracketed laws members))
    · exact d.obeys_passing_openings laws (d.obeys_scalar laws.toReports)

theorem obeys_guarded (stack : Stack) (level : Nat) : (guarded stack level member).Obeys Φ := by
  intro s j
  simp only [guarded]
  split
  · exact members s j
  · exact laws.unwound _ members s j

omit members

theorem obeys_nested (levels : Nat) {stack : Stack} : (d.nested levels stack).Obeys Φ := by
  induction levels with
  | zero => exact obeys_tooDeep laws.toCompositional (laws.ignores _ (by decide))
  | succ levels ih =>
    rw [nested_succ_on]
    exact d.obeys_valueOver laws (d.obeys_guarded laws ih stack levels)

theorem obeys_openedBy (levels : Nat) (opening : String) {stack : Stack} :
    (d.openedBy levels opening stack).Obeys Φ := by
  have steps := laws.toCompositional
  apply obeys_bind steps (obeys_peek steps)
  intro c
  split
  · exact d.obeys_nested laws levels
  · exact obeys_fail steps _

theorem obeys_value (levels : Nat) {stack : Stack} : (d.value levels stack).Obeys Φ :=
  laws.reported _ (d.obeys_nested laws levels)

theorem obeys_document (levels : Nat) {stack : Stack} : (d.document levels stack).Obeys Φ := by
  have steps := laws.toCompositional
  have value : (d.value levels stack).Obeys Φ := d.obeys_value laws levels
  simp only [document]
  split
  · exact obeys_left steps (obeys_left steps value (d.obeys_whiteSpace steps)) (obeys_eof steps)
  · exact value

end

end Dialect

/-- What the steps of runs keep holds of every rule. -/
theorem Rule.obeys_parser {d : Dialect} (laws : d.Covers Φ) (levels : Nat) (rule : Rule)
    {stack : Stack} : (rule.parser d levels stack).Obeys Φ := by
  have steps := laws.toCompositional
  cases rule with
  | value => exact obeys_map (d.obeys_value laws levels) _
  | document => exact obeys_map (d.obeys_document laws levels) _
  | object => exact obeys_map (d.obeys_openedBy laws levels _) _
  | array => exact obeys_map (d.obeys_openedBy laws levels _) _
  | quotedString => exact obeys_map (d.obeys_quotedString laws.toReports) _
  | boolean => exact obeys_map (d.obeys_boolean laws.toReports) _
  | null => exact obeys_map (d.obeys_null laws.toReports) _
  | number => exact obeys_map (d.obeys_number laws.toReports) _
  | integer => exact obeys_map (Token.obeys_integer steps) _
  | sign => exact obeys_map (Token.obeys_sign steps) _
  | keyValuePair =>
    exact obeys_map (d.obeys_entry laws (d.obeys_value laws levels)) _
  | whiteSpace => exact obeys_map (d.obeys_whiteSpace steps) _
  | comma => exact obeys_map (d.obeys_comma steps) _
  | colon => exact obeys_map (d.obeys_colon steps) _

end Rewind.Json
