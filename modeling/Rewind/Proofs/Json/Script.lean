import Rewind.Grammar.Rule
import Rewind.Proofs.Parser.Script

/-! # Scripts of JSON runs

Every rule of the JSON grammar, in every dialect and under every limit, replies as one script says, so
none of them keeps anything from one run to the next. -/

namespace Rewind.Json

open Rewind.Parser

/-! ## Tokens -/

namespace Token

theorem scripted_verbatim (t : String) : (verbatim t).Scripted := scripted_literal _

theorem scripted_unicodeEscape : unicodeEscape.Scripted :=
  scripted_right (scripted_satisfy _) (scripted_map (scripted_count (scripted_satisfy _) 4) _)

theorem scripted_escape : escape.Scripted :=
  scripted_right (scripted_satisfy _)
    (scripted_orElse (scripted_map (scripted_satisfy _) _) scripted_unicodeEscape)

theorem scripted_chunk : chunk.Scripted := by
  apply scripted_bind (scripted_takeWhile _)
  intro run
  split
  · exact scripted_fail _
  · exact scripted_pure _

theorem scripted_sign : sign.Scripted := scripted_orElse (scripted_verbatim _) (scripted_verbatim _)

theorem scripted_integer : integer.Scripted :=
  scripted_bind (scripted_optional scripted_sign) fun _ =>
    scripted_map (scripted_atLeastOne (scripted_satisfy _)) _

theorem scripted_introduced (introducers : Text) : (introduced introducers).Scripted := by
  apply scripted_bind scripted_peek
  rintro (_ | c)
  · exact scripted_pure _
  · dsimp only
    split
    · exact scripted_map (scripted_right (scripted_satisfy _) scripted_integer) _
    · exact scripted_pure _

end Token

namespace Dialect

open Token

variable (d : Dialect)

theorem scripted_reported {α : Type} {p : Parser α} (scripted : p.Scripted) (name : String) :
    (d.reported name p).Scripted := by
  simp only [reported]
  split
  · exact scripted_traced scripted _
  · exact scripted

theorem scripted_whiteSpace : d.whiteSpace.Scripted := scripted_takeWhile _

theorem scripted_opening (t : String) : ((verbatim t).left d.whiteSpace).Scripted :=
  scripted_left (scripted_verbatim t) d.scripted_whiteSpace

theorem scripted_mark (t : String) : (d.whiteSpace.right (verbatim t)).Scripted :=
  scripted_right d.scripted_whiteSpace (scripted_verbatim t)

theorem scripted_spacedMark (t : String) :
    ((d.whiteSpace.right (verbatim t)).left d.whiteSpace).Scripted :=
  scripted_left (d.scripted_mark t) d.scripted_whiteSpace

theorem scripted_comma : d.comma.Scripted := d.scripted_spacedMark ","

theorem scripted_colon : d.colon.Scripted := d.scripted_spacedMark ":"

theorem scripted_null : d.null.Scripted :=
  d.scripted_reported (scripted_map (scripted_verbatim _) _) _

theorem scripted_boolean : d.boolean.Scripted :=
  d.scripted_reported
    (scripted_map (scripted_orElse (scripted_verbatim _) (scripted_verbatim _)) _) _

theorem scripted_stringBody : d.stringBody.Scripted := by
  simp only [stringBody]
  split
  · exact scripted_map (scripted_zeroOrMore (scripted_orElse scripted_escape scripted_chunk)) _
  · exact scripted_map (scripted_takeWhile _) _

theorem scripted_quotedString : d.quotedString.Scripted :=
  d.scripted_reported
    (scripted_bind (scripted_verbatim _) fun _ =>
      scripted_bind d.scripted_stringBody fun _ => scripted_map (scripted_verbatim _) _) _

theorem scripted_assembled (whole : Literal) (fraction exponent : Option Literal) :
    (d.assembled whole fraction exponent).Scripted := by
  simp only [assembled]
  split
  · exact scripted_pure _
  · exact scripted_raise _

theorem scripted_number : d.number.Scripted :=
  d.scripted_reported
    (scripted_bind scripted_integer fun _ =>
      scripted_bind (scripted_introduced _) fun _ =>
        scripted_bind (scripted_introduced _) fun _ => d.scripted_assembled _ _ _) _

theorem scripted_scalar : d.scalar.Scripted := by
  apply scripted_oneOf
  simp only [List.mem_cons, List.not_mem_nil, or_false]
  rintro p (rfl | rfl | rfl | rfl)
  · exact scripted_map d.scripted_quotedString _
  · exact scripted_map d.scripted_boolean _
  · exact scripted_map d.scripted_null _
  · exact scripted_map d.scripted_number _

/-! ## Containers, given that their members have scripts -/

theorem scripted_container {p : Parser Json} (scripted : p.Scripted) (name : String) :
    (d.container name p).Scripted := by
  apply scripted_marking
  split
  · exact scripted_concluded scripted _
  · exact scripted

section

variable {member : Parser Json} (members : member.Scripted)

include members

theorem scripted_entry : (d.entry member).Scripted :=
  scripted_bind d.scripted_quotedString fun _ =>
    scripted_bind d.scripted_colon fun _ => scripted_map members _

theorem scripted_braced : (d.braced member).Scripted := by
  have entry := d.scripted_entry members
  have loop := scripted_rounds entry (scripted_right d.scripted_comma entry)
  exact scripted_right (d.scripted_opening _)
    (scripted_bind loop fun _ => scripted_map (d.scripted_mark _) _)

theorem scripted_bracketed : (d.bracketed member).Scripted := by
  have loop := scripted_rounds members (scripted_right d.scripted_comma members)
  exact scripted_right (d.scripted_opening _)
    (scripted_bind loop fun _ => scripted_map (d.scripted_spacedMark _) _)

theorem scripted_valueOver : (d.valueOver member).Scripted := by
  apply scripted_marking
  apply scripted_right d.scripted_whiteSpace
  apply scripted_bind scripted_peek
  intro c
  split
  · exact d.scripted_container (d.scripted_braced members) _
  · split
    · exact d.scripted_container (scripted_passing (d.scripted_bracketed members) _) _
    · exact scripted_passing d.scripted_scalar _

end

/-! ## Nesting -/

theorem scripted_tooDeep : tooDeep.Scripted := scripted_marking (scripted_fail _) _

/-- What is unwound follows the beginning of its script, and then fails. -/
theorem scripted_unwound {p : Parser Json} (scripted : p.Scripted) (kept : Nat) :
    (unwound kept p).Scripted := by
  intro s
  obtain ⟨r, script, same⟩ := scripted s
  obtain ⟨failed, more, same'⟩ := scripted_tooDeep s
  refine ⟨failed, script.take kept ++ more, fun j => ?_⟩
  rw [Journal.perform_append, ← same', ← Journal.upTo_perform]
  show tooDeep.run s ((p.run s j).2.upTo _) = _
  rw [same]

theorem scripted_guarded {p : Parser Json} (scripted : p.Scripted) (stack : Stack) (level : Nat) :
    (guarded stack level p).Scripted := by
  intro s
  simp only [guarded]
  split
  · exact scripted s
  · exact scripted_unwound scripted _ s

theorem scripted_nested (levels : Nat) {stack : Stack} : (d.nested levels stack).Scripted := by
  induction levels with
  | zero => exact scripted_tooDeep
  | succ levels ih =>
    rw [nested_succ_on]
    exact d.scripted_valueOver (scripted_guarded ih stack levels)

theorem scripted_openedBy (levels : Nat) (opening : String) {stack : Stack} :
    (d.openedBy levels opening stack).Scripted := by
  apply scripted_bind scripted_peek
  intro c
  split
  · exact d.scripted_nested levels
  · exact scripted_fail _

theorem scripted_value (levels : Nat) {stack : Stack} : (d.value levels stack).Scripted :=
  d.scripted_reported (d.scripted_nested levels) _

theorem scripted_document (levels : Nat) {stack : Stack} :
    (d.document levels stack).Scripted := by
  have value : (d.value levels stack).Scripted := d.scripted_value levels
  simp only [document]
  split
  · exact scripted_left (scripted_left value d.scripted_whiteSpace) scripted_eof
  · exact value

end Dialect

theorem Rule.scripted (d : Dialect) (levels : Nat) (rule : Rule) {stack : Stack} :
    (rule.parser d levels stack).Scripted := by
  cases rule with
  | value => exact scripted_map (d.scripted_value levels) _
  | document => exact scripted_map (d.scripted_document levels) _
  | object => exact scripted_map (d.scripted_openedBy levels _) _
  | array => exact scripted_map (d.scripted_openedBy levels _) _
  | quotedString => exact scripted_map d.scripted_quotedString _
  | boolean => exact scripted_map d.scripted_boolean _
  | null => exact scripted_map d.scripted_null _
  | number => exact scripted_map d.scripted_number _
  | integer => exact scripted_map Token.scripted_integer _
  | sign => exact scripted_map Token.scripted_sign _
  | keyValuePair =>
    exact scripted_map (d.scripted_entry (d.scripted_value levels)) _
  | whiteSpace => exact scripted_map d.scripted_whiteSpace _
  | comma => exact scripted_map d.scripted_comma _
  | colon => exact scripted_map d.scripted_colon _

end Rewind.Json
