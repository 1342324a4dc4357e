import Rewind.Proofs.Json.RunProperty
import Rewind.Proofs.Json.Script
import Rewind.Proofs.Parser.Choice
import Rewind.Proofs.Parser.Reads
import Rewind.Proofs.Parser.Replies

/-! # Tokens

What the comparison of grammars needs to know of the rules that do not nest: none of them but the one for
numbers has a fault, each that a value may begin with consumes something, and each can only begin with
certain characters. -/

namespace Rewind.Json

open Rewind.Parser RunProperty

theorem Dialect.covers_forward (d : Dialect) : d.Covers forward := covers_of_pervasive forward_pervasive d

/-! ## Tokens have no fault

Except for numbers, whose parts may not come to one. -/

namespace Token

theorem faultless_verbatim (t : String) : (verbatim t).Faultless := faultless_literal _

theorem faultless_unicodeEscape : unicodeEscape.Faultless :=
  faultless_right (faultless_satisfy _) (faultless_map (faultless_count (faultless_satisfy _) 4) _)

theorem faultless_escape : escape.Faultless :=
  faultless_right (faultless_satisfy _)
    (faultless_orElse (faultless_map (faultless_satisfy _) _) faultless_unicodeEscape)

theorem faultless_chunk : chunk.Faultless := by
  apply faultless_bind (faultless_takeWhile _)
  intro run
  split
  · exact faultless_fail _
  · exact faultless_pure _

theorem faultless_integer : integer.Faultless :=
  faultless_bind
    (faultless_optional (faultless_orElse (faultless_verbatim _) (faultless_verbatim _))) fun _ =>
      faultless_map (faultless_atLeastOne (faultless_satisfy _)) _

theorem faultless_introduced (introducers : Text) : (introduced introducers).Faultless := by
  apply faultless_bind faultless_peek
  rintro (_ | c)
  · exact faultless_pure _
  · dsimp only
    split
    · exact faultless_map (faultless_right (faultless_satisfy _) faultless_integer) _
    · exact faultless_pure _

end Token

namespace Dialect

open Token

variable (d : Dialect)

theorem faultless_whiteSpace : d.whiteSpace.Faultless := faultless_takeWhile _

theorem faultless_opening (t : String) : ((verbatim t).left d.whiteSpace).Faultless :=
  faultless_left (faultless_verbatim t) d.faultless_whiteSpace

theorem faultless_mark (t : String) : (d.whiteSpace.right (verbatim t)).Faultless :=
  faultless_right d.faultless_whiteSpace (faultless_verbatim t)

theorem faultless_spacedMark (t : String) :
    ((d.whiteSpace.right (verbatim t)).left d.whiteSpace).Faultless :=
  faultless_left (d.faultless_mark t) d.faultless_whiteSpace

theorem faultless_comma : d.comma.Faultless := d.faultless_spacedMark ","

theorem faultless_colon : d.colon.Faultless := d.faultless_spacedMark ":"

theorem faultless_stringBody : d.stringBody.Faultless := by
  simp only [stringBody]
  split
  · exact faultless_map (faultless_zeroOrMore (faultless_orElse faultless_escape faultless_chunk)) _
  · exact faultless_map (faultless_takeWhile _) _

theorem faultsOnlyAt_reported {α : Type} {p : Parser α} {why : Fault → Prop} {s : State}
    (only : p.FaultsOnlyAt why s) (name : String) : (d.reported name p).FaultsOnlyAt why s := by
  simp only [reported]
  split
  · exact only.traced _
  · exact only

theorem faultless_null : d.null.Faultless := fun why s kind =>
  d.faultsOnlyAt_reported (faultless_map (faultless_verbatim _) _ why s kind) _

theorem faultless_boolean : d.boolean.Faultless := fun why s kind =>
  d.faultsOnlyAt_reported (faultless_map
    (faultless_orElse (faultless_verbatim _) (faultless_verbatim _)) _ why s kind) _

theorem faultless_quotedString : d.quotedString.Faultless := fun why s kind =>
  d.faultsOnlyAt_reported (faultless_bind (faultless_verbatim _) (fun _ =>
    faultless_bind d.faultless_stringBody fun _ => faultless_map (faultless_verbatim _) _)
      why s kind) _

end Dialect

/-! ## Values consume something -/

namespace Token

theorem advances_verbatim {t : String} (nonempty : 0 < (text t).length) : (verbatim t).Advances :=
  advances_literal (by rwa [Buffer.size_ofText])

theorem advances_item : (escape.orElse chunk).Advances := by
  apply advances_orElse
  · exact advances_bind (advances_satisfy _) fun _ =>
      obeys_orElse forward_compositional
        (obeys_map (obeys_satisfy forward_compositional _) _)
        (obeys_unicodeEscape forward_compositional)
  · intro s x pos yields
    obtain ⟨run, mid, first, rest⟩ := yields_bind yields
    have reached := first.precedes (obeys_takeWhile forward_compositional _)
    obtain ⟨spans, _⟩ := yields_takeWhile first
    split at rest
    case isTrue => exact absurd rest yields_fail
    case isFalse nonempty =>
      obtain ⟨rfl, rfl⟩ := yields_pure rest
      exact spans.further (fun empty => nonempty ((Buffer.isEmpty_iff _).2 empty)) reached

theorem advances_integer : integer.Advances :=
  advances_bind_rest (obeys_optional forward_compositional (obeys_sign forward_compositional))
    fun _ => advances_map
      (advances_bind (advances_satisfy _) fun _ =>
        obeys_map (obeys_zeroOrMore forward_compositional (obeys_satisfy forward_compositional _)) _) _

end Token

namespace Dialect

open Token

variable (d : Dialect)

theorem advances_reported {α : Type} {p : Parser α} (advances : p.Advances) (name : String) :
    (d.reported name p).Advances := by
  simp only [reported]
  split
  · exact advances_traced advances _
  · exact advances

theorem advances_null : d.null.Advances :=
  d.advances_reported (advances_map (advances_verbatim (by decide)) _) _

theorem advances_boolean : d.boolean.Advances :=
  d.advances_reported
    (advances_map
      (advances_orElse (advances_verbatim (by decide)) (advances_verbatim (by decide))) _) _

theorem advances_quotedString : d.quotedString.Advances := by
  apply d.advances_reported
  apply advances_bind (advances_verbatim (by decide))
  intro _
  exact obeys_bind forward_compositional (d.obeys_stringBody forward_compositional) fun _ =>
    obeys_map (obeys_verbatim forward_compositional _) _

theorem advances_number : d.number.Advances := by
  apply d.advances_reported
  apply advances_bind advances_integer
  intro _
  exact obeys_bind forward_compositional (obeys_introduced forward_compositional _) fun _ =>
    obeys_bind forward_compositional (obeys_introduced forward_compositional _) fun _ =>
      d.obeys_assembled forward_compositional _ _ _

theorem advances_scalar : d.scalar.Advances := by
  apply advances_oneOf
  simp only [List.mem_cons, List.not_mem_nil, or_false]
  rintro p (rfl | rfl | rfl | rfl)
  · exact advances_map d.advances_quotedString _
  · exact advances_map d.advances_boolean _
  · exact advances_map d.advances_null _
  · exact advances_map d.advances_number _

end Dialect

/-! ## The characters that tokens begin with -/

theorem Token.failsAt_verbatim {s : State} (kind : s.input.kind = .text) {t : String} {first : Code}
    (begins : (text t).head? = some first) (other : s.rest.head? ≠ some first) :
    (Token.verbatim t).FailsAt s ⟨s.pos, [quoted (text t)], s.upcoming (text t).length⟩ := by
  -- A text that begins otherwise does not begin with `t`.
  have absent : ¬ (Buffer.ofText (text t)).codes <+: s.rest := by
    obtain ⟨more, spelled⟩ := List.head?_eq_some_iff.1 begins
    rw [Buffer.codes_ofText, spelled]
    rintro ⟨tail, whole⟩
    rw [← whole] at other
    exact other rfl
  have fails := failsAt_literal kind absent
  rwa [Buffer.size_ofText] at fails

theorem Token.missesAt_verbatim {s : State} (kind : s.input.kind = .text) {t : String}
    {first : Code} (begins : (text t).head? = some first) (other : s.rest.head? ≠ some first) :
    (Token.verbatim t).MissesAt s :=
  (Token.failsAt_verbatim kind begins other).missesAt rfl

namespace Dialect

variable (d : Dialect) {s : State}

theorem missesAt_reported {α : Type} {p : Parser α} (misses : p.MissesAt s) (name : String) :
    (d.reported name p).MissesAt s := by
  simp only [reported]
  split
  · exact misses.traced _
  · exact misses

section

variable (kind : s.input.kind = .text)

include kind

theorem missesAt_quotedString (other : s.rest.head? ≠ some 0x22) : d.quotedString.MissesAt s := by
  apply d.missesAt_reported
  apply MissesAt.bind
  exact Token.missesAt_verbatim kind rfl other

theorem missesAt_boolean (notTrue : s.rest.head? ≠ some 0x74)
    (notFalse : s.rest.head? ≠ some 0x66) : d.boolean.MissesAt s := by
  apply d.missesAt_reported
  apply MissesAt.map
  apply MissesAt.orElse
  · exact Token.missesAt_verbatim kind rfl notTrue
  · exact Token.missesAt_verbatim kind rfl notFalse

theorem missesAt_null (other : s.rest.head? ≠ some 0x6E) : d.null.MissesAt s := by
  apply d.missesAt_reported
  apply MissesAt.map
  exact Token.missesAt_verbatim kind rfl other

theorem missesAt_sign (minus : s.rest.head? ≠ some 0x2D) (plus : s.rest.head? ≠ some 0x2B) :
    Token.sign.MissesAt s := by
  apply MissesAt.orElse
  · exact Token.missesAt_verbatim kind rfl minus
  · exact Token.missesAt_verbatim kind rfl plus

theorem missesAt_number (minus : s.rest.head? ≠ some 0x2D) (plus : s.rest.head? ≠ some 0x2B)
    (digit : ∀ x ∈ s.rest.head?, CharClass.isDigit x = false) : d.number.MissesAt s := by
  apply d.missesAt_reported
  apply MissesAt.bind
  apply MissesAt.optional_bind
  · exact missesAt_sign kind minus plus
  · apply MissesAt.map
    apply MissesAt.bind
    exact missesAt_satisfy digit

end

def beginsScalar (c : Code) : Bool := (text "\"tfn-+").contains c || CharClass.isDigit c

theorem missesAt_of_head {c : Code} (kind : s.input.kind = .text) (head : s.rest.head? = some c)
    (other : beginsScalar c = false) :
    d.quotedString.MissesAt s ∧ d.boolean.MissesAt s ∧ d.null.MissesAt s ∧ d.number.MissesAt s := by
  have spelled : text "\"tfn-+" = [0x22, 0x74, 0x66, 0x6E, 0x2D, 0x2B] := rfl
  simp only [beginsScalar, spelled, Bool.or_eq_false_iff, List.contains_eq_mem,
    decide_eq_false_iff_not, List.mem_cons, List.not_mem_nil, or_false, not_or] at other
  obtain ⟨⟨quote, yes, no, null, minus, plus⟩, digit⟩ := other
  have differs (x : Code) (different : c ≠ x) : s.rest.head? ≠ some x := by
    rw [head]
    exact fun same => different (Option.some.inj same)
  refine ⟨?_, ?_, ?_, ?_⟩
  · exact d.missesAt_quotedString kind (differs _ quote)
  · exact d.missesAt_boolean kind (differs _ yes) (differs _ no)
  · exact d.missesAt_null kind (differs _ null)
  · refine d.missesAt_number kind (differs _ minus) (differs _ plus) ?_
    rw [head]
    rintro x ⟨⟩
    exact digit

end Dialect

end Rewind.Json
