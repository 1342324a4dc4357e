import Rewind.Proofs.Json.Token
import Rewind.Proofs.Parser.Accepts

/-! # Containers and values

What the rules that nest have in common, whatever reads their members: they consume something when
they match, and the failure that they carry lies past their opening character.  Which of them reads a
value is settled by the character after the white space. -/

namespace Rewind.Json

open Rewind.Parser RunProperty Token

namespace Dialect

variable (d : Dialect) {s : State} {member : Parser Json}

theorem advances_opening {t : String} (nonempty : 0 < (text t).length) :
    ((verbatim t).left d.whiteSpace).Advances :=
  advances_bind (advances_verbatim nonempty) fun _ =>
    obeys_map (d.obeys_whiteSpace forward_compositional) _

theorem accepts_opening {t : String} (nonempty : text t ≠ []) (tail : Text) :
    ((verbatim t).left d.whiteSpace).Accepts (text t ++ tail) (.ofText (text t))
      (tail.dropWhile d.whitespace.contains) :=
  (accepts_literal nonempty).left (accepts_takeWhile _ _)

/-- The opening character of a container is all that it takes to go on. -/
theorem opening_matches (kind : s.input.kind = .text) {t : String} {c : Code}
    (spelled : text t = [c]) (head : s.rest.head? = some c) (r : Reply Buffer)
    (gives : Run.Gives (((verbatim t).left d.whiteSpace).run s) r) :
    ∃ x mid ghost, r = .matched x mid ghost ∧ s.pos < mid := by
  obtain ⟨tail, ahead⟩ := List.head?_eq_some_iff.1 head
  have nonempty : text t ≠ [] := by
    rw [spelled]
    exact List.cons_ne_nil _ _
  have begins : s.rest = text t ++ tail := by rw [ahead, spelled, List.singleton_append]
  obtain ⟨j, k, ran⟩ := gives
  -- The run from `j` is a match, whatever `r` was said to be.
  obtain ⟨mid, ghost, l, matched, _⟩ := (d.accepts_opening nonempty tail).run kind begins j
  obtain ⟨further, _⟩ := d.advances_opening (List.length_pos_iff.2 nonempty) s _ mid
    ⟨ghost, j, l, matched⟩
  exact ⟨_, mid, ghost, (congrArg Prod.fst ran).symm.trans (congrArg Prod.fst matched), further⟩

/-! ## Containers, given that their members do not go back -/

section

variable (steady : member.Obeys forward)

include steady

theorem steady_members :
    ((rounds (d.entry member) (d.comma.right (d.entry member))).bind fun members =>
      (d.whiteSpace.right (verbatim "\x7d")).map fun _ => ofMembers members).Obeys forward := by
  have quiet := d.covers_forward
  have entry := d.obeys_entry quiet steady
  refine obeys_bind forward_compositional ?_ fun _ => ?_
  · exact obeys_rounds forward_compositional (forward_markblind.ignores _) entry
      (obeys_right forward_compositional (d.obeys_comma forward_compositional) entry)
  · exact obeys_map (d.obeys_mark forward_compositional _) _

theorem steady_items :
    ((rounds member (d.comma.right member)).bind fun items =>
      ((d.whiteSpace.right (verbatim "]")).left d.whiteSpace).map fun _ =>
        Json.array items).Obeys forward := by
  refine obeys_bind forward_compositional ?_ fun _ => ?_
  · exact obeys_rounds forward_compositional (forward_markblind.ignores _) steady
      (obeys_right forward_compositional (d.obeys_comma forward_compositional) steady)
  · exact obeys_map (d.obeys_spacedMark forward_compositional _) _

theorem advances_entry : (d.entry member).Advances :=
  advances_bind d.advances_quotedString fun _ =>
    obeys_bind forward_compositional (d.obeys_colon forward_compositional) fun _ =>
      obeys_map steady _

theorem advances_braced : (d.braced member).Advances :=
  advances_bind (d.advances_opening (by decide)) fun _ => d.steady_members steady

theorem advances_bracketed : (d.bracketed member).Advances :=
  advances_bind (d.advances_opening (by decide)) fun _ => d.steady_items steady

/-- The members of an object end with an attempt that fails, past the brace. -/
theorem beyond_braced (kind : s.input.kind = .text) (head : s.rest.head? = some 0x7B)
    (r : Reply Json) (gives : Run.Gives ((d.braced member).run s) r) : r.Beyond s :=
  beyond_bind (d.opening_matches kind rfl head) (fun _ => carries_bind (carries_rounds _ _))
    (fun _ => d.steady_members steady) gives

theorem beyond_bracketed (kind : s.input.kind = .text) (head : s.rest.head? = some 0x5B)
    (r : Reply Json) (gives : Run.Gives ((d.bracketed member).run s) r) : r.Beyond s :=
  beyond_bind (d.opening_matches kind rfl head) (fun _ => carries_bind (carries_rounds _ _))
    (fun _ => d.steady_items steady) gives

end

/-! ## The character that announces a value -/

def announced (member : Parser Json) (c : Option Buffer) : Parser Json :=
  if c = some (.ofText (text "\x7b")) then d.container "object" (d.braced member)
  else if c = some (.ofText (text "[")) then
    d.container "array" (passing [quoted (text "\x7b")] (d.bracketed member))
  else passing [quoted (text "\x7b"), quoted (text "[")] d.scalar

theorem valueOver_eq (member : Parser Json) :
    d.valueOver member =
      marking valueMark (d.whiteSpace.right (peek.bind (d.announced member))) := rfl

theorem upcoming_eq_iff (kind : s.input.kind = .text) {c : Code} :
    s.upcoming 1 = some (.ofText [c]) ↔ s.rest.head? = some c := by
  rw [State.upcoming, Buffer.upcoming_one_text kind, ← State.rest]
  cases s.rest.head? <;> simp [Buffer.ofText]

theorem announced_brace (kind : s.input.kind = .text) (head : s.rest.head? = some 0x7B) :
    d.announced member (s.upcoming 1) = d.container "object" (d.braced member) :=
  if_pos ((upcoming_eq_iff kind).2 head)

theorem announced_bracket (kind : s.input.kind = .text) (head : s.rest.head? = some 0x5B) :
    d.announced member (s.upcoming 1) =
      d.container "array" (passing [quoted (text "\x7b")] (d.bracketed member)) := by
  have other : s.upcoming 1 ≠ some (.ofText (text "\x7b")) := by
    intro brace
    have head' := (upcoming_eq_iff kind).1 brace
    rw [head] at head'
    cases head'
  exact (if_neg other).trans (if_pos ((upcoming_eq_iff kind).2 head))

theorem announced_scalar (kind : s.input.kind = .text) (brace : s.rest.head? ≠ some 0x7B)
    (bracket : s.rest.head? ≠ some 0x5B) :
    d.announced member (s.upcoming 1) =
      passing [quoted (text "\x7b"), quoted (text "[")] d.scalar :=
  (if_neg fun upcoming => brace ((upcoming_eq_iff kind).1 upcoming)).trans
    (if_neg fun upcoming => bracket ((upcoming_eq_iff kind).1 upcoming))

theorem steady_announced (steady : member.Obeys forward) (c : Option Buffer) :
    (d.announced member c).Obeys forward := by
  have quiet := d.covers_forward
  simp only [announced]
  split
  · exact quiet.container _ (d.obeys_braced quiet steady)
  · split
    · exact quiet.container _ (d.obeys_passing_opening quiet (d.obeys_bracketed quiet steady))
    · exact d.obeys_passing_openings quiet (d.obeys_scalar quiet.toReports)

theorem advances_container {p : Parser Json} (advances : p.Advances) (name : String) :
    (d.container name p).Advances := by
  apply advances_marking
  split
  · exact advances_concluded advances _
  · exact advances

theorem advances_valueOver (steady : member.Obeys forward) : (d.valueOver member).Advances := by
  rw [valueOver_eq]
  apply advances_marking
  apply advances_bind_rest (d.obeys_whiteSpace forward_compositional)
  intro _
  apply advances_bind_rest (obeys_peek forward_compositional)
  intro c
  simp only [announced]
  split
  · exact d.advances_container (d.advances_braced steady) _
  · split
    · exact d.advances_container (advances_passing (d.advances_bracketed steady) _) _
    · exact advances_passing d.advances_scalar _

theorem advances_tooDeep : tooDeep.Advances := by
  intro s x pos yields
  exact absurd (yields_marking yields) yields_fail

theorem advances_guarded {p : Parser Json} (advances : p.Advances) (stack : Stack) (level : Nat) :
    (guarded stack level p).Advances := by
  rintro s x pos ⟨ghost, j, k, ran⟩
  simp only [guarded] at ran
  split at ran
  · exact advances s x pos ⟨ghost, j, k, ran⟩
  · exact advances_tooDeep s x pos ⟨ghost, _, k, ran⟩

theorem advances_nested (levels : Nat) {stack : Stack} : (d.nested levels stack).Advances := by
  cases levels with
  | zero => exact advances_tooDeep
  | succ levels =>
    rw [nested_succ_on]
    exact d.advances_valueOver
      (d.obeys_guarded d.covers_forward (d.obeys_nested d.covers_forward levels) stack levels)

end Dialect

end Rewind.Json
