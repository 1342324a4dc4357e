import Rewind.Proofs.Json.Container

/-! # The limit on the nesting

A member that would be nested too deep fails in its place and leaves a mark, and so does one during which
the stack runs out.  A run without such a mark has never come to the limit, so it replies as it would
on an ample stack under any other limit that is not lower. -/

namespace Rewind.Json

open Rewind.Parser RunProperty Token

def isLimit : Event → Bool
  | .marked tag _ => tag == limitMark
  | _ => false

abbrev Within : Event → Prop := fun e => isLimit e = false

/-- No member was nested too deep in the run that left the journal. -/
def WithinLimit (j : Journal) : Prop := j.Admits Within

instance (j : Journal) : Decidable (WithinLimit j) :=
  inferInstanceAs (Decidable (∀ e ∈ j.past, isLimit e = false))

/-- The limit shows in every run that reaches it. -/
theorem tooDeep_run_limit (s : State) (j : Journal) : ¬ WithinLimit (tooDeep.run s j).2 := by
  intro within
  have unmarked := within (.marked limitMark s.pos) (.tail _ (.head _))
  simp [Within, isLimit] at unmarked

/-- There is nothing to compare with a run that reaches the limit. -/
theorem agreeAt_tooDeep {α : Type} {f : Json → α} {q : Parser α} {s : State} :
    AgreeAt Within f tooDeep q s := by
  intro j
  refine ⟨⟨[_, _], rfl⟩, fun within => ?_⟩
  exact absurd within (tooDeep_run_limit s j)

namespace Dialect

variable (d : Dialect) {ok : Event → Prop} {member member' : Parser Json}

section

variable (members : ∀ s, AgreeAt ok id member member' s)

include members

theorem agree_entry (s : State) : AgreeAt ok id (d.entry member) (d.entry member') s :=
  (d.scripted_quotedString.oblivious ok s).bind fun _ _ _ =>
    (d.scripted_colon.oblivious ok _).bind fun _ _ _ => (members _).map fun _ => rfl

theorem agree_braced (s : State) : AgreeAt ok id (d.braced member) (d.braced member') s := by
  have entry := d.agree_entry members
  refine ((d.scripted_opening _).oblivious ok s).right fun _ pos _ => ?_
  -- Members are compared wherever the loop may come to, hence at all cursors.
  have loop := (entry (s.goto pos)).rounds fun t =>
    (d.scripted_comma.oblivious ok t).right fun _ _ _ => entry _
  rw [List.map_id_fun] at loop
  exact loop.bind fun _ _ _ => ((d.scripted_mark _).oblivious ok _).map fun _ => rfl

theorem agree_bracketed (s : State) : AgreeAt ok id (d.bracketed member) (d.bracketed member') s := by
  refine ((d.scripted_opening _).oblivious ok s).right fun _ pos _ => ?_
  have loop := (members (s.goto pos)).rounds fun t =>
    (d.scripted_comma.oblivious ok t).right fun _ _ _ => members _
  rw [List.map_id_fun] at loop
  exact loop.bind fun _ _ _ => ((d.scripted_spacedMark _).oblivious ok _).map fun _ => rfl

omit members in
theorem agree_container {p q : Parser Json} {s : State} (agree : AgreeAt ok id p q s)
    (name : String) : AgreeAt ok id (d.container name p) (d.container name q) s := by
  simp only [container]
  apply AgreeAt.marking_left
  apply AgreeAt.marking_right
  split
  · exact (agree.concluded_left _).concluded_right _
  · exact agree

theorem agree_announced (c : Option Buffer) (s : State) :
    AgreeAt ok id (d.announced member c) (d.announced member' c) s := by
  simp only [announced]
  split
  · exact d.agree_container (d.agree_braced members s) _
  · split
    · exact d.agree_container ((d.agree_bracketed members s).passing _) _
    · exact (d.scripted_scalar.oblivious ok s).passing _

theorem agree_valueOver (s : State) : AgreeAt ok id (d.valueOver member) (d.valueOver member') s := by
  -- The marks differ in neither run, and each is skipped on its own side.
  rw [valueOver_eq, valueOver_eq]
  apply AgreeAt.marking_left
  apply AgreeAt.marking_right
  refine (d.scripted_whiteSpace.oblivious ok s).right fun _ _ _ => ?_
  exact (scripted_peek.oblivious ok _).bind fun c _ _ => d.agree_announced members c _

end

/-- Nor is there with a run during which the stack runs out. -/
theorem agree_guarded {p q : Parser Json} {s : State} (agree : AgreeAt Within id p q s)
    (stack : Stack) (level : Nat) : AgreeAt Within id (guarded stack level p) q s := by
  intro j
  simp only [guarded]
  cases stack.kept? level s.pos with
  | none => exact agree j
  | some kept =>
    obtain ⟨⟨added, grown⟩, -⟩ := agree j
    have kept : j.past <:+ ((p.run s j).2.upTo (j.past.length + kept)).past := by
      rw [Journal.past_upTo grown.symm]
      exact List.suffix_append _ _
    refine ⟨kept.trans ⟨[_, _], rfl⟩, fun within => ?_⟩
    exact absurd within (tooDeep_run_limit s _)

/-- Within the limit a run does not depend on where the limit is, nor on the stack. -/
theorem agree_nested {levels more : Nat} {stack : Stack} (deeper : levels ≤ more) (s : State) :
    AgreeAt Within id (d.nested levels stack) (d.nested more) s := by
  induction levels generalizing more s with
  | zero => exact agreeAt_tooDeep
  | succ levels ih =>
    -- A limit that is not lower leaves a level for the members as well.
    obtain _ | more := more
    · exact absurd deeper (Nat.not_succ_le_zero _)
    · rw [nested_succ_on, nested_succ]
      refine d.agree_valueOver (fun t => ?_) s
      exact agree_guarded (ih (Nat.le_of_succ_le_succ deeper) t) stack levels

theorem agree_reported {α : Type} {p q : Parser α} {s : State} (agree : AgreeAt ok id p q s)
    (name : String) : AgreeAt ok id (d.reported name p) (d.reported name q) s := by
  simp only [reported]
  split
  · exact (agree.traced_left _).traced_right _
  · exact agree

theorem agree_document {levels more : Nat} {stack : Stack} (deeper : levels ≤ more) (s : State) :
    AgreeAt Within id (d.document levels stack) (d.document more) s := by
  have value : AgreeAt Within id (d.value levels stack) (d.value more) s :=
    d.agree_reported (d.agree_nested deeper s) _
  simp only [document]
  split
  · have spaced := value.left fun _ pos _ => d.scripted_whiteSpace.oblivious Within (s.goto pos)
    exact spaced.left fun _ pos _ => scripted_eof.oblivious Within (s.goto pos)
  · exact value

theorem agree_openedBy {levels more : Nat} {stack : Stack} (deeper : levels ≤ more)
    (opening : String) (s : State) :
    AgreeAt Within id (d.openedBy levels opening stack) (d.openedBy more opening) s := by
  refine (scripted_peek.oblivious Within s).bind fun c pos _ => ?_
  dsimp only [id]
  split
  · exact d.agree_nested deeper _
  · exact (scripted_fail _).oblivious Within _

end Dialect

/-- Within the limit no rule depends on where the limit is, nor on the stack. -/
theorem Rule.agree_parser (d : Dialect) (rule : Rule) {levels more : Nat} {stack : Stack}
    (deeper : levels ≤ more) (s : State) :
    AgreeAt Within id (rule.parser d levels stack) (rule.parser d more) s := by
  have value (t : State) : AgreeAt Within id (d.value levels stack) (d.value more) t :=
    d.agree_reported (d.agree_nested deeper t) _
  have token {α : Type} {p : Parser α} (scripted : p.Scripted) (make : α → Value) :
      AgreeAt Within id (p.map make) (p.map make) s :=
    (scripted_map scripted make).oblivious Within s
  cases rule with
  | value => exact (value s).map fun _ => rfl
  | document => exact (d.agree_document deeper s).map fun _ => rfl
  | object => exact (d.agree_openedBy deeper _ s).map fun _ => rfl
  | array => exact (d.agree_openedBy deeper _ s).map fun _ => rfl
  | quotedString => exact token d.scripted_quotedString _
  | boolean => exact token d.scripted_boolean _
  | null => exact token d.scripted_null _
  | number => exact token d.scripted_number _
  | integer => exact token scripted_integer _
  | sign => exact token scripted_sign _
  | keyValuePair => exact (d.agree_entry value s).map fun _ => rfl
  | whiteSpace => exact token d.scripted_whiteSpace _
  | comma => exact token d.scripted_comma _
  | colon => exact token d.scripted_colon _

theorem Rule.run_eq_of_withinLimit {d : Dialect} {rule : Rule} {levels more : Nat} {stack : Stack}
    {s : State} {j : Journal} (deeper : levels ≤ more)
    (within : WithinLimit ((rule.parser d levels stack).run s j).2) (k : Journal) :
    ((rule.parser d more).run s k).1 = ((rule.parser d levels stack).run s j).1 := by
  have same := (rule.agree_parser d deeper s j).2 within k
  rwa [Reply.map_id] at same

end Rewind.Json
