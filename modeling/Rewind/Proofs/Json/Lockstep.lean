import Rewind.Proofs.Grammar.Value
import Rewind.Proofs.Json.Token
import Rewind.Proofs.Parser.Lockstep

/-! # Dialects in step

Two dialects that read the same strings, and numbers that correspond, read corresponding values: their
rules are in step on every buffer, whatever either of them reports to the journal. -/

namespace Rewind.Json

open Rewind.Parser

/-- The dialects agree on what is between tokens, at the end and in strings, and on numbers up to `U`. -/
structure Dialect.Alike (U : Value → Value → Prop) (b : Buffer) (d d' : Dialect) : Prop where
  whitespace : d'.whitespace = d.whitespace
  requireEnd : d'.requireEnd = d.requireEnd
  strings : (Pairing.exact b).InStep Eq d.quotedString d'.quotedString
  numbers : (Pairing.exact b).InStep (fun m n => U (.ofNumber m) (.ofNumber n)) d.number d'.number

namespace Dialect

/-! ## Rules that report -/

section

variable {α β : Type} {V : α → β → Prop} {b : Buffer} {p : Parser α} {q : Parser β} (d d' : Dialect)

theorem inStep_reported (step : (Pairing.exact b).InStep V p q) (name : String) :
    (Pairing.exact b).InStep V (d.reported name p) (d'.reported name q) := by
  have right : (Pairing.exact b).InStep V p (d'.reported name q) := by
    simp only [reported]
    split
    · exact step.traced_right _
    · exact step
  rw [reported]
  split
  · exact right.traced_left _
  · exact right

theorem inStep_container {V : Json → Json → Prop} {p q : Parser Json}
    (step : (Pairing.exact b).InStep V p q) (name : String) :
    (Pairing.exact b).InStep V (d.container name p) (d'.container name q) := by
  have right :
      (Pairing.exact b).InStep V p (if d'.trace then concluded (text name) q else q) := by
    split
    · exact step.concluded_right _
    · exact step
  refine Pairing.InStep.marking ?_ _
  split
  · exact right.concluded_left _
  · exact right

theorem inStep_null (b : Buffer) : (Pairing.exact b).InStep Eq d.null d'.null :=
  inStep_reported d d' (.of_scripted (scripted_map (Token.scripted_verbatim _) _)) _

theorem inStep_boolean (b : Buffer) : (Pairing.exact b).InStep Eq d.boolean d'.boolean :=
  inStep_reported d d'
    (.of_scripted (scripted_map
      (scripted_orElse (Token.scripted_verbatim _) (Token.scripted_verbatim _)) _)) _

end

namespace Alike

variable {U : Value → Value → Prop} {b : Buffer} {d d' : Dialect} (alike : Alike U b d d')

include alike

theorem whiteSpace : d'.whiteSpace = d.whiteSpace := by
  rw [Dialect.whiteSpace, alike.whitespace, Dialect.whiteSpace]

theorem comma : d'.comma = d.comma := by rw [Dialect.comma, alike.whiteSpace, Dialect.comma]

theorem colon : d'.colon = d.colon := by rw [Dialect.colon, alike.whiteSpace, Dialect.colon]

variable (congruence : Value.Congruence U)

include congruence

theorem scalar : (Pairing.exact b).InStep (fun x y => U (.ofJson x) (.ofJson y)) d.scalar d'.scalar := by
  have same {α : Type} (make : α → Json) (x y : α) (eq : x = y) :
      U (.ofJson (make x)) (.ofJson (make y)) := eq ▸ congruence.refl _
  refine .oneOf (.cons ?_ (.cons ?_ (.cons ?_ (.cons ?_ .nil))))
  · exact alike.strings.map (same Json.string)
  · exact (inStep_boolean d d' b).map (same Json.bool)
  · exact (inStep_null d d' b).map (same fun _ => Json.null)
  · exact alike.numbers.map fun m n related => by rwa [Value.ofJson, Value.ofJson]

/-! ## Containers, given that their members are in step -/

variable {member member' : Parser Json}
  (members : (Pairing.exact b).InStep (fun x y => U (.ofJson x) (.ofJson y)) member member')

include members

omit congruence in
theorem entry : (Pairing.exact b).InStep (fun x y => x.1 = y.1 ∧ U (.ofJson x.2) (.ofJson y.2))
    (d.entry member) (d'.entry member') := by
  rw [Dialect.entry, Dialect.entry, alike.colon]
  refine alike.strings.bind fun key _ same => ?_
  exact (Pairing.InStep.of_scripted d.scripted_colon).bind fun _ _ _ =>
    members.map fun _ _ related => ⟨same, related⟩

theorem braced : (Pairing.exact b).InStep (fun x y => U (.ofJson x) (.ofJson y))
    (d.braced member) (d'.braced member') := by
  have entry := alike.entry members
  rw [Dialect.braced, Dialect.braced, alike.comma, alike.whiteSpace]
  refine Pairing.InStep.right (.of_scripted (d.scripted_opening _)) ?_
  have loop := entry.rounds ((Pairing.InStep.of_scripted d.scripted_comma).right entry) trivial
  refine loop.bind fun xs ys same => ?_
  exact (Pairing.InStep.of_scripted (d.scripted_mark _)).map fun _ _ _ => congruence.ofMembers same

theorem bracketed : (Pairing.exact b).InStep (fun x y => U (.ofJson x) (.ofJson y))
    (d.bracketed member) (d'.bracketed member') := by
  rw [Dialect.bracketed, Dialect.bracketed, alike.comma, alike.whiteSpace]
  refine Pairing.InStep.right (.of_scripted (d.scripted_opening _)) ?_
  have loop := members.rounds ((Pairing.InStep.of_scripted d.scripted_comma).right members) trivial
  refine loop.bind fun xs ys same => ?_
  exact (Pairing.InStep.of_scripted (d.scripted_spacedMark _)).map fun _ _ _ => congruence.array same

theorem valueOver : (Pairing.exact b).InStep (fun x y => U (.ofJson x) (.ofJson y))
    (d.valueOver member) (d'.valueOver member') := by
  rw [Dialect.valueOver, Dialect.valueOver, alike.whiteSpace]
  refine Pairing.InStep.marking (Pairing.InStep.right (.of_scripted d.scripted_whiteSpace) ?_) _
  refine (Pairing.InStep.of_scripted scripted_peek).bind fun c _ same => ?_
  subst same
  split
  · exact inStep_container d d' (alike.braced congruence members) _
  · split
    · exact inStep_container d d' ((alike.bracketed congruence members).passing _) _
    · exact (alike.scalar congruence).passing _

/-! ## Nesting -/

omit members

theorem nested (levels : Nat) {stack : Stack} :
    (Pairing.exact b).InStep (fun x y => U (.ofJson x) (.ofJson y))
      (d.nested levels stack) (d'.nested levels stack) := by
  have tooDeep : (Pairing.exact b).InStep (fun x y => U (.ofJson x) (.ofJson y)) tooDeep tooDeep :=
    .marking (.fail _) _
  induction levels with
  | zero => exact tooDeep
  | succ levels ih =>
    rw [nested_succ_on, nested_succ_on]
    refine alike.valueOver congruence fun pos j k => ?_
    simp only [guarded]
    split
    · exact ih pos j k
    · -- Where the stack runs out, both sides fail, whatever they did before.
      exact tooDeep pos _ _

theorem openedBy (levels : Nat) (opening : String) {stack : Stack} :
    (Pairing.exact b).InStep (fun x y => U (.ofJson x) (.ofJson y))
      (d.openedBy levels opening stack) (d'.openedBy levels opening stack) := by
  refine (Pairing.InStep.of_scripted scripted_peek).bind fun c _ same => ?_
  subst same
  split
  · exact alike.nested congruence levels
  · exact .fail _

theorem value (levels : Nat) {stack : Stack} :
    (Pairing.exact b).InStep (fun x y => U (.ofJson x) (.ofJson y))
      (d.value levels stack) (d'.value levels stack) :=
  inStep_reported d d' (alike.nested congruence levels) _

theorem document (levels : Nat) {stack : Stack} :
    (Pairing.exact b).InStep (fun x y => U (.ofJson x) (.ofJson y))
      (d.document levels stack) (d'.document levels stack) := by
  have value : (Pairing.exact b).InStep (fun x y => U (.ofJson x) (.ofJson y))
    (d.value levels stack) (d'.value levels stack) := alike.value congruence levels
  rw [Dialect.document, Dialect.document, alike.requireEnd, alike.whiteSpace]
  split
  · exact (value.left (.of_scripted d.scripted_whiteSpace)).left (.of_scripted scripted_eof)
  · exact value

/-- Every rule of the one dialect is in step with that of the other. -/
theorem rule (levels : Nat) (rule : Rule) {stack : Stack} :
    (Pairing.exact b).InStep U (rule.parser d levels stack) (rule.parser d' levels stack) := by
  have same {α : Type} (make : α → Value) (x y : α) (eq : x = y) : U (make x) (make y) :=
    eq ▸ congruence.refl _
  have nested {p q : Parser Json}
      (step : (Pairing.exact b).InStep (fun x y => U (.ofJson x) (.ofJson y)) p q) :
      (Pairing.exact b).InStep U (p.map .ofJson) (q.map .ofJson) := step.map fun _ _ related => related
  cases rule with
  | value => exact nested (alike.value congruence levels)
  | document => exact nested (alike.document congruence levels)
  | object => exact nested (alike.openedBy congruence levels _)
  | array => exact nested (alike.openedBy congruence levels _)
  | quotedString => exact alike.strings.map (same Value.ofText)
  | boolean => exact (inStep_boolean d d' b).map (same Value.bool)
  | null => exact (inStep_null d d' b).map fun _ _ _ => congruence.refl _
  | number => exact alike.numbers.map fun _ _ related => related
  | integer => exact (Pairing.InStep.of_scripted Token.scripted_integer).map (same Value.literal)
  | sign => exact (Pairing.InStep.of_scripted Token.scripted_sign).map (same Value.piece)
  | keyValuePair =>
    refine (alike.entry (alike.value congruence levels)).map fun x y related => ?_
    obtain ⟨keys, values⟩ := related
    exact congruence.tuple (.cons (keys ▸ congruence.refl _) (.cons values .nil))
  | whiteSpace =>
    rw [Rule.parser, Rule.parser, alike.whiteSpace]
    exact (Pairing.InStep.of_scripted d.scripted_whiteSpace).map (same Value.piece)
  | comma =>
    rw [Rule.parser, Rule.parser, alike.comma]
    exact (Pairing.InStep.of_scripted d.scripted_comma).map (same Value.piece)
  | colon =>
    rw [Rule.parser, Rule.parser, alike.colon]
    exact (Pairing.InStep.of_scripted d.scripted_colon).map (same Value.piece)

end Alike

end Dialect

end Rewind.Json
