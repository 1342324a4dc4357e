import Rewind.Json.Reading
import Rewind.Proofs.Json.Completeness
import Rewind.Proofs.Json.Soundness

/-! # Parsing decides the grammar

A parser of whole documents accepts the texts that the grammar derives and no others, and gives each
the value that it denotes.  All other texts are rejected with a failure. -/

namespace Rewind.Json

open Rewind.Parser Syntax

namespace Dialect

variable {d : Dialect} {t : Text} {v : Json}

theorem accepts_value (standard : d.StandardSpace) {levels : Nat}
    (padded : Padded d (ValueWithin d levels) t v) :
    ∃ left, (d.value levels).Accepts t v left ∧ d.skip left = [] := by
  obtain @⟨before, u, after, _, blank, derived, blank'⟩ := padded
  -- The white space at the end may have been skipped with the value.
  have nothing : d.skip after = [] := by
    have skipped := skip_append blank' []
    rwa [List.append_nil] at skipped
  have next : d.skip (before ++ u ++ after) = u ++ after := by
    rw [List.append_assoc, skip_append blank, (solid_valueWithin standard levels).skip_append derived]
  have closes : Closes (d.skip after) := by
    rw [nothing]
    nofun
  have value := accepts_nested standard derived next
    (accepts_number_of_closes standard derived closes)
  exact ⟨_, d.accepts_reported value _, (skip_behind v after).trans nothing⟩

theorem accepts_document (ends : d.requireEnd = true) (standard : d.StandardSpace)
    (document : Document d t v) {levels : Nat} (short : t.length ≤ levels) :
    (d.document levels).Accepts t v [] := by
  obtain @⟨before, u, after, _, blank, derived, blank'⟩ := document
  simp only [List.length_append] at short
  have within : ValueWithin d levels u v := valueWithin_of_length derived (by omega)
  obtain ⟨left, value, nothing⟩ := accepts_value standard (.intro blank within blank')
  obtain ⟨b, space⟩ := d.accepts_whiteSpace left
  rw [nothing] at space
  rw [Dialect.document, if_pos ends]
  exact (value.left space).left accepts_eof

end Dialect

open Dialect

theorem parse_ofText (d : Dialect) (t : Text) (levels : Nat) :
    parse d (.ofText t) levels = ((d.document levels).parse (.ofText t)).1.result := rfl

theorem parse_of_accepts {d : Dialect} {t left : Text} {v : Json} {levels : Nat}
    (accepts : (d.document levels).Accepts t v left) : parse d (.ofText t) levels = .ok (.ok v) := by
  have start := State.rest_start t
  obtain ⟨pos, ghost, replied, _⟩ := accepts (.start (.ofText t)) rfl start .empty
  rw [parse_ofText, Parser.parse, replied]
  rfl

/-- A run within the limit has the result that it has on an ample stack, under any limit that is not
lower. -/
theorem parse_eq_of_withinLimit {d : Dialect} {t : Text} {levels more : Nat} {stack : Stack}
    (deeper : levels ≤ more)
    (within : WithinLimit (parseJournaled d (.ofText t) levels stack).2) :
    parse d (.ofText t) levels stack = ((d.document more).parse (.ofText t)).1.result := by
  have agree : AgreeAt Within id (d.document levels stack) (d.document more) (.start (.ofText t)) :=
    d.agree_document deeper _
  have same := (agree_guarded agree stack levels .empty).2 within .empty
  rw [Reply.map_id] at same
  exact (congrArg Reply.result same).symm

/-- A text is accepted exactly if it is a document, with the value that it denotes; in runs within the
limit on the nesting that end without a fault, any other text is rejected with a failure.  This is so
whatever the limit is, and on any stack. -/
theorem parse_eq_ok_iff {d : Dialect} (ends : d.requireEnd = true) (standard : d.StandardSpace)
    (t : Text) (levels : Nat) (stack : Stack)
    (within : WithinLimit (parseJournaled d (.ofText t) levels stack).2)
    (returns : ∀ cause, parse d (.ofText t) levels stack ≠ .error cause) :
    (∀ v, parse d (.ofText t) levels stack = .ok (.ok v) ↔ Document d t v) ∧
      ((∀ v, ¬ Document d t v) → ∃ e, parse d (.ofText t) levels stack = .ok (.error e)) := by
  have start : (State.start (.ofText t)).rest = t := by
    rw [State.rest, State.start, Buffer.rest_zero, Buffer.codes_ofText]
  -- With as many levels as the text is long it is accepted; within the limit, fewer do the same.
  let more := max levels t.length
  have same := parse_eq_of_withinLimit (Nat.le_max_left levels t.length) within
  have decides (v : Json) : parse d (.ofText t) levels stack = .ok (.ok v) ↔ Document d t v := by
    rw [same]
    constructor
    · intro accepted
      -- A match has read a document, and the rule for documents reads the whole text.
      cases ran : (d.document more).parse (.ofText t) with
      | mk reply k =>
        cases reply with
        | matched w pos ghost =>
          simp only [more, ran, Reply.result, Except.ok.injEq] at accepted
          subst accepted
          have derived := d.yields_document ends ⟨ghost, .empty, k, ran⟩
          rwa [start] at derived
        | failed pos error => simp [more, ran, Reply.result] at accepted
        | fault cause => simp [more, ran, Reply.result] at accepted
    · intro document
      exact parse_of_accepts
        (accepts_document ends standard document (Nat.le_max_right levels t.length))
  refine ⟨decides, fun underivable => ?_⟩
  cases outcome : parse d (.ofText t) levels stack with
  | ok result =>
    cases result with
    | ok v => exact absurd ((decides v).1 outcome) (underivable v)
    | error e => exact ⟨e, rfl⟩
  | error cause => exact absurd outcome (returns cause)

/-- A key that is repeated, once with an escape, and white space around the punctuation. -/
theorem parse_eq_ok_iff_in_object :
    Document .strict (text "\t\x7b\"a\" :1,\"\\u0061\": [-2]\x7d ")
      (.object [(text "a", .array [.number (.int (-2))])]) := by
  have accepted :
      parse .strict (.ofText (text "\t\x7b\"a\" :1,\"\\u0061\": [-2]\x7d ")) 3 =
        .ok (.ok (.object [(text "a", .array [.number (.int (-2))])])) := by decide +kernel
  refine ((parse_eq_ok_iff rfl (by decide) _ 3 [] (by decide +kernel) ?_).1 _).1 accepted
  intro cause faulty
  rw [accepted] at faulty
  cases faulty

end Rewind.Json
