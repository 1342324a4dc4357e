import Rewind.Proofs.Failure.Furthest
import Rewind.Proofs.Grammar.RunProperty

/-! # No failure is lost

Primitive parsers leave each of their failures in the journal.  Whatever a parser built from the
combinators replies, the failure that its reply carries is what the merge of all recorded failures
comes to: none of them is dropped on the way, whether it ended a part or was swallowed.

A label rewords a failure, so with labels only the offset is the furthest of the recorded ones.  Both
statements are one about a *view* of failures that merging respects: the failure itself, or its
offset, which labels leave alone. -/

namespace Rewind

open Failure

/-! ## Journals -/

namespace Journal

variable {j : Journal}

@[simp] theorem failures_record_missed (e : Failure) :
    (j.record (.missed e)).failures = j.failures ++ [e] := by
  simp [failures, Event.missed?]

theorem failures_record {e : Event} (quiet : e.missed? = none) :
    (j.record e).failures = j.failures := by
  simp [failures, quiet]

@[simp] theorem failures_turnPage : j.turnPage.failures = [] := rfl

end Journal

/-! ## Views -/

/-- What merging makes of two views depends on nothing but the views. -/
def Respects {β : Type} (view : Option Failure → β) : Prop :=
  ∀ {a a' b b'}, view a = view a' → view b = view b' → view (join a b) = view (join a' b')

theorem respects_id : Respects (id : Option Failure → Option Failure) := by
  rintro a a' b b' (rfl : a = a') (rfl : b = b')
  rfl

theorem respects_pos : Respects (Option.map Failure.pos) := by
  intro a a' b b' first second
  rw [pos_join, pos_join, first, second]

/-! ## Reports -/

theorem Reply.carried_after {α : Type} {start : Nat} {ghost : Option Failure} {r : Reply α}
    (returns : ∀ cause, r ≠ .fault cause) : (r.after start ghost).carried = join ghost r.carried := by
  cases r with
  | matched value pos next => rfl
  | failed pos error => exact some_cover ghost error
  | fault cause => exact absurd rfl (returns cause)

namespace RunProperty

variable {β : Type} {view : Option Failure → β}

/-- The failures that a run adds to the journal have one expectation each, and, unless it ends with
a fault, their merge looks like the failure that the reply carries. -/
def reports (view : Option Failure → β) : RunProperty := fun _ j r k =>
  ∃ added, k.failures = j.failures ++ added ∧ (∀ e ∈ added, e.expected.length = 1) ∧
    ((∀ cause, r ≠ .fault cause) → view r.carried = view (mergeAll added))

/-- The failures of one part are followed by those of the next. -/
theorem reports_after {s : State} {j k l : Journal} {r r' : Reply Unit} {start : Nat}
    {ghost : Option Failure} (respects : Respects view) (first : reports view s j r k)
    (returns : ∀ cause, r ≠ .fault cause) (carries : r.carried = ghost) {t : State}
    (rest : reports view t k r' l) : reports view s j (r'.after start ghost) l := by
  obtain ⟨before, addedBefore, singleBefore, viewBefore⟩ := first
  obtain ⟨behind, addedBehind, singleBehind, viewBehind⟩ := rest
  refine ⟨before ++ behind, ?_, ?_, ?_⟩
  · rw [addedBehind, addedBefore, List.append_assoc]
  · simpa [or_imp, forall_and] using And.intro singleBefore singleBehind
  · intro noFault
    have restReturns : ∀ cause, r' ≠ .fault cause := by
      rintro cause rfl
      exact noFault cause rfl
    rw [Reply.carried_after restReturns, mergeAll_append, ← carries]
    exact respects (viewBefore returns) (viewBehind restReturns)

theorem reports_unobservant (respects : Respects view) : (reports view).Unobservant where
  advance _ _ := ⟨[], by simp, by simp, fun _ => rfl⟩
  missed expected n _ := ⟨[_], by simp, by simp, fun _ => rfl⟩
  fault cause given := by
    obtain ⟨added, eq, single, -⟩ := given
    exact ⟨added, eq, single, fun returns => absurd rfl (returns cause)⟩
  sequence first rest := reports_after respects first nofun rfl rest
  alternative first second := reports_after respects first nofun rfl second
  restart := by
    rintro s j k pos error ⟨added, eq, single, same⟩
    exact ⟨added, eq, single, fun _ => same nofun⟩
  rewind := by
    rintro s j k pos ghost ⟨added, eq, single, same⟩
    exact ⟨added, eq, single, fun _ => same nofun⟩
  before := by
    rintro s j r k e quiet ⟨added, eq, rest⟩
    exact ⟨added, by rw [eq, Journal.failures_record quiet], rest⟩
  after := by
    rintro s j r k e quiet ⟨added, eq, rest⟩
    exact ⟨added, by rw [Journal.failures_record quiet, eq], rest⟩

end RunProperty

open RunProperty

namespace Parser

variable {α β : Type} {view : Option Failure → β}

theorem failWith_reports (expected : Text) (actual : Option Buffer) :
    (failWith expected actual : Parser α).Obeys (reports view) :=
  fun _ _ => ⟨[_], by simp [failWith, miss], by simp, fun _ => rfl⟩

/-- A label changes no view that does not look at expectations. -/
theorem label_reports {p : Parser α} (obeys : p.Obeys (reports view)) {message : Text}
    (blind : ∀ e : Failure, view (some ⟨e.pos, [message], e.actual⟩) = view (some e)) :
    (p.label message).Obeys (reports view) := by
  intro s j
  simp only [Parser.label]
  cases ran : p.run s j with
  | mk reply k =>
    cases reply with
    | matched value pos ghost => exact obeys.run ran
    | failed pos error =>
      -- The label records nothing, so the recorded failures are those of `p`.
      obtain ⟨added, eq, single, same⟩ := obeys.run ran
      by_cases here : error.pos = s.pos
      · simp only [if_pos here]
        refine ⟨added, eq, single, fun _ => ?_⟩
        rw [← same nofun, ← here]
        exact blind error
      · simp only [if_neg here]
        exact ⟨added, eq, single, same⟩
    | fault cause => exact obeys.run ran

end Parser

namespace Expr

def isJson : Expr → Bool
  | .json _ _ _ _ => true
  | _ => false

def isLabel : Expr → Bool
  | .label _ _ => true
  | _ => false

theorem keeps_reports_pos :
    Keeps (fun q => q.isJson = false) (reports (Option.map Failure.pos)) where
  toUnobservant := reports_unobservant respects_pos
  failWith _ := Parser.failWith_reports _ _
  label _ obeys := Parser.label_reports obeys fun _ => rfl
  json := nofun

theorem keeps_reports :
    Keeps (fun q => q.isJson = false ∧ q.isLabel = false) (reports id) where
  toUnobservant := reports_unobservant respects_id
  failWith _ := Parser.failWith_reports _ _
  label admitted := nomatch admitted.2
  json admitted := nomatch admitted.1

/-- A reply carries a failure exactly when a primitive failed during the run, and that failure lies at
the furthest offset at which one did.  Without labels it is the merge of all these failures, and so
reports what they report together. -/
theorem carried_eq_furthest {grammar : Grammar} {p : Expr} {s : State} {j k : Journal}
    {reply : Reply Value} (plain : p.Everywhere (fun q => q.isJson = false) grammar)
    (ran : (p.parser grammar).run s j.turnPage = (reply, k))
    (returns : ∀ cause, reply ≠ .fault cause) :
    (reply.carried = none ↔ k.failures = []) ∧
      reply.carried.map Failure.pos = (k.failures.map Failure.pos).max? ∧
      (p.Everywhere (fun q => q.isLabel = false) grammar →
        reply.carried = mergeAll k.failures ∧
          ∀ e, reply.carried = some e → e.Summarizes k.failures) := by
  have furthest : reply.carried.map Failure.pos = (k.failures.map Failure.pos).max? := by
    -- The journal begins on a new page, so all failures on it are of this run.
    obtain ⟨added, eq, -, same⟩ := (parser_obeys keeps_reports_pos plain).run ran
    rw [Journal.failures_turnPage, List.nil_append] at eq
    rw [← Reply.carried_shape, same (Reply.shape_returns returns), pos_mergeAll, eq]
  refine ⟨?_, furthest, ?_⟩
  · rw [← Option.map_eq_none_iff (f := Failure.pos), furthest, List.max?_eq_none_iff,
      List.map_eq_nil_iff]
  · intro unlabelled
    -- Without labels the same argument applies to the failure itself, not only to its offset.
    have admitted := plain.and unlabelled
    obtain ⟨added, eq, single, same⟩ := (parser_obeys keeps_reports admitted).run ran
    rw [Journal.failures_turnPage, List.nil_append] at eq
    have merged : reply.carried = mergeAll k.failures := by
      rw [← Reply.carried_shape, eq]
      exact same (Reply.shape_returns returns)
    refine ⟨merged, fun e carried => ?_⟩
    exact summarizes_mergeAll (eq ▸ single) (merged ▸ carried)

/-- Two words apart by commas, the second of them misspelt: both failures at the end of it are
reported. -/
theorem carried_eq_furthest_in_list :
    let words := (Expr.char (text ",")).sepBy
      (.orElse (.literal (.ofText (text "ab"))) (.literal (.ofText (text "ac"))))
    let done := (words.parser []).run (.start (.ofText (text "ab,ad"))) .empty
    words.Everywhere (fun q => q.isJson = false) [] ∧
      words.Everywhere (fun q => q.isLabel = false) [] ∧ (∀ cause, done.1 ≠ .fault cause) ∧
      done.1.carried.map Failure.pos = (done.2.failures.map Failure.pos).max? ∧
      done.1.carried = mergeAll done.2.failures := by
  intro words done
  have all : words.Everywhere (fun q => q.isJson = false ∧ q.isLabel = false) [] := by
    refine ⟨?_, nofun⟩
    intro q part
    simp only [words, Expr.char] at part
    cases part with
    | self => exact ⟨rfl, rfl⟩
    | separator part =>
      cases part
      exact ⟨rfl, rfl⟩
    | separated part =>
      cases part with
      | self => exact ⟨rfl, rfl⟩
      | first part =>
        cases part
        exact ⟨rfl, rfl⟩
      | second part =>
        cases part
        exact ⟨rfl, rfl⟩
  have plain := all.imp fun _ both => both.1
  have unlabelled := all.imp fun _ both => both.2
  have carries : done.1.carried.isSome = true := by decide +kernel
  have returns : ∀ cause, done.1 ≠ .fault cause := by
    intro cause fault
    simp [fault, Reply.carried] at carries
  obtain ⟨-, furthest, merged⟩ := carried_eq_furthest (j := .empty) plain rfl returns
  exact ⟨plain, unlabelled, returns, furthest, (merged unlabelled).1⟩

end Expr

end Rewind
