import Rewind.Proofs.Json.Numbers
import Rewind.Proofs.Json.Progress

/-! # Which runs end with a fault

A text may hold digits that no float holds and be parsed all the same, if they stand in a string or behind
the place where parsing gives up.  A run ends with a fault just if it attempts to read a value where, behind
white space, a number stands that cannot be put together.

Each part of a run says so of the attempts that it makes itself: a part that ends with a fault has met such
a number, and one that does not has met none.  As a fault ends the whole run, this passes from the parts to
the whole. -/

namespace Rewind

open Json

def Reply.IsFault {α : Type} (r : Reply α) : Prop := ∃ cause, r = .fault cause

namespace Reply

variable {α β : Type}

@[simp] theorem isFault_matched (x : α) (pos : Nat) (ghost : Option Failure) :
    ¬ (matched x pos ghost).IsFault := nofun

@[simp] theorem isFault_failed (pos : Nat) (error : Failure) : ¬ (failed pos error : Reply α).IsFault :=
  nofun

@[simp] theorem isFault_fault (cause : Fault) : (fault cause : Reply α).IsFault := ⟨cause, rfl⟩

@[simp] theorem isFault_map (f : α → β) (r : Reply α) : (r.map f).IsFault ↔ r.IsFault := by
  cases r <;> simp [Reply.map]

@[simp] theorem isFault_after (start : Nat) (ghost : Option Failure) (r : Reply α) :
    (r.after start ghost).IsFault ↔ r.IsFault := by
  cases r <;> simp [Reply.after]

end Reply

def Json.Meets (bad : Nat → Prop) (ms : List Milestone) : Prop := ∃ pos, bad pos ∧ .value pos ∈ ms

namespace Json

variable {bad : Nat → Prop} {ms more : List Milestone}

@[simp] theorem meets_nil : ¬ Meets bad [] := nofun

@[simp] theorem meets_append : Meets bad (ms ++ more) ↔ Meets bad ms ∨ Meets bad more := by
  simp only [Meets, List.mem_append, and_or_left, exists_or]

@[simp] theorem meets_value {pos : Nat} : Meets bad (.value pos :: ms) ↔ bad pos ∨ Meets bad ms := by
  simp [Meets, and_or_left, exists_or]

@[simp] theorem meets_round {pos : Nat} : Meets bad (.round pos :: ms) ↔ Meets bad ms := by
  simp [Meets]

@[simp] theorem meets_limit {pos : Nat} : Meets bad (.limit pos :: ms) ↔ Meets bad ms := by
  simp [Meets]

end Json

namespace Parser

open Run RunProperty

variable {α β : Type} {bad : Nat → Prop} {p : Parser α} {s : State}

/-- A run of `p` at this cursor ends with a fault just if it attempts to read a value at a bad cursor. -/
def FaultsBy (bad : Nat → Prop) (p : Parser α) (s : State) : Prop :=
  Leaves (fun ms r => r.IsFault ↔ Meets bad ms) (p.run s)

namespace FaultsBy

theorem of_faultless (quiet : p.Obeys unmarked) (faultless : p.FaultsOnlyAt (fun _ => False) s) :
    p.FaultsBy bad s := by
  refine (leaves_of_unmarked quiet).imp ?_
  rintro _ r ⟨j, k, ran⟩ rfl
  simp only [meets_nil, iff_false]
  rintro ⟨cause, rfl⟩
  refine faultless j cause ?_
  rw [ran]
  rfl

theorem map (faults : p.FaultsBy bad s) (f : α → β) : (p.map f).FaultsBy bad s := by
  intro j
  obtain ⟨ms, added, same⟩ := faults j
  exact ⟨ms, added, (Reply.isFault_map f _).trans same⟩

theorem passing (faults : p.FaultsBy bad s) (passed : List Text) :
    (Parser.passing passed p).FaultsBy bad s :=
  Leaves.after (faults.imp fun _ _ _ same => (Reply.isFault_after ..).trans same)

theorem concluded (faults : p.FaultsBy bad s) (label : Text) :
    (Parser.concluded label p).FaultsBy bad s := by
  intro j
  obtain ⟨ms, added, same⟩ := faults j
  exact ⟨ms, (unmarked_conclude fun _ => rfl).trans added, same⟩

theorem traced (faults : p.FaultsBy bad s) (label : Text) : (Parser.traced label p).FaultsBy bad s := by
  intro j
  obtain ⟨ms, added, same⟩ := faults (j.record (.entered label (glimpse s) (hasMore s) s.pos))
  refine ⟨ms, (unmarked_conclude fun _ => rfl).trans (added.trans ?_), same⟩
  rw [unmarked_record rfl]

theorem bind {f : α → Parser β} (first : p.FaultsBy bad s)
    (rest : ∀ x pos, p.Yields s x pos → (f x).FaultsBy bad (s.goto pos)) :
    (p.bind f).FaultsBy bad s := by
  rw [FaultsBy, run_bind]
  refine first.resume (fun ms x pos ghost gives none => ?_) (fun ms pos error _ none => ?_) ?_
  · refine Leaves.after ((rest x pos ⟨ghost, gives⟩).imp fun more r _ same => ?_)
    rw [Reply.isFault_after, meets_append, same]
    simp [none.symm]
  · exact .reply (by simpa using none)
  · exact fun ms cause same => by simpa using same

/-- A loop whose rounds advance has no fault of its own. -/
theorem rounds {first next : Parser α} (s : State) (advances : first.Advances)
    (opening : first.FaultsBy bad s) (advances' : next.Advances)
    (further : ∀ t, s.Precedes t → next.FaultsBy bad t) : (Parser.rounds first next).FaultsBy bad s := by
  rw [FaultsBy, run_rounds]
  have marked : Leaves (fun ms r => r.IsFault ↔ Meets bad ms) ((marking roundMark first).run s) :=
    leaves_marking (opening.imp fun _ _ _ same => same.trans meets_round.symm)
  refine marked.resume (fun ms x pos ghost gives none => ?_) (fun ms pos error _ none => ?_) ?_
  · obtain ⟨ahead, within⟩ := advances s x pos (yields_marking ⟨ghost, gives⟩)
    rw [if_pos ⟨ahead, within⟩]
    have reached : s.Precedes (s.goto pos) := .goto (Nat.le_of_lt ahead) within
    have others := rounds (s.goto pos) advances' (further _ reached) advances' fun t later =>
      further t (reached.trans later)
    refine Leaves.after ((others.map (x :: ·)).imp fun more r _ same => ?_)
    rw [Reply.isFault_after, meets_append, same]
    simp [none.symm]
  · exact .reply (by simpa using none)
  · exact fun ms cause same => by simpa using same
termination_by s.input.size - s.pos
decreasing_by
  simp only [State.goto]
  omega

end FaultsBy

/-- An alternative is come to if those before it fail, and may then end the run. -/
theorem oneOf_faults (ps : List (Parser α)) {cause : Fault} (fails : ∀ q ∈ ps, q.MissesAt s)
    (faults : ∀ j, (p.run s j).1 = .fault cause) (j : Journal) :
    ((Parser.oneOf (ps ++ [p])).run s j).1 = .fault cause := by
  have rest {ps : List (Parser α)} (fails : ∀ q ∈ ps, q.MissesAt s) (error : Failure) (j : Journal) :
      (tryRest s (ps ++ [p]) error j).1 = .fault cause := by
    induction ps generalizing error j with
    | nil =>
      rw [List.nil_append, run_tryRest, resume_fault (k := (p.run s j).2) (Prod.ext (faults j) rfl)]
    | cons q ps ih =>
      obtain ⟨next, -, failing⟩ := fails q List.mem_cons_self
      obtain ⟨k, ran⟩ := failing.run j
      rw [List.cons_append, run_tryRest, resume_failed ran]
      exact ih (fun q member => fails q (List.mem_cons_of_mem _ member)) _ k
  cases ps with
  | nil => rw [List.nil_append, run_oneOf, resume_fault (k := (p.run s j).2) (Prod.ext (faults j) rfl)]
  | cons q ps =>
    obtain ⟨next, -, failing⟩ := fails q List.mem_cons_self
    obtain ⟨k, ran⟩ := failing.run j
    rw [List.cons_append, run_oneOf, resume_failed ran]
    exact rest (fun q member => fails q (List.mem_cons_of_mem _ member)) _ k

end Parser

namespace Json

open Rewind.Run Rewind.Parser RunProperty Token

/-- A number with a fraction or an exponent begins the text, and no float holds its whole part. -/
def BeginsOversized (t : Text) : Prop :=
  ∃ w f e left, leadingNumber t = .ok ((w, f, e), left) ∧ (f ≠ none ∨ e ≠ none) ∧
    Number.floatLimit ≤ w.value.natAbs

namespace Dialect

variable (d : Dialect) {s : State}

/-! ## Numbers -/

section

variable (kind : s.input.kind = .text)

include kind

theorem number_isFault (oversized : BeginsOversized s.rest) (j : Journal) :
    (d.number.run s j).1 = .fault .numberTooLarge := by
  obtain ⟨w, f, e, left, found, parts, large⟩ := oversized
  exact number_faults kind found (Number.assemble_eq_error_iff.2 ⟨rfl, parts, large⟩) j

theorem beginsOversized_of_fault (inside : s.pos ≤ s.input.size) :
    d.number.FaultsOnlyAt (fun _ => BeginsOversized s.rest) s := by
  intro j cause faulty
  cases leading : leadingNumber s.rest with
  | error missing =>
    obtain ⟨error, failed, _⟩ := d.failsBefore_number leading s kind inside rfl j
    rw [failed] at faulty
    cases faulty
  | ok read =>
    obtain ⟨⟨w, f, e⟩, left⟩ := read
    cases made : Number.assemble d.exactFractions w f e with
    | error cause =>
      obtain ⟨_, parts, large⟩ := Number.assemble_eq_error_iff.1 made
      exact ⟨w, f, e, left, leading, parts, large⟩
    | ok n =>
      obtain ⟨stop, ghost, matched, _⟩ := accepts_number_of_leading leading made s kind rfl j
      rw [matched] at faulty
      cases faulty

include d in
/-- A number begins with nothing else than a sign or a digit. -/
theorem head_ne_of_oversized (oversized : BeginsOversized s.rest) {x : Code} (minus : x ≠ 0x2D)
    (plus : x ≠ 0x2B) (other : CharClass.isDigit x = false) : s.rest.head? ≠ some x := by
  intro head
  have misses : d.number.MissesAt s := by
    apply d.missesAt_number kind
    · rwa [head, ne_eq, Option.some_inj]
    · rwa [head, ne_eq, Option.some_inj]
    · rw [head]
      rintro _ ⟨⟩
      exact other
  obtain ⟨error, -, fails⟩ := misses
  have failed := fails .empty
  rw [d.number_isFault kind oversized] at failed
  cases failed

/-- All alternatives before numbers fail on a number. -/
theorem scalar_isFault_iff (inside : s.pos ≤ s.input.size) (j : Journal) :
    (d.scalar.run s j).1.IsFault ↔ BeginsOversized s.rest := by
  constructor
  · rintro ⟨cause, faulty⟩
    have only : d.scalar.FaultsOnlyAt (fun _ => BeginsOversized s.rest) s := by
      refine .oneOf (faultless_map d.faultless_quotedString _ _ _ kind) ?_
      simp only [List.mem_cons, List.not_mem_nil, or_false]
      rintro p (rfl | rfl | rfl)
      · exact faultless_map d.faultless_boolean _ _ _ kind
      · exact faultless_map d.faultless_null _ _ _ kind
      · exact (d.beginsOversized_of_fault kind inside).map _
    refine only j cause ?_
    rw [faulty]
    rfl
  · intro oversized
    -- A number stands there, so that none of the other alternatives may begin.
    have head {x : Code} (minus : x ≠ 0x2D) (plus : x ≠ 0x2B) (other : CharClass.isDigit x = false) :=
      d.head_ne_of_oversized kind oversized minus plus other
    have faults (j : Journal) : ((d.number.map Json.number).run s j).1 = .fault .numberTooLarge :=
      congrArg (Reply.map _) (d.number_isFault kind oversized j)
    refine ⟨_, oneOf_faults [_, _, _] ?_ faults j⟩
    simp only [List.mem_cons, List.not_mem_nil, or_false]
    rintro p (rfl | rfl | rfl)
    · exact (d.missesAt_quotedString kind (head (by decide) (by decide) (by decide))).map _
    · exact (d.missesAt_boolean kind (head (by decide) (by decide) (by decide))
        (head (by decide) (by decide) (by decide))).map _
    · exact (d.missesAt_null kind (head (by decide) (by decide) (by decide))).map _

end

theorem faultsBy_reported {α : Type} {bad : Nat → Prop} {p : Parser α} (faults : p.FaultsBy bad s)
    (name : String) : (d.reported name p).FaultsBy bad s := by
  simp only [reported]
  split
  · exact faults.traced _
  · exact faults

/-! ## Containers, given where their members fault -/

section

variable {bad : Nat → Prop} {b : Buffer} {member : Parser Json} (kind : b.kind = .text)
  (members : ∀ t : State, t.input = b → t.pos ≤ b.size → member.FaultsBy bad t)

include kind

/-- The elements of a list are attempted one after the other, and nothing else in it holds a number. -/
theorem faultsBy_list {α : Type} {element : Parser α} {closing : List α → Parser Json} {opening : String}
    (spelled : 0 < (text opening).length) (advances : element.Advances)
    (elements : ∀ t : State, t.input = b → t.pos ≤ b.size → element.FaultsBy bad t)
    (closes : ∀ xs (t : State), t.input = b → (closing xs).FaultsBy bad t) {s : State}
    (here : s.input = b) :
    (((verbatim opening).left d.whiteSpace).right
      ((rounds element (d.comma.right element)).bind closing)).FaultsBy bad s := by
  subst here
  refine .bind (.of_faultless (d.obeys_opening unmarked_compositional _)
    (d.faultless_opening opening _ _ kind)) fun _ mid opened => .bind ?_ fun xs stop _ => closes xs _ rfl
  obtain ⟨_, within⟩ := d.advances_opening spelled s _ mid opened
  refine .rounds _ advances (elements _ rfl within) ?_ fun t reached => ?_
  · exact advances_bind_rest (d.obeys_comma forward_compositional) fun _ => advances
  · refine .bind (.of_faultless (d.obeys_comma unmarked_compositional)
      (d.faultless_comma _ _ (reached.input_eq ▸ kind))) fun _ next parted => ?_
    have later := reached.trans (parted.precedes (d.obeys_comma forward_compositional))
    exact elements _ later.input_eq (later.inside within)

include members

theorem faultsBy_entry {s : State} (here : s.input = b) (inside : s.pos ≤ b.size) :
    (d.entry member).FaultsBy bad s := by
  subst here
  refine .bind (.of_faultless (d.obeys_quotedString d.reports_unmarked)
    (d.faultless_quotedString _ _ kind)) fun _ mid keyed => ?_
  have reached := keyed.precedes (d.obeys_quotedString d.covers_forward.toReports)
  refine .bind (.of_faultless (d.obeys_colon unmarked_compositional)
    (d.faultless_colon _ (s.goto mid) kind)) fun _ stop parted => ?_
  have reached' := reached.trans (parted.precedes (d.obeys_colon forward_compositional))
  exact (members ((s.goto mid).goto stop) rfl (reached'.inside inside)).map _

theorem faultsBy_braced (steady : member.Obeys RunProperty.forward) {s : State} (here : s.input = b) :
    (d.braced member).FaultsBy bad s := by
  refine d.faultsBy_list kind (by decide) (d.advances_entry steady)
    (fun t same within => d.faultsBy_entry kind members same within) (fun xs t same => ?_) here
  exact (FaultsBy.of_faultless (d.obeys_mark unmarked_compositional _)
    (d.faultless_mark "\x7d" _ t (same ▸ kind))).map _

theorem faultsBy_bracketed (advances : member.Advances) {s : State} (here : s.input = b) :
    (d.bracketed member).FaultsBy bad s := by
  refine d.faultsBy_list kind (by decide) advances members (fun xs t same => ?_) here
  exact (FaultsBy.of_faultless (d.obeys_spacedMark unmarked_compositional _)
    (d.faultless_spacedMark "]" _ t (same ▸ kind))).map _

end

theorem faultsBy_container {bad : Nat → Prop} {p : Parser Json} (faults : p.FaultsBy bad s)
    (name : String) : (d.container name p).FaultsBy bad s := by
  refine leaves_marking ?_
  split
  · exact faults.concluded _
  · exact faults

/-! ## Values -/

def OversizedAt (b : Buffer) (pos : Nat) : Prop := BeginsOversized (d.skip (b.rest pos))

section

variable {b : Buffer} {member : Parser Json} (kind : b.kind = .text)
  (members : ∀ t : State, t.input = b → t.pos ≤ b.size → member.FaultsBy (d.OversizedAt b) t)
  (steady : member.Obeys RunProperty.forward) (advances : member.Advances)

include kind members steady advances

/-- A container faults by its members, and any other value by itself. -/
theorem leaves_announced {s : State} (here : s.input = b) (inside : s.pos ≤ b.size) :
    Leaves (fun ms r => r.IsFault ↔ BeginsOversized s.rest ∨ Meets (d.OversizedAt b) ms)
      ((d.announced member (s.upcoming 1)).run s) := by
  have kind' : s.input.kind = .text := here ▸ kind
  have container {p : Parser Json} {c : Code} (head : s.rest.head? = some c) (minus : c ≠ 0x2D)
      (plus : c ≠ 0x2B) (other : CharClass.isDigit c = false) (faults : p.FaultsBy (d.OversizedAt b) s) :
      Leaves (fun ms r => r.IsFault ↔ BeginsOversized s.rest ∨ Meets (d.OversizedAt b) ms) (p.run s) := by
    refine faults.imp fun ms r _ same => same.trans (or_iff_right fun oversized => ?_).symm
    exact d.head_ne_of_oversized kind' oversized minus plus other head
  by_cases brace : s.rest.head? = some 0x7B
  · rw [d.announced_brace kind' brace]
    have braced := d.faultsBy_braced kind members steady here
    exact container brace (by decide) (by decide) (by decide) (d.faultsBy_container braced _)
  by_cases bracket : s.rest.head? = some 0x5B
  · rw [d.announced_bracket kind' bracket]
    have bracketed := d.faultsBy_bracketed kind members advances here
    exact container bracket (by decide) (by decide) (by decide)
      (d.faultsBy_container (bracketed.passing _) _)
  · rw [d.announced_scalar kind' brace bracket]
    have alone := d.scalar_isFault_iff kind' (here ▸ inside)
    intro j
    obtain ⟨ms, added, rfl⟩ := leaves_of_unmarked (d.obeys_scalar d.reports_unmarked) (s := s) j
    refine ⟨[], added, (Reply.isFault_after ..).trans ((alone j).trans ?_)⟩
    simp

theorem faultsBy_valueOver {s : State} (here : s.input = b) (inside : s.pos ≤ b.size) :
    (d.valueOver member).FaultsBy (d.OversizedAt b) s := by
  intro j
  have within : (d.landing s).pos ≤ b.size := here ▸ (d.precedes_landing s).inside (here ▸ inside)
  obtain ⟨ms, added, same⟩ := d.leaves_announced kind members steady advances (s := d.landing s) here within
    (j.record (.marked valueMark s.pos))
  rw [d.rest_landing, State.rest, here] at same
  rw [valueOver_run]
  have first : Meets (d.OversizedAt b) (.value s.pos :: ms) ↔
      BeginsOversized (d.skip (b.rest s.pos)) ∨ Meets (d.OversizedAt b) ms := meets_value
  refine ⟨.value s.pos :: ms, ?_, (Reply.isFault_after ..).trans (same.trans first.symm)⟩
  refine added.trans ?_
  rw [milestones_record, List.append_assoc]
  rfl

end

theorem faultsBy_nested {b : Buffer} (kind : b.kind = .text) (levels : Nat) {s : State} (here : s.input = b)
    (inside : s.pos ≤ b.size) : (d.nested levels).FaultsBy (d.OversizedAt b) s := by
  induction levels generalizing s with
  | zero =>
    have failing : (fail (text "shallower nesting") : Parser Json).FaultsBy (d.OversizedAt b) s :=
      .of_faultless (obeys_fail unmarked_compositional _) (faultless_fail _ _ _ (here ▸ kind))
    exact leaves_marking (failing.imp fun _ _ _ same => same.trans meets_limit.symm)
  | succ levels ih =>
    rw [nested_succ]
    exact d.faultsBy_valueOver kind (fun t same within => ih same within)
      (d.obeys_nested d.covers_forward levels) (d.advances_nested levels) here inside

theorem faultsBy_document (b : Buffer) (kind : b.kind = .text) (levels : Nat) :
    (d.document levels).FaultsBy (d.OversizedAt b) (.start b) := by
  have value : (d.value levels).FaultsBy (d.OversizedAt b) (.start b) :=
    d.faultsBy_reported (d.faultsBy_nested kind levels rfl (Nat.zero_le _)) _
  simp only [document]
  split
  -- What is read behind the value holds no number.
  · refine (value.bind fun _ mid _ => ?_).bind fun _ stop _ => ?_
    · exact (FaultsBy.of_faultless (d.obeys_whiteSpace unmarked_compositional)
        (d.faultless_whiteSpace _ ((State.start b).goto mid) kind)).map _
    · exact (FaultsBy.of_faultless (obeys_eof unmarked_compositional)
        (faultless_eof _ ((State.start b).goto stop) kind)).map _
  · exact value

end Dialect

theorem value_mem_milestones {j : Journal} {pos : Nat} :
    .value pos ∈ milestones j ↔ .marked valueMark pos ∈ j.events := by
  simp only [milestones, List.mem_filterMap]
  constructor
  · rintro ⟨e, member, noted⟩
    cases e with
    | marked tag cursor => grind [milestone?]
    | _ => cases noted
  · exact fun member => ⟨_, member, rfl⟩

/-- Parsing text ends with a fault just if it attempts to read a value where an oversized number stands;
digits in strings, and those behind the place where parsing gives up, make no fault.  The stack is ample
here: where it ends, an attempt may be over before its number is put together. -/
theorem parse_eq_error_iff (d : Dialect) (t : Text) (levels : Nat) (cause : Fault) :
    parse d (.ofText t) levels = .error cause ↔
      cause = .numberTooLarge ∧ ∃ pos, BeginsOversized (d.skip (t.drop pos)) ∧
        .marked valueMark pos ∈ (parseJournaled d (.ofText t) levels).2.events := by
  let done := (d.document levels).parse (.ofText t)
  have result : parse d (.ofText t) levels = done.1.result := rfl
  have journal : (parseJournaled d (.ofText t) levels).2 = done.2 := rfl
  obtain ⟨ms, added, same⟩ := d.faultsBy_document (.ofText t) rfl levels .empty
  have added : milestones done.2 = ms := added
  have met : done.1.IsFault ↔ ∃ pos, BeginsOversized (d.skip (t.drop pos)) ∧
      .marked valueMark pos ∈ done.2.events := by
    refine same.trans (exists_congr fun pos => ?_)
    rw [← value_mem_milestones, added, Dialect.OversizedAt, Buffer.rest, Buffer.codes_ofText]
  rw [journal, ← met]
  constructor
  · intro faulty
    exact ⟨(parse_ofText_error faulty).1, cause, Reply.result_eq_error_iff.1 (result ▸ faulty)⟩
  · rintro ⟨rfl, cause, faulty⟩
    have faulted : parse d (.ofText t) levels = .error cause :=
      result.trans (Reply.result_eq_error_iff.2 faulty)
    rw [faulted, (parse_ofText_error faulted).1]

end Json

end Rewind
