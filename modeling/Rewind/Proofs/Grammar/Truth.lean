import Rewind.Proofs.Grammar.Discipline
import Rewind.Proofs.Parser.Tidy

/-! # Failures tell the truth

Whatever failure a run carries, in its error or in the ghost of its match, lies between the start of
the run and the end of the buffer, says what would have been accepted there, nothing twice, and shows
what stands there.

Failures are made in many places and show pieces of different sizes.  They are then merged, where the
piece of only one of them is kept, reworded by labels, and carried past matches.  None of this moves a
piece to another offset, so it is enough that each failure is truthful where it is made.  The only
parsers that may break this are those that fail with an account of their own. -/

namespace Rewind

namespace Failure

/-- A failure about `input` that is well formed and true: it lies inside, something is expected,
nothing is expected twice, and what was found stands at its offset, nothing being found at the end
only. -/
structure Truthful (input : Buffer) (e : Failure) : Prop where
  inside : e.pos ≤ input.size
  nonempty : e.expected ≠ []
  distinct : e.expected.Nodup
  actual_eq_none : e.actual = none ↔ e.pos = input.size
  actual_eq_some : ∀ piece, e.actual = some piece →
    piece.kind = input.kind ∧ piece.codes ≠ [] ∧ piece.codes <+: input.rest e.pos

namespace Truthful

variable {input : Buffer}

/-- What is upcoming at an offset is a true account of what stands there. -/
theorem upcoming {pos n : Nat} {expected : List Text} (inside : pos ≤ input.size) (ahead : 0 < n)
    (nonempty : expected ≠ []) (distinct : expected.Nodup) :
    Truthful input ⟨pos, expected, input.upcoming pos n⟩ := by
  have atEnd : (input.rest pos).take n = [] ↔ pos = input.size := by
    rw [List.take_eq_nil_iff, Buffer.rest_eq_nil_iff]
    omega
  refine ⟨inside, nonempty, distinct, ?_, ?_⟩
  · simp only [Buffer.upcoming_eq, atEnd]
    by_cases last : pos = input.size <;> simp [last]
  · intro piece found
    by_cases last : pos = input.size
    · rw [Buffer.upcoming_eq, if_pos (atEnd.2 last)] at found
      cases found
    · simp only [Buffer.upcoming_eq, atEnd, last, if_false, Option.some.injEq] at found
      subst found
      rw [Buffer.codes_slice, Nat.add_sub_cancel_left]
      exact ⟨rfl, fun none => last (atEnd.1 none), List.take_prefix n _⟩

/-- Other words about the same place. -/
theorem reworded {e : Failure} (truthful : Truthful input e) (message : Text) :
    Truthful input ⟨e.pos, [message], e.actual⟩ :=
  ⟨truthful.inside, by simp, by simp, truthful.actual_eq_none, truthful.actual_eq_some⟩

/-- At the same offset the expectations are united, and what was found is that of the first. -/
theorem merge {a b : Failure} (first : Truthful input a) (second : Truthful input b) :
    Truthful input (a.merge b) := by
  unfold Failure.merge
  split
  · exact first
  · split
    · exact second
    · exact ⟨first.inside, union_ne_nil _ first.nonempty, nodup_union _ first.distinct,
        first.actual_eq_none, first.actual_eq_some⟩

end Truthful

end Failure

open Failure

/-! ## Runs -/

namespace RunProperty

/-- Runs do not go back, and those that begin inside the buffer carry truthful failures only. -/
def truthful : RunProperty := fun s j r k =>
  forward s j r k ∧ (s.pos ≤ s.input.size → ∀ e ∈ r.carried, e.Truthful s.input)

theorem truthful_after {input : Buffer} {start : Nat} {ghost : Option Failure} {r : Reply Unit}
    (swallowed : ∀ e ∈ ghost, e.Truthful input) (rest : ∀ e ∈ r.carried, e.Truthful input) :
    ∀ e ∈ (r.after start ghost).carried, e.Truthful input := by
  intro e carried
  exact forall_join .merge swallowed rest e (Reply.mem_join_of_carried_after carried)

theorem truthful_pervasive : truthful.Pervasive where
  advance ahead inside := ⟨forward_pervasive.advance ahead inside, by simp [Reply.carried]⟩
  missed := by
    intro s j expected n looked
    refine ⟨forward_pervasive.missed expected n looked, fun inside => ?_⟩
    rintro e ⟨⟩
    exact .upcoming inside (looked inside) (by simp) (by simp)
  fault cause given := ⟨forward_pervasive.fault cause given.1, by simp [Reply.carried]⟩
  sequence := by
    intro s j k r l pos ghost first rest
    refine ⟨forward_pervasive.sequence first.1 rest.1, fun inside => ?_⟩
    -- The second part begins inside the buffer because the first has matched.
    have reached : s.Precedes (s.goto pos) := first.1.1
    exact truthful_after (first.2 inside) (rest.2 (reached.inside inside))
  alternative := by
    intro s j k r l pos error first second
    refine ⟨forward_pervasive.alternative first.1 second.1, fun inside => ?_⟩
    exact truthful_after (first.2 inside) (second.2 inside)
  restart given := ⟨forward_pervasive.restart given.1, given.2⟩
  rewind given := ⟨forward_pervasive.rewind given.1, given.2⟩
  before quiet given := ⟨forward_pervasive.before quiet given.1, given.2⟩
  after quiet given := ⟨forward_pervasive.after quiet given.1, given.2⟩
  oblivious _ _ given := given
  passing := by
    intro s j r k passed nonempty distinct given
    refine ⟨forward_pervasive.passing passed nonempty distinct given.1, fun inside => ?_⟩
    refine truthful_after ?_ (given.2 inside)
    rintro e ⟨⟩
    exact .upcoming inside Nat.one_pos nonempty distinct

end RunProperty

open RunProperty

/-- A label rewords a failure only where it lies. -/
theorem Parser.truthful_label {α : Type} {p : Parser α} (obeys : p.Obeys truthful)
    (message : Text) : (p.label message).Obeys truthful := by
  have steady : p.Obeys forward := fun s j => (obeys s j).1
  intro s j
  refine ⟨Parser.forward_label steady message s j, fun inside => ?_⟩
  have given := (obeys s j).2 inside
  simp only [Parser.label]
  cases ran : p.run s j with
  | mk reply k =>
    rw [ran] at given
    cases reply with
    | matched value pos ghost => exact given
    | failed pos error =>
      by_cases here : error.pos = s.pos
      · simp only [if_pos here]
        rintro e ⟨⟩
        exact here ▸ (given error rfl).reworded message
      · simpa only [if_neg here] using given
    | fault cause => simp [Reply.carried]

namespace Expr

def isAccount : Expr → Bool
  | .failWith _ _ => true
  | _ => false

theorem keeps_truthful : Keeps (fun q => q.isAccount = false) truthful where
  toUnobservant := truthful_pervasive.toUnobservant
  failWith := nofun
  label _ obeys := Parser.truthful_label obeys _
  json _ := Json.Rule.obeys_parser (Json.Dialect.covers_of_pervasive truthful_pervasive _) _ _

/-- Every failure that a run carries lies between its start and the end of the buffer and is truthful:
something is expected, nothing twice, and what was found is what stands there. -/
theorem carried_truthful {grammar : Grammar} {p : Expr} {s : State} (j : Journal)
    (plain : p.Everywhere (fun q => q.isAccount = false) grammar) (inside : s.pos ≤ s.input.size) :
    ∀ e, ((p.parser grammar).run s j).1.carried = some e → s.pos ≤ e.pos ∧ e.Truthful s.input := by
  intro e carried
  rw [← Reply.carried_shape] at carried
  have notBefore := (p.obeys_forward grammar).repliesAt s j e carried
  exact ⟨notBefore, (parser_obeys keeps_truthful plain s j).2 inside e carried⟩

/-- A list whose second item is no word, nests too deep for a value and is too short to be taken as it
is, from the middle of the buffer. -/
theorem carried_truthful_in_list :
    let items := (Expr.char (text ",")).sepBy (.oneOf [.literal (.ofText (text "ab")),
      .json .value .strict 2, .label (.take 9) (text "nine units")])
    let s : State := ⟨.ofText (text "x ab,[1,[2,"), 2⟩
    items.Everywhere (fun q => q.isAccount = false) [] ∧ s.pos ≤ s.input.size ∧
      ∃ e, ((items.parser []).run s .empty).1.carried = some e ∧ s.pos ≤ e.pos ∧
        e.Truthful s.input := by
  intro items s
  have plain : items.Everywhere (fun q => q.isAccount = false) [] := by
    refine ⟨?_, nofun⟩
    intro q part
    simp only [items, Expr.char] at part
    cases part with
    | self => rfl
    | separator part =>
      cases part
      rfl
    | separated part =>
      cases part with
      | self => rfl
      | oneOf member part =>
        simp only [List.mem_cons, List.not_mem_nil, or_false] at member
        rcases member with rfl | rfl | rfl
        · cases part
          rfl
        · cases part
          rfl
        · cases part with
          | self => rfl
          | label part =>
            cases part
            rfl
  have inside : s.pos ≤ s.input.size := by decide
  have carries : ((items.parser []).run s .empty).1.carried.isSome = true := by decide +kernel
  obtain ⟨e, carried⟩ := Option.isSome_iff_exists.1 carries
  exact ⟨plain, inside, e, carried, carried_truthful .empty plain inside e carried⟩

end Expr

end Rewind
