import Rewind.Proofs.Grammar.RunProperty
import Rewind.Proofs.Parser.Laws
import Rewind.Proofs.Parser.Repetition

/-! # Backtracking discipline

A parser that fails reports the cursor it began with, and one that matches leaves the cursor between
its start and the end of the buffer.  Both hold of every expression over every grammar, the rules of
the JSON grammar included: no composition ever reports the cursor of one of its parts, nor moves it
backwards or past the end. -/

namespace Rewind

def Reply.Disciplined {α : Type} (s : State) : Reply α → Prop
  | .matched _ pos _ => s.pos ≤ pos ∧ pos ≤ s.input.size
  | .failed pos _ => pos = s.pos
  | .fault _ => True

theorem Reply.disciplined_shape {α : Type} {s : State} {r : Reply α} :
    r.shape.Disciplined s ↔ r.Disciplined s := by
  cases r <;> rfl

namespace RunProperty

def disciplined : RunProperty := fun s _ r _ => s.pos ≤ s.input.size → r.Disciplined s

/-- A failure of a later part is reported at the common start, and a match of it ends no earlier
than the part before. -/
theorem disciplined_after {s : State} {pos : Nat} {ghost : Option Failure} {r : Reply Unit}
    (forward : s.pos ≤ pos) (rest : r.Disciplined (s.goto pos)) :
    (r.after s.pos ghost).Disciplined s := by
  cases r with
  | matched value last next => exact ⟨Nat.le_trans forward rest.1, rest.2⟩
  | failed last error => exact rfl
  | fault cause => trivial

theorem disciplined_pervasive : disciplined.Pervasive where
  advance forward within inside := ⟨forward, within inside⟩
  missed _ _ _ _ := rfl
  fault _ _ _ := trivial
  sequence := by
    intro s j k r l pos ghost first rest inside
    obtain ⟨forward, within⟩ := first inside
    exact disciplined_after forward (rest within)
  alternative _ second inside := disciplined_after (Nat.le_refl _) (second inside)
  restart _ _ := rfl
  rewind _ inside := ⟨Nat.le_refl _, inside⟩
  before _ given := given
  after _ given := given
  oblivious _ _ given := given
  passing _ _ _ given inside := disciplined_after (Nat.le_refl _) (given inside)

end RunProperty

open RunProperty

theorem Parser.disciplined_label {α : Type} {p : Parser α} (obeys : p.Obeys disciplined)
    (message : Text) : (p.label message).Obeys disciplined := by
  intro s j inside
  simp only [Parser.label]
  cases ran : p.run s j with
  | mk reply k =>
    cases reply with
    | matched value pos ghost => exact obeys.run ran inside
    | failed pos error =>
      have failing := obeys.run ran inside
      -- Reworded or not, the failure is reported where `p` reports it.
      by_cases here : error.pos = s.pos
      · simp only [if_pos here]
        rfl
      · simp only [if_neg here]
        exact failing
    | fault cause => trivial

theorem Expr.keeps_disciplined : Expr.Keeps (fun _ => True) disciplined where
  toUnobservant := disciplined_pervasive.toUnobservant
  failWith _ _ _ _ := rfl
  label _ obeys := Parser.disciplined_label obeys _
  json _ := Json.Rule.obeys_parser (Json.Dialect.covers_of_pervasive disciplined_pervasive _) _ _

/-- Every expression keeps the discipline: a failure is reported at the very start of the run, and a
match ends between the start and the end of the buffer. -/
theorem Expr.run_disciplined (grammar : Grammar) (p : Expr) (s : State) (j : Journal)
    (inside : s.pos ≤ s.input.size) : ((p.parser grammar).run s j).1.Disciplined s := by
  have everywhere : p.Everywhere (fun _ => True) grammar := .of_forall (fun _ => trivial) p
  exact Reply.disciplined_shape.1 (Expr.parser_obeys Expr.keeps_disciplined everywhere s j inside)

/-- A list of values that breaks off inside its second item, from the middle of the buffer. -/
theorem Expr.run_disciplined_in_list :
    2 ≤ (Buffer.ofText (text "x [1, [2,")).size ∧
      ((((Expr.char (text ",")).sepBy (.json .value .lenient 5)).parser []).run
        ⟨.ofText (text "x [1, [2,"), 2⟩ .empty).1.Disciplined ⟨.ofText (text "x [1, [2,"), 2⟩ :=
  ⟨by decide, Expr.run_disciplined [] _ _ _ (by decide)⟩

/-! ## What the laws ask for

From any cursor, also one past the end, no expression goes back, and its failures are reported where it
began.  So the laws of sequencing and of repetition hold of the parsers of all expressions. -/

theorem Parser.forward_label {α : Type} {p : Parser α} (obeys : p.Obeys forward) (message : Text) :
    (p.label message).Obeys forward := by
  intro s j
  simp only [Parser.label]
  cases ran : p.run s j with
  | mk reply k =>
    cases reply with
    | matched value pos ghost => exact obeys.run ran
    | failed pos error =>
      by_cases here : error.pos = s.pos
      · simp only [if_pos here]
        exact ⟨rfl, Nat.le_refl _⟩
      · simp only [if_neg here]
        exact obeys.run ran
    | fault cause => trivial

theorem Expr.keeps_forward : Expr.Keeps (fun _ => True) forward where
  toUnobservant := forward_pervasive.toUnobservant
  failWith _ _ _ := ⟨rfl, Nat.le_refl _⟩
  label _ obeys := Parser.forward_label obeys _
  json _ := Json.Rule.obeys_parser (Json.Dialect.covers_of_pervasive forward_pervasive _) _ _

theorem Expr.obeys_forward (grammar : Grammar) (p : Expr) : (p.parser grammar).Obeys forward :=
  Expr.parser_obeys Expr.keeps_forward ⟨fun _ _ => trivial, fun _ _ _ _ => trivial⟩

theorem Expr.rewinds (grammar : Grammar) (p : Expr) : (p.parser grammar).Rewinds :=
  (p.obeys_forward grammar).rewinds

theorem Expr.onward (grammar : Grammar) (p : Expr) : (p.parser grammar).Onward :=
  (p.obeys_forward grammar).onward

end Rewind
