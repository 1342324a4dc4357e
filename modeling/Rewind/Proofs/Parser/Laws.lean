import Rewind.Proofs.Parser.Yields

/-! # Laws of sequencing and choice

Two parsers are equal if from every cursor and with every journal they reply the same and leave the
same journal.  So an equation between parsers is about values, cursors, the errors of failures, the
ghosts of matches and everything that is logged, and the laws below may be used to rewrite any part of
a grammar.

Most of them hold of all parsers whatsoever.  The exception is the left identity: a sequence reports
its failures where it began, so putting a part that does nothing in front of a parser changes it unless
the parser does so too. -/

namespace Rewind

namespace Parser

variable {α β γ : Type}

/-- Every failure of `p` is reported at the cursor where the run began. -/
def Rewinds (p : Parser α) : Prop :=
  ∀ s j pos error, (p.run s j).1 = .failed pos error → pos = s.pos

theorem Obeys.rewinds {p : Parser α} (steady : p.Obeys RunProperty.forward) : p.Rewinds := by
  intro s j pos error failed
  have reported := steady s j
  rw [failed] at reported
  exact reported.1

/-! ## Sequencing -/

theorem run_pure_bind (x : α) (f : α → Parser β) (s : State) (j : Journal) :
    ((Parser.pure x).bind f).run s j = (((f x).run s j).1.after s.pos none, ((f x).run s j).2) :=
  rfl

/-- What the left identity takes. -/
theorem pure_bind_eq_iff (x : α) (f : α → Parser β) :
    (Parser.pure x).bind f = f x ↔ (f x).Rewinds := by
  constructor
  · intro same s j
    have replies := congrArg (fun p => (p.run s j).1) same
    exact Reply.after_none_eq_self_iff.1 replies
  · intro rewinds
    ext s j : 3
    rw [run_pure_bind, Reply.after_none_eq_self_iff.2 (rewinds s j)]

theorem bind_pure (m : Parser α) : m.bind Parser.pure = m := by
  ext s j : 3
  simp only [Parser.bind]
  cases m.run s j with
  | mk reply k => cases reply <;> simp [Parser.pure, Reply.after]

/-- Mapping is a sequence whose second part only computes. -/
theorem map_eq_bind (m : Parser α) (h : α → β) : m.map h = m.bind fun x => Parser.pure (h x) :=
  (bind_pure (m.map h)).symm.trans (bind_map m h Parser.pure)

theorem failWith_bind (expected : Text) (actual : Option Buffer) (f : α → Parser β) :
    (failWith expected actual).bind f = failWith expected actual := rfl

theorem fail_bind (expected : Text) (f : α → Parser β) :
    (fail expected).bind f = fail expected := rfl

theorem between_eq (opening : Parser α) (closing : Parser β) (inner : Parser γ) :
    between opening closing inner = (opening.right inner).left closing :=
  (bind_assoc opening (fun _ => inner) fun x => closing.map fun _ => x).symm

/-! ## Choice -/

theorem orElse_assoc (p q r : Parser α) : (p.orElse q).orElse r = p.orElse (q.orElse r) := by
  ext s j : 3
  simp only [Parser.orElse]
  cases p.run s j with
  | mk reply k =>
    cases reply with
    | matched x pos ghost => rfl
    | failed pos error =>
      -- The first failure is merged in front of whatever the other two come to.
      cases ran : q.run s k with
      | mk reply l =>
        cases reply with
        | matched x stop ghost => simp [ran, Reply.after]
        | failed stop next =>
          simp only [ran, Reply.after_after]
          rfl
        | fault cause => simp [ran, Reply.after]
    | fault cause => rfl

theorem optional_eq (p : Parser α) : p.optional = (p.map some).orElse (Parser.pure none) := by
  ext s j : 3
  simp only [optional, Parser.orElse, Parser.map]
  cases p.run s j with
  | mk reply k => cases reply <;> simp [Reply.map, Parser.pure, Reply.after]

/-! ## The laws -/

/-- Parsers whose failures are reported where they began form a monad under sequencing, in which
mapping is what it should be and failing ends a sequence; ordered choice is associative; and the
derived combinators are what they are said to be. -/
theorem sequencing_and_choice (x : α) (m p q r : Parser α) {f : α → Parser β} (g : β → Parser γ)
    (h : α → β) (expected : Text) (actual : Option Buffer) (opening : Parser β)
    (closing : Parser γ) (rewinds : ∀ x, (f x).Rewinds) :
    (Parser.pure x).bind f = f x ∧
    m.bind Parser.pure = m ∧
    (m.bind f).bind g = m.bind (fun x => (f x).bind g) ∧
    m.map h = m.bind (fun x => Parser.pure (h x)) ∧
    (fail expected).bind f = fail expected ∧
    (failWith expected actual).bind f = failWith expected actual ∧
    (p.orElse q).orElse r = p.orElse (q.orElse r) ∧
    between opening closing m = (opening.right m).left closing ∧
    p.optional = (p.map some).orElse (Parser.pure none) :=
  ⟨(pure_bind_eq_iff x f).2 (rewinds x), bind_pure m, bind_assoc m f g, map_eq_bind m h,
    fail_bind expected f, failWith_bind expected actual f, orElse_assoc p q r,
    between_eq opening closing m, optional_eq p⟩

/-- A run of digits, and then the same run of digits twice over. -/
theorem sequencing_and_choice_of_literals :
    let digits := takeWhile CharClass.isDigit
    (∀ piece, (literal piece).Rewinds) ∧
      (Parser.pure (.ofText (text "12"))).bind literal = literal (.ofText (text "12")) ∧
      (digits.bind literal).bind literal = digits.bind fun piece => (literal piece).bind literal := by
  intro digits
  have rewinds : ∀ piece, (literal piece).Rewinds := fun piece =>
    (obeys_literal RunProperty.forward_compositional piece).rewinds
  obtain ⟨identity, -, associative, -⟩ := sequencing_and_choice (.ofText (text "12")) digits digits
    digits digits literal id (text "digit") none digits digits rewinds
  exact ⟨rewinds, identity, associative⟩

end Parser

end Rewind
