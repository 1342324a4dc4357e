import Rewind.Proofs.Grammar.Discipline
import Rewind.Proofs.Parser.Agreement

/-! # Counted repetition

`count n p` is `n` occurrences of `p` in a row, or none of them.  `Parser.Consecutive` describes
matches in a row from the inside: each begins where the one before it ended, with the journal that it
left.  A count that matches consists of as many of them as it asks for; one that fails has come to an
occurrence that fails, is reported where the first began, and leaves the journal as that occurrence did.

So a count can be split anywhere: the first occurrences and then the others are one count, also in
what is logged and in the failures that are carried. -/

namespace Rewind

namespace Parser

open Run

variable {α β : Type} {p : Parser α}

/-! ## Failures of counts -/

theorem Rewinds.bind (rewinds : p.Rewinds) (f : α → Parser β) : (p.bind f).Rewinds := by
  intro s j pos error failed
  rw [run_bind] at failed
  cases ran : p.run s j with
  | mk reply k =>
    cases reply with
    | matched x mid ghost =>
      rw [resume_matched ran] at failed
      -- Whatever the second part reports, the sequence reports its own start.
      cases rest : ((f x).run (s.goto mid) k).1 with
      | matched y stop next => simp [after, rest, Reply.after] at failed
      | failed stop next =>
        simp only [after, rest, Reply.after, Reply.failed.injEq] at failed
        exact failed.1.symm
      | fault cause => simp [after, rest, Reply.after] at failed
    | failed mid next =>
      rw [resume_failed ran] at failed
      obtain ⟨rfl, -⟩ := Reply.failed.inj failed
      exact rewinds s j mid next (congrArg Prod.fst ran)
    | fault cause =>
      rw [resume_fault ran] at failed
      cases failed

theorem Rewinds.map (rewinds : p.Rewinds) (f : α → β) : (p.map f).Rewinds := by
  rw [map_eq_bind]
  exact rewinds.bind _

theorem Rewinds.count (rewinds : p.Rewinds) (n : Nat) : (count n p).Rewinds := by
  cases n with
  | zero => exact fun _ _ _ _ failed => nomatch failed
  | succ n => exact rewinds.bind _

/-! ## Splitting a count -/

/-- The first occurrences and then the others are all of them. -/
theorem count_add (rewinds : p.Rewinds) (m n : Nat) :
    count (m + n) p = (count m p).bind fun xs => (count n p).map (xs ++ ·) := by
  induction m with
  | zero =>
    have others : ((Parser.count n p).map ([] ++ ·)).Rewinds := (rewinds.count n).map _
    rw [Nat.zero_add, Parser.count.eq_1, (pure_bind_eq_iff [] _).2 others]
    ext s j : 3
    exact Prod.ext (Reply.map_id _).symm rfl
  | succ m ih =>
    calc Parser.count (m + 1 + n) p
        = p.bind fun x => (Parser.count (m + n) p).map (x :: ·) := by
          rw [Nat.add_right_comm, Parser.count]
      _ = p.bind fun x => (Parser.count m p).bind fun xs =>
            ((Parser.count n p).map (xs ++ ·)).map (x :: ·) := by
          simp only [ih, map_bind]
      _ = p.bind fun x => (Parser.count m p).bind fun xs =>
            (Parser.count n p).map ((x :: xs) ++ ·) := by
          simp only [map_map, List.cons_append]
      _ = (Parser.count (m + 1) p).bind fun xs => (Parser.count n p).map (xs ++ ·) := by
          simp only [Parser.count, bind_assoc, bind_map]

/-! ## Occurrences -/

/-- Matches of `p` in a row, the first at `s` with journal `j` and each other where the one before it
ended.  They match the values `xs`, end at the cursors `ends`, carry `ghost` among them, and leave the
journal `k`. -/
inductive Consecutive (p : Parser α) :
    State → Journal → List α → List Nat → Option Failure → Journal → Prop where
  | nil {s j} : Consecutive p s j [] [] none j
  | cons {s j x pos ghost k xs ends next l} (ran : p.run s j = (.matched x pos ghost, k))
      (rest : Consecutive p (s.goto pos) k xs ends next l) :
      Consecutive p s j (x :: xs) (pos :: ends) (Failure.join ghost next) l

section

variable {s : State} {j k : Journal} {xs : List α} {ends : List Nat} {ghost : Option Failure}

/-- After the first occurrences a count goes on with the others, from where the last of them ended. -/
theorem Consecutive.count_run (rewinds : p.Rewinds) (row : Consecutive p s j xs ends ghost k)
    (n : Nat) :
    (count (xs.length + n) p).run s j = after s.pos ghost
      (Run.map (xs ++ ·) ((count n p).run (s.goto (ends.getLastD s.pos)))) k := by
  induction row with
  | nil =>
    rw [List.length_nil, Nat.zero_add]
    refine Prod.ext ?_ rfl
    simp only [after, Run.map, List.nil_append]
    rw [show (fun xs : List α => xs) = id from rfl, Reply.map_id]
    exact (Reply.after_none_eq_self_iff.2 (rewinds.count n _ _)).symm
  | @cons s j x pos ghost k xs ends next l ran rest ih =>
    rw [List.length_cons, Nat.add_right_comm, Parser.count, run_bind, resume_matched ran,
      List.getLastD_cons]
    refine Prod.ext ?_ ?_
    · simp only [after, run_map, Run.map, ih, State.pos_goto, State.goto_goto]
      rw [Reply.map_after, Reply.after_after, Reply.map_map]
      rfl
    · simp only [after, run_map, Run.map, ih, State.goto_goto]
      rfl

/-- Any number of occurrences: either all of them match in a row, or one of them fails or ends the run. -/
theorem exists_consecutive (p : Parser α) (n : Nat) (s : State) (j : Journal) :
    ∃ xs ends ghost k, Consecutive p s j xs ends ghost k ∧
      (xs.length = n ∨ xs.length < n ∧
        ((∃ pos error l, p.run (s.goto (ends.getLastD s.pos)) k = (.failed pos error, l)) ∨
          ∃ cause l, p.run (s.goto (ends.getLastD s.pos)) k = (.fault cause, l))) := by
  induction n generalizing s j with
  | zero => exact ⟨[], [], none, j, .nil, .inl rfl⟩
  | succ n ih =>
    cases ran : p.run s j with
    | mk reply k =>
      cases reply with
      | matched x pos ghost =>
        obtain ⟨xs, ends, next, l, row, whole⟩ := ih (s.goto pos) k
        refine ⟨x :: xs, pos :: ends, _, l, .cons ran row, ?_⟩
        rw [List.getLastD_cons, List.length_cons]
        exact whole.imp (congrArg Nat.succ) fun ⟨fewer, stops⟩ => ⟨Nat.succ_lt_succ fewer, stops⟩
      | failed pos error =>
        exact ⟨[], [], none, j, .nil, .inr ⟨Nat.succ_pos n, .inl ⟨pos, error, k, ran⟩⟩⟩
      | fault cause => exact ⟨[], [], none, j, .nil, .inr ⟨Nat.succ_pos n, .inr ⟨cause, k, ran⟩⟩⟩

namespace Consecutive

variable (rewinds : p.Rewinds) (row : Consecutive p s j xs ends ghost k) {n : Nat} {l : Journal}

include rewinds row

theorem count_run_all : (count xs.length p).run s j = (.matched xs (ends.getLastD s.pos) ghost, k) := by
  have ran := row.count_run rewinds 0
  simpa [Parser.count, after, Run.map, Parser.pure, Reply.map, Reply.after] using ran

/-- The first occurrence that fails is the last that is attempted. -/
theorem count_run_failed (fewer : xs.length < n) {pos : Nat} {error : Failure}
    (ran : p.run (s.goto (ends.getLastD s.pos)) k = (.failed pos error, l)) :
    (count n p).run s j = (.failed s.pos (Failure.cover ghost error), l) := by
  obtain ⟨more, rfl⟩ := Nat.exists_eq_add_of_lt fewer
  rw [Nat.add_assoc, row.count_run rewinds, after, Run.map, Parser.count, run_bind, resume_failed ran]
  rfl

theorem count_run_fault (fewer : xs.length < n) {cause : Fault}
    (ran : p.run (s.goto (ends.getLastD s.pos)) k = (.fault cause, l)) :
    (count n p).run s j = (.fault cause, l) := by
  obtain ⟨more, rfl⟩ := Nat.exists_eq_add_of_lt fewer
  rw [Nat.add_assoc, row.count_run rewinds, after, Run.map, Parser.count, run_bind, resume_fault ran]
  rfl

end Consecutive

end

section

variable (rewinds : p.Rewinds) {n : Nat} {s : State} {j k : Journal}

include rewinds

/-- A count matches exactly if all occurrences match in a row. -/
theorem count_run_matched_iff {xs : List α} {stop : Nat} {ghost : Option Failure} :
    (count n p).run s j = (.matched xs stop ghost, k) ↔
      ∃ ends, Consecutive p s j xs ends ghost k ∧ xs.length = n ∧ stop = ends.getLastD s.pos := by
  constructor
  · intro matched
    obtain ⟨ys, ends, next, l, row, rfl | ⟨fewer, ⟨pos, error, m, ran⟩ | ⟨cause, m, ran⟩⟩⟩ :=
      exists_consecutive p n s j
    · cases matched.symm.trans (row.count_run_all rewinds)
      exact ⟨ends, row, rfl, rfl⟩
    · nomatch matched.symm.trans (row.count_run_failed rewinds fewer ran)
    · nomatch matched.symm.trans (row.count_run_fault rewinds fewer ran)
  · rintro ⟨ends, row, rfl, rfl⟩
    exact row.count_run_all rewinds

/-- A count fails exactly if, some occurrences having matched in a row, the next one fails. -/
theorem count_run_failed_iff {start : Nat} {e : Failure} :
    (count n p).run s j = (.failed start e, k) ↔ start = s.pos ∧
      ∃ xs ends ghost l pos error, Consecutive p s j xs ends ghost l ∧ xs.length < n ∧
        p.run (s.goto (ends.getLastD s.pos)) l = (.failed pos error, k) ∧
        e = Failure.cover ghost error := by
  constructor
  · intro failed
    obtain ⟨xs, ends, ghost, l, row, rfl | ⟨fewer, ⟨pos, error, m, ran⟩ | ⟨cause, m, ran⟩⟩⟩ :=
      exists_consecutive p n s j
    · nomatch failed.symm.trans (row.count_run_all rewinds)
    · cases failed.symm.trans (row.count_run_failed rewinds fewer ran)
      exact ⟨rfl, xs, ends, ghost, l, pos, error, row, fewer, ran, rfl⟩
    · nomatch failed.symm.trans (row.count_run_fault rewinds fewer ran)
  · rintro ⟨rfl, xs, ends, ghost, l, pos, error, row, fewer, ran, rfl⟩
    exact row.count_run_failed rewinds fewer ran

end

end Parser

/-! ## Counts in expressions -/

namespace Expr

def appendValue : Value → Value → Value
  | .list xs, .list ys => .list (xs ++ ys)
  | _, other => other

theorem denote_count (refs : Text → Parser Value) (n : Nat) (p : Expr) :
    (count n p).denote refs = (Parser.count n (p.denote refs)).map .list := by
  induction n with
  | zero => rfl
  | succ n ih =>
    simp only [count, denote_bind, denote_map, ih, Parser.count, Parser.map_bind, Parser.map_map]
    rfl

/-- An expression is counted in parts as the parser that it stands for. -/
theorem denote_count_add {refs : Text → Parser Value} {p : Expr} (rewinds : (p.denote refs).Rewinds)
    (m n : Nat) :
    (count (m + n) p).denote refs =
      ((count m p).bind fun xs => (count n p).map (appendValue xs)).denote refs := by
  simp only [denote_bind, denote_map, denote_count, Parser.count_add rewinds, Parser.map_bind,
    Parser.bind_map, Parser.map_map]
  rfl

theorem parser_count_add (grammar : Grammar) (p : Expr) (m n : Nat) :
    (count (m + n) p).parser grammar =
      ((count m p).bind fun xs => (count n p).map (appendValue xs)).parser grammar := by
  ext s j : 3
  have covers := keeps_forward.covers
  have steady := covers.resolve (fun rule (_ : rule ∈ grammar) _ _ => trivial) (referenceLimit grammar s)
  have rewinds := (covers.denote steady p fun _ _ => trivial).rewinds
  simp only [parser, denote_count_add rewinds]

end Expr

/-! ## The whole -/

/-- Counting is additive and all or nothing.  The first `m` occurrences and then the other `n` are
`m + n` occurrences, for the reply and for all that is logged.  A count that matches has as many values
as it asks for, each matched where the one before it ended.  A count fails exactly if one of its
occurrences does: the failure is reported where the first occurrence began, and the journal is the one
that the failed occurrence left, so that nothing is attempted behind it.  What is asked of the parser
every expression has, and expressions are counted in parts in the same way. -/
theorem Parser.count_splits {α : Type} {p : Parser α} (rewinds : p.Rewinds) (m n : Nat) :
    Parser.count (m + n) p =
      ((Parser.count m p).bind fun xs => (Parser.count n p).map (xs ++ ·)) ∧
    (∀ s j k xs stop ghost, (Parser.count (m + n) p).run s j = (.matched xs stop ghost, k) ↔
      ∃ ends, Consecutive p s j xs ends ghost k ∧ xs.length = m + n ∧ stop = ends.getLastD s.pos) ∧
    (∀ s j k start e, (Parser.count (m + n) p).run s j = (.failed start e, k) ↔ start = s.pos ∧
      ∃ xs ends ghost l pos error, Consecutive p s j xs ends ghost l ∧ xs.length < m + n ∧
        p.run (s.goto (ends.getLastD s.pos)) l = (.failed pos error, k) ∧
        e = Failure.cover ghost error) ∧
    ∀ (grammar : Grammar) (q : Expr), (q.parser grammar).Rewinds ∧
      (Expr.count (m + n) q).parser grammar =
        ((Expr.count m q).bind fun xs => (Expr.count n q).map (Expr.appendValue xs)).parser grammar :=
  ⟨count_add rewinds m n, fun _ _ _ _ _ _ => count_run_matched_iff rewinds,
    fun _ _ _ _ _ => count_run_failed_iff rewinds,
    fun grammar q => ⟨q.rewinds grammar, Expr.parser_count_add grammar q m n⟩⟩

/-- Five digits in two parts, where there are only four. -/
theorem Parser.count_splits_of_digits :
    let s : State := ⟨.ofText (text "x1234y"), 1⟩
    let e : Failure := ⟨5, [text "digit"], some (.ofText (text "y"))⟩
    digit.Rewinds ∧
      Parser.count (2 + 3) digit =
        ((Parser.count 2 digit).bind fun xs => (Parser.count 3 digit).map (xs ++ ·)) ∧
      ((Parser.count (2 + 3) digit).run s .empty).1 = .failed 1 e ∧
      ∃ xs ends ghost l pos error k, Consecutive digit s .empty xs ends ghost l ∧ xs.length < 2 + 3 ∧
        digit.run (s.goto (ends.getLastD 1)) l = (.failed pos error, k) := by
  intro s e
  have rewinds : digit.Rewinds :=
    (obeys_satisfy RunProperty.forward_compositional CharClass.digit).rewinds
  have failed : ((Parser.count (2 + 3) digit).run s .empty).1 = .failed 1 e := by decide +kernel
  obtain ⟨splits, -, failures, -⟩ := count_splits rewinds 2 3
  obtain ⟨-, xs, ends, ghost, l, pos, error, row, fewer, ran, -⟩ :=
    (failures s .empty _ 1 e).1 (Prod.ext failed rfl)
  exact ⟨rewinds, splits, failed, xs, ends, ghost, l, pos, error, _, row, fewer, ran⟩

end Rewind
