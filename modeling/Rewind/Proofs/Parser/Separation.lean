import Rewind.Proofs.Parser.Repetition

/-! # Separated items

`Parser.Items` describes a list from the inside: items one after the other, a separator before each.
What `sepBy` matches is an item and then such a list.  It ends right after its last item, although a
separator may have matched behind it: a separator and the item after it are one round, and the failure
of the item gives the separator back. -/

namespace Rewind.Parser

open Run

variable {α β : Type} {separator : Parser β} {p : Parser α}

/-- From `s` with journal `j`, a match of `separator` and then one of `p` for each of the values.  The
items end at the cursors `ends`, and the last leaves the journal `k`. -/
inductive Items (separator : Parser β) (p : Parser α) :
    State → Journal → List α → List Nat → Journal → Prop where
  | nil {s j} : Items separator p s j [] [] j
  | cons {s j y mid before k x pos ghost l xs ends m}
      (between : separator.run s j = (.matched y mid before, k))
      (item : p.run (s.goto mid) k = (.matched x pos ghost, l))
      (rest : Items separator p (s.goto pos) l xs ends m) :
      Items separator p s j (x :: xs) (pos :: ends) m

/-- The items end one after the other. -/
theorem Items.ordered (steady : separator.Onward) (onward : p.Onward) {s : State} {j k : Journal}
    {xs : List α} {ends : List Nat} (items : Items separator p s j xs ends k) :
    (s.pos :: ends).Pairwise (· ≤ ·) := by
  induction items with
  | nil => simp
  | cons between item rest ih =>
    have first := Nat.le_trans (steady.run between).pos_le (onward.run item).pos_le
    simp only [List.pairwise_cons, List.mem_cons, State.pos_goto] at first ih ⊢
    refine ⟨?_, ih⟩
    rintro stop (rfl | member)
    · exact first
    · exact Nat.le_trans first (ih.1 stop member)

/-! ## Rounds of a separator and an item -/

theorem Onward.right (steady : separator.Onward) (onward : p.Onward) :
    (separator.right p).Onward := by
  intro s x pos yields
  obtain ⟨y, mid, between, item⟩ := yields_right yields
  exact (steady s y mid between).trans (onward (s.goto mid) x pos item)

/-- What ends the rounds at the cursor `stop`, the items before having ended at `ends` and left the
journal `j`: either there is no further item, or the last round consumed nothing.  The attempt leaves
the journal `k`. -/
inductive Closes (separator : Parser β) (p : Parser α) (s : State) (stop : Nat) (ends : List Nat)
    (j k : Journal) : Prop where
  | dangling {pos error} (ran : (separator.right p).run (s.goto stop) j = (.failed pos error, k))
  | empty (earlier : List Nat) (last : ends = earlier ++ [stop, stop]) (same : j = k)

/-- The rounds of a repetition are items. -/
theorem Iterates.items {s : State} {j k : Journal} {offsets : List Nat} {r : Reply (List α)}
    (iterates : (separator.right p).Iterates s j offsets r k) :
    ∀ xs stop ghost, r = .matched xs stop ghost → ∃ ends l, Items separator p s j xs ends l ∧
      stop = ends.getLastD s.pos ∧ Closes separator p s stop (s.pos :: ends) l k := by
  induction iterates with
  | fails ran =>
    rintro xs stop ghost ⟨⟩
    exact ⟨[], _, .nil, rfl, .dangling ran⟩
  | @stays s j x ghost k ran =>
    rintro xs stop ghost ⟨⟩
    obtain ⟨y, mid, before, l, next, between, item, -⟩ := bind_run_matched ran
    exact ⟨[s.pos], k, .cons between item .nil, rfl, .empty [] rfl rfl⟩
  | @moves s j x pos ghost k offsets xs stop next l ran further rest ih =>
    rintro _ _ _ ⟨⟩
    obtain ⟨y, mid, before, m, swallowed, between, item, -⟩ := bind_run_matched ran
    obtain ⟨ends, n, items, last, closes⟩ := ih _ _ _ rfl
    refine ⟨pos :: ends, n, .cons between item items, ?_, ?_⟩
    · rw [last, List.getLastD_cons, State.pos_goto]
    · cases closes with
      | dangling ran => exact .dangling ran
      | empty earlier last same => exact .empty (s.pos :: earlier) (congrArg _ last) same
  | faults ran | breaks ran further rest ih => nofun

/-! ## Lists -/

/-- A list is an item and then any number of rounds of a separator and an item, or nothing at all. -/
theorem sepBy_eq (separator : Parser β) (p : Parser α) :
    sepBy separator p =
      (p.bind fun x => (separator.right p).zeroOrMore.map (x :: ·)).orElse (Parser.pure []) := by
  ext s j : 3
  rw [run_sepBy, run_bind_zeroOrMore_orElse]

section

variable {s : State} {j k : Journal}

theorem sepBy_run_failed {pos : Nat} {error : Failure}
    (first : p.run s j = (.failed pos error, k)) :
    (sepBy separator p).run s j = (.matched [] s.pos (some error), k) := by
  rw [run_sepBy, resume_failed first]
  rfl

variable (steady : separator.Onward) (onward : p.Onward) (inside : s.pos ≤ s.input.size)

include steady onward inside

/-- After the first item the list consists of all rounds that the repetition makes. -/
theorem sepBy_run_matched {x : α} {pos : Nat} {swallowed : Option Failure} {l : Journal}
    {reply : Reply (List α)} (first : p.run s j = (.matched x pos swallowed, l))
    (ran : (sepBy separator p).run s j = (reply, k)) (returns : ∀ cause, reply ≠ .fault cause) :
    ∃ xs ends ghost m, reply = .matched (x :: xs) (ends.getLastD pos) ghost ∧
      Items separator p (s.goto pos) l xs ends m ∧
      Closes separator p (s.goto pos) (ends.getLastD pos) (pos :: ends) m k := by
  have within : (s.goto pos).pos ≤ (s.goto pos).input.size := (onward.run first).inside inside
  have both := steady.right onward
  obtain ⟨offsets, r, m, iterates⟩ := exists_iterates both (s.goto pos) within l
  rw [run_sepBy, resume_matched first] at ran
  simp only [after, Run.map, iterates.run_eq both within, Prod.mk.injEq] at ran
  obtain ⟨rfl, rfl⟩ := ran
  cases r with
  | matched xs stop next =>
    obtain ⟨ends, n, items, rfl, closes⟩ := iterates.items xs stop next rfl
    exact ⟨xs, ends, Failure.join swallowed next, n, rfl, items, closes⟩
  | failed stop error => exact absurd rfl (iterates.ne_failed stop error)
  | fault cause => exact absurd rfl (returns cause)

/-- A list keeps every item and no separator, and ends with its last item.  It never fails.  If there
is no first item, it matches nothing and carries the failure.  Otherwise it has the values of the first
item and of those that follow it, each behind a separator, in their order, and ends where the last of
them ends: there a separator and an item fail, or the last round has consumed nothing.  All of its reply,
and all that is logged, is that of an item and then any number of rounds, or nothing at all. -/
theorem sepBy_keeps_items {reply : Reply (List α)} (ran : (sepBy separator p).run s j = (reply, k))
    (returns : ∀ cause, reply ≠ .fault cause) :
    (∃ xs stop ghost, reply = .matched xs stop ghost) ∧
    (∀ pos error l, p.run s j = (.failed pos error, l) →
      reply = .matched [] s.pos (some error) ∧ k = l) ∧
    (∀ x pos swallowed l, p.run s j = (.matched x pos swallowed, l) →
      ∃ xs ends ghost m, reply = .matched (x :: xs) (ends.getLastD pos) ghost ∧
        Items separator p (s.goto pos) l xs ends m ∧
        (s.pos :: pos :: ends).Pairwise (· ≤ ·) ∧
        Closes separator p (s.goto pos) (ends.getLastD pos) (pos :: ends) m k) ∧
    sepBy separator p =
      (p.bind fun x => (separator.right p).zeroOrMore.map (x :: ·)).orElse (Parser.pure []) := by
  refine ⟨?_, ?_, ?_, sepBy_eq separator p⟩
  · cases first : p.run s j with
    | mk r l =>
      cases r with
      | matched x pos swallowed =>
        obtain ⟨xs, ends, ghost, -, rfl, -⟩ :=
          sepBy_run_matched steady onward inside first ran returns
        exact ⟨_, _, _, rfl⟩
      | failed pos error =>
        cases ran.symm.trans (sepBy_run_failed first)
        exact ⟨_, _, _, rfl⟩
      | fault cause =>
        rw [run_sepBy, resume_fault first] at ran
        cases ran
        exact absurd rfl (returns cause)
  · intro pos error l first
    cases ran.symm.trans (sepBy_run_failed first)
    exact ⟨rfl, rfl⟩
  · intro x pos swallowed l first
    obtain ⟨xs, ends, ghost, m, same, items, closes⟩ :=
      sepBy_run_matched steady onward inside first ran returns
    have ordered := items.ordered steady onward
    have ahead := (onward.run first).pos_le
    refine ⟨xs, ends, ghost, m, same, items, ?_, closes⟩
    -- In front stands the first item, which ends no sooner than it begins.
    refine ordered.cons fun stop member => ?_
    cases member with
    | head => exact ahead
    | tail _ later => exact Nat.le_trans ahead (List.rel_of_pairwise_cons ordered later)

end

/-- Two digits and a comma behind them that no digit follows, from the middle of the buffer. -/
theorem sepBy_keeps_items_before_dangling :
    let comma := char (text ",")
    let s : State := ⟨.ofText (text "x1,2,;"), 1⟩
    let reply := Reply.matched ([text "1", text "2"].map Buffer.ofText) 4
      (some ⟨5, [text "digit"], some (.ofText (text ";"))⟩)
    comma.Onward ∧ digit.Onward ∧ s.pos ≤ s.input.size ∧
      ((sepBy comma digit).run s .empty).1 = reply ∧ (∀ cause, reply ≠ .fault cause) ∧
      ∃ xs ends m, .ofText (text "1") :: xs = [text "1", text "2"].map Buffer.ofText ∧
        ends.getLastD 2 = 4 ∧ Items comma digit (s.goto 2) .empty xs ends m ∧
        Closes comma digit (s.goto 2) 4 (2 :: ends) m ((sepBy comma digit).run s .empty).2 := by
  intro comma s reply
  have steps := RunProperty.forward_compositional
  have steady : comma.Onward := (obeys_satisfy steps _).onward
  have onward : digit.Onward := (obeys_satisfy steps _).onward
  have inside : s.pos ≤ s.input.size := by decide
  have ran : ((sepBy comma digit).run s .empty).1 = reply := by decide +kernel
  have returns : ∀ cause, reply ≠ .fault cause := nofun
  have first : digit.run s .empty = (.matched (.ofText (text "1")) 2 none, .empty) := rfl
  obtain ⟨-, -, lists, -⟩ := sepBy_keeps_items steady onward inside (Prod.ext ran rfl) returns
  obtain ⟨xs, ends, ghost, m, same, items, -, closes⟩ := lists _ _ _ _ first
  obtain ⟨values, stop, -⟩ := Reply.matched.inj same
  exact ⟨steady, onward, inside, ran, returns, xs, ends, m, values.symm, stop.symm, items,
    stop ▸ closes⟩

end Rewind.Parser
