import Rewind.Proofs.Parser.Agreement

/-! # Choosing ahead

An ordered choice may be left to the upcoming unit, if only one of the alternatives can match there.
The others need not be run: what they would have added to the failure is either known beforehand, or
lies before the failure of the chosen one and is lost in the merge. -/

namespace Rewind

/-- The failure that a run from `s` carries lies past `s`. -/
def Reply.Beyond {α : Type} (s : State) : Reply α → Prop
  | .matched _ _ ghost => ∃ e, ghost = some e ∧ s.pos < e.pos
  | .failed pos error => pos = s.pos ∧ s.pos < error.pos
  | .fault _ => True

namespace Parser

open Run

variable {α β : Type} {s : State} {p q : Parser α}

/-! ## Parsers that fail at a cursor -/

def FailsAt (p : Parser α) (s : State) (error : Failure) : Prop :=
  ∀ j, (p.run s j).1 = .failed s.pos error

def MissesAt (p : Parser α) (s : State) : Prop := ∃ error, error.pos = s.pos ∧ p.FailsAt s error

theorem FailsAt.run {error : Failure} (fails : p.FailsAt s error) (j : Journal) :
    ∃ k, p.run s j = (.failed s.pos error, k) :=
  ⟨_, Prod.ext (fails j) rfl⟩

theorem FailsAt.missesAt {error : Failure} (fails : p.FailsAt s error) (here : error.pos = s.pos) :
    p.MissesAt s := ⟨error, here, fails⟩

theorem failsAt_literal {expected : Buffer} (kind : s.input.kind = expected.kind)
    (absent : ¬ expected.codes <+: s.rest) :
    (literal expected).FailsAt s ⟨s.pos, [expected.quoted], s.upcoming expected.size⟩ := by
  intro j
  have elsewhere : ¬ s.input.startsWith s.pos expected.codes = true := fun found =>
    absent ((s.input.startsWith_iff _ _).1 found).2
  simp only [literal, if_neg elsewhere, if_neg (not_not_intro kind)]
  rfl

theorem missesAt_satisfy {c : CharClass} (rejected : ∀ x ∈ s.rest.head?, c.accepts x = false) :
    (satisfy c).MissesAt s := by
  have head : s.input.units[s.pos]? = s.rest.head? := s.input.getElem?_units s.pos
  cases found : s.rest.head? with
  | none =>
    refine ⟨⟨s.pos, [c.expected], none⟩, rfl, fun j => ?_⟩
    simp only [satisfy, head, found]
    rfl
  | some x =>
    have unaccepted : ¬ c.accepts x = true := by simp [rejected x found]
    refine ⟨⟨s.pos, [c.expected], some (s.input.slice s.pos (s.pos + 1))⟩, rfl, fun j => ?_⟩
    simp only [satisfy, head, found, if_neg unaccepted]
    rfl

theorem FailsAt.map {error : Failure} (fails : p.FailsAt s error) (f : α → β) :
    (p.map f).FailsAt s error :=
  fun j => congrArg (Reply.map f) (fails j)

theorem FailsAt.bind {error : Failure} (fails : p.FailsAt s error) (f : α → Parser β) :
    (p.bind f).FailsAt s error := by
  intro j
  obtain ⟨k, ran⟩ := fails.run j
  rw [run_bind, resume_failed ran]
  rfl

/-- A first part that matches without a ghost leaves the rest to fail. -/
theorem FailsAt.bind_of_matched {f : α → Parser β} {x : α} {mid : Nat} {error : Failure}
    (ran : ∀ j, p.run s j = (.matched x mid none, j)) (fails : (f x).FailsAt (s.goto mid) error) :
    (p.bind f).FailsAt s error := by
  intro j
  rw [run_bind, resume_matched (ran j)]
  exact congrArg (Reply.after s.pos none) (fails j)

theorem FailsAt.marking {error : Failure} (fails : p.FailsAt s error) (tag : Text) :
    (marking tag p).FailsAt s error :=
  fun _ => fails _

theorem FailsAt.traced {error : Failure} (fails : p.FailsAt s error) (label : Text) :
    (traced label p).FailsAt s error :=
  fun _ => fails _

theorem FailsAt.orElse {error error' : Failure} (first : p.FailsAt s error)
    (second : q.FailsAt s error') : (p.orElse q).FailsAt s (error.merge error') := by
  intro j
  obtain ⟨k, ran⟩ := first.run j
  rw [run_orElse, resume_failed ran]
  exact congrArg (Reply.after s.pos (some error)) (second k)

/-- An optional part that is not there leaves the rest to fail. -/
theorem FailsAt.optional_bind {f : Option α → Parser β} {error error' : Failure}
    (first : p.FailsAt s error) (rest : (f none).FailsAt s error') :
    (p.optional.bind f).FailsAt s (error.merge error') := by
  intro j
  obtain ⟨k, ran⟩ := first.run j
  have skipped : p.optional.run s j = (.matched none s.pos (some error), k) := by
    rw [run_optional, resume_failed ran]
    rfl
  rw [run_bind, resume_matched skipped]
  exact congrArg (Reply.after s.pos (some error)) (rest k)

theorem MissesAt.map (misses : p.MissesAt s) (f : α → β) : (p.map f).MissesAt s := by
  obtain ⟨error, here, fails⟩ := misses
  exact ⟨error, here, fails.map f⟩

theorem MissesAt.bind (misses : p.MissesAt s) (f : α → Parser β) : (p.bind f).MissesAt s := by
  obtain ⟨error, here, fails⟩ := misses
  exact ⟨error, here, fails.bind f⟩

theorem MissesAt.traced (misses : p.MissesAt s) (label : Text) : (traced label p).MissesAt s := by
  obtain ⟨error, here, fails⟩ := misses
  exact ⟨error, here, fails.traced label⟩

theorem MissesAt.passing (misses : p.MissesAt s) (passed : List Text) :
    (passing passed p).MissesAt s := by
  obtain ⟨error, here, fails⟩ := misses
  refine ⟨Failure.merge ⟨s.pos, passed, s.upcoming 1⟩ error, ?_, fun j => ?_⟩
  · rw [Failure.pos_merge, here, Nat.max_self]
  · exact congrArg (Reply.after s.pos (some ⟨s.pos, passed, s.upcoming 1⟩)) (fails j)

theorem MissesAt.orElse (first : p.MissesAt s) (second : q.MissesAt s) :
    (p.orElse q).MissesAt s := by
  obtain ⟨error, here, fails⟩ := first
  obtain ⟨error', here', fails'⟩ := second
  refine ⟨error.merge error', ?_, fails.orElse fails'⟩
  rw [Failure.pos_merge, here, here', Nat.max_self]

theorem MissesAt.optional_bind {f : Option α → Parser β} (first : p.MissesAt s)
    (rest : (f none).MissesAt s) : (p.optional.bind f).MissesAt s := by
  obtain ⟨error, here, fails⟩ := first
  obtain ⟨error', here', fails'⟩ := rest
  refine ⟨error.merge error', ?_, fails.optional_bind fails'⟩
  rw [Failure.pos_merge, here, here', Nat.max_self]

/-! ## Parsers whose failures lie ahead

A repetition ends at the failure of a round, so it never matches without a ghost, and neither does what
begins with one.  After a part that advances, that ghost lies past the start of the whole. -/

def Carries (p : Parser α) : Prop := ∀ s x pos, ¬ Gives (p.run s) (.matched x pos none)

theorem roundsFrom_ne_none (first next : Parser α) (s : State) (values : List α)
    (ghost : Option Failure) (j : Journal) (xs : List α) (pos : Nat) :
    (roundsFrom first next s values ghost j).1 ≠ .matched xs pos none := by
  fun_induction roundsFrom first next s values ghost j with
  | case1 first s values ghost j value stop swallowed k ran ahead ih => exact ih
  | case2 =>
    intro same
    cases same
  | case3 first s values ghost j stop error k ran =>
    intro same
    injection same with _ _ total
    exact absurd total (by cases ghost <;> simp [Failure.join])
  | case4 =>
    intro same
    cases same

theorem carries_rounds (first next : Parser α) : (rounds first next).Carries := by
  rintro s xs pos ⟨j, k, ran⟩
  exact roundsFrom_ne_none first next s [] none j xs pos (congrArg Prod.fst ran)

theorem carries_bind {f : α → Parser β} (first : p.Carries) : (p.bind f).Carries := by
  intro s y pos gives
  rw [run_bind] at gives
  obtain ⟨x, mid, ghost, opening, rest⟩ | ⟨mid, error, _, rest⟩ := gives_resume gives
  · obtain ⟨next, total, _⟩ := gives_after rest
    cases ghost with
    | none => exact first s x mid opening
    | some swallowed => cases next <;> cases total
  · cases gives_reply rest

/-- A first part that advances, and a rest whose matches have ghosts. -/
theorem beyond_bind {f : α → Parser β} {r : Reply β}
    (advances : ∀ r, Gives (p.run s) r → ∃ x mid ghost, r = .matched x mid ghost ∧ s.pos < mid)
    (carries : ∀ x, (f x).Carries) (forward : ∀ x, (f x).Obeys RunProperty.forward)
    (gives : Gives ((p.bind f).run s) r) : r.Beyond s := by
  obtain ⟨j, k, ran⟩ := gives
  obtain ⟨x, mid, ghost, opening, ahead⟩ := advances (p.run s j).1 ⟨j, _, rfl⟩
  rw [run_bind, resume_matched (k := (p.run s j).2) (Prod.ext opening rfl)] at ran
  -- The rest does not go back, so what it carries lies at `mid` or later.
  have heads := forward x (s.goto mid) (p.run s j).2
  have total := congrArg Prod.fst ran
  cases rest : (f x).run (s.goto mid) (p.run s j).2 with
  | mk reply l =>
    rw [rest] at heads
    cases reply with
    | matched y pos next =>
      cases next with
      | none => exact absurd ⟨_, l, rest⟩ (carries x (s.goto mid) y pos)
      | some e =>
        simp only [after, rest, Reply.after] at total
        subst total
        have late : s.pos < e.pos := Nat.lt_of_lt_of_le ahead (heads.2 e rfl)
        exact ⟨_, (Failure.some_cover ghost e).symm, Failure.lt_pos_cover late ghost⟩
    | failed pos error =>
      simp only [after, rest, Reply.after] at total
      subst total
      have late : s.pos < error.pos := Nat.lt_of_lt_of_le ahead heads.2
      exact ⟨rfl, Failure.lt_pos_cover late ghost⟩
    | fault cause =>
      simp only [after, rest, Reply.after] at total
      subst total
      trivial

/-- Alternatives that would have failed before the failure that is carried leave no trace. -/
theorem passing_run_of_beyond {passed : List Text}
    (beyond : ∀ r, Gives (p.run s) r → r.Beyond s) : (passing passed p).run s = p.run s := by
  funext j
  have ahead := beyond (p.run s j).1 ⟨j, _, rfl⟩
  refine Prod.ext ?_ rfl
  show (p.run s j).1.after s.pos (some ⟨s.pos, passed, s.upcoming 1⟩) = (p.run s j).1
  cases replied : (p.run s j).1 with
  | matched x pos ghost =>
    rw [replied] at ahead
    obtain ⟨e, rfl, late⟩ := ahead
    simp only [Reply.after, Failure.join, Failure.merge_of_lt (a := ⟨s.pos, _, _⟩) late]
  | failed pos error =>
    rw [replied] at ahead
    obtain ⟨start, late⟩ := ahead
    simp only [Reply.after, Failure.cover, Failure.merge_of_lt (a := ⟨s.pos, _, _⟩) late, start]
  | fault cause => rfl

/-! ## Choices -/

theorem tryRest_merge (ps : List (Parser α)) (first error : Failure) :
    tryRest s ps (first.merge error) = after s.pos (some first) (tryRest s ps error) := by
  induction ps generalizing error with
  | nil => rfl
  | cons p ps ih =>
    funext j
    rw [run_tryRest, run_tryRest, after]
    cases ran : p.run s j with
    | mk reply k =>
      cases reply with
      | matched x pos ghost =>
        rw [resume_matched ran, resume_matched ran]
        simp only [reply, Reply.after, ← Failure.join_assoc]
        rfl
      | failed pos next =>
        rw [resume_failed ran, resume_failed ran, Failure.merge_assoc, ih]
        rfl
      | fault cause =>
        rw [resume_fault ran, resume_fault ran]
        rfl

/-- The remaining alternatives are a choice of their own, after the failure of the earlier ones. -/
theorem tryRest_cons (p : Parser α) (ps : List (Parser α)) (error : Failure) :
    tryRest s (p :: ps) error = after s.pos (some error) ((oneOf (p :: ps)).run s) := by
  funext j
  rw [run_tryRest, run_oneOf, after]
  cases ran : p.run s j with
  | mk reply k =>
    cases reply with
    | matched x pos ghost =>
      rw [resume_matched ran, resume_matched ran]
      rfl
    | failed pos next =>
      rw [resume_failed ran, resume_failed ran, tryRest_merge]
      rfl
    | fault cause =>
      rw [resume_fault ran, resume_fault ran]
      rfl

theorem MissesAt.oneOf {ps : List (Parser α)} (first : p.MissesAt s)
    (others : ∀ q ∈ ps, q.MissesAt s) : (Parser.oneOf (p :: ps)).MissesAt s := by
  induction ps generalizing p with
  | nil =>
    obtain ⟨error, here, fails⟩ := first
    refine ⟨error, here, fun j => ?_⟩
    obtain ⟨k, ran⟩ := fails.run j
    rw [run_oneOf, resume_failed ran]
    rfl
  | cons q ps ih =>
    obtain ⟨error, here, fails⟩ := first
    obtain ⟨error', here', fails'⟩ :=
      ih (others q List.mem_cons_self) fun r member => others r (List.mem_cons_of_mem _ member)
    refine ⟨error.merge error', ?_, fun j => ?_⟩
    · rw [Failure.pos_merge, here, here', Nat.max_self]
    obtain ⟨k, ran⟩ := fails.run j
    rw [run_oneOf, resume_failed ran, tryRest_cons]
    exact congrArg (Reply.after s.pos (some error)) (fails' k)

/-- Alternatives that fail right at the cursor add nothing to a failure further on. -/
theorem tryRest_of_misses {ps : List (Parser α)} {error : Failure} (beyond : s.pos < error.pos)
    (others : ∀ p ∈ ps, p.MissesAt s) (j : Journal) :
    ∃ k, tryRest s ps error j = (.failed s.pos error, k) := by
  induction ps generalizing j with
  | nil => exact ⟨j, rfl⟩
  | cons p ps ih =>
    -- The merge keeps the failure that lies further on.
    obtain ⟨next, here, fails⟩ := others p List.mem_cons_self
    obtain ⟨k, ran⟩ := fails.run j
    rw [run_tryRest, resume_failed ran, Failure.merge_of_gt (here ▸ beyond)]
    exact ih (fun p member => others p (List.mem_cons_of_mem _ member)) k

variable {ok : Event → Prop} {f : α → β} {q : Parser β} {qs : List (Parser β)} {run : Run α}

/-- An alternative that fails may be left out, if its failure is not. -/
theorem agree_oneOf_of_failsAt {error : Failure} (fails : q.FailsAt s error)
    (agree : Agree ok f run (tryRest s qs error)) : Agree ok f run ((oneOf (q :: qs)).run s) := by
  intro j
  obtain ⟨grows, same⟩ := agree j
  refine ⟨grows, fun admits k => ?_⟩
  obtain ⟨l, ran⟩ := fails.run k
  rw [run_oneOf, resume_failed ran]
  exact same admits l

theorem agree_tryRest_of_failsAt {seed error : Failure} (fails : q.FailsAt s error)
    (agree : Agree ok f run (tryRest s qs (seed.merge error))) :
    Agree ok f run (tryRest s (q :: qs) seed) := by
  intro j
  obtain ⟨grows, same⟩ := agree j
  refine ⟨grows, fun admits k => ?_⟩
  obtain ⟨l, ran⟩ := fails.run k
  rw [run_tryRest, resume_failed ran]
  exact same admits l

/-- A parser that fails only further on stands for a choice whose other alternatives fail at once. -/
theorem AgreeAt.oneOf_head (agree : AgreeAt ok f p q s)
    (beyond : ∀ r, Gives (p.run s) r → r.Beyond s)
    (others : ∀ q ∈ qs, q.MissesAt s) : AgreeAt ok f p (Parser.oneOf (q :: qs)) s := by
  intro j
  obtain ⟨grows, same⟩ := agree j
  refine ⟨grows, fun admits k => ?_⟩
  have replied : q.run s k = ((p.run s j).1.map f, (q.run s k).2) := Prod.ext (same admits k) rfl
  rw [run_oneOf]
  cases ran : p.run s j with
  | mk reply l =>
    cases reply with
    | matched x pos ghost =>
      rw [ran] at replied
      rw [resume_matched replied]
      rfl
    | failed pos error =>
      rw [ran] at replied
      -- Only now are the other alternatives run, and to no effect.
      obtain ⟨rfl, further⟩ := beyond _ ⟨j, l, ran⟩
      obtain ⟨m, rest⟩ := tryRest_of_misses further others (q.run s k).2
      rw [resume_failed replied, rest]
      rfl
    | fault cause =>
      rw [ran] at replied
      rw [resume_fault replied]
      rfl

end Parser

end Rewind
