import Rewind.Proofs.Parser.Lockstep
import Rewind.Proofs.Parser.Tidy

/-! # Runs that keep track

Two parsers keep track of each other at a cursor if they reply alike there, to within a `Tolerance`.  They
may have swallowed different failures on the way, as long as these lie before the cursor: whatever comes
next and fails lies further on, and hides them.  And the first parser may fail where the second does
not, if the tolerance excuses that failure.

Such differences are not kept by all combinators, since a failure that is swallowed only late in a loop
may lie ahead of what comes next.  What a list asks of its elements and of what closes it is said by
`Tolerance.Elements`. -/

namespace Rewind

open Rewind.Run Rewind.Parser RunProperty

/-- How far two runs on one text may differ. -/
structure Tolerance where
  input : Buffer
  kind : input.kind = .text
  /-- The first run may fail with the one, and the second with the other. -/
  like : Failure → Failure → Prop
  /-- The first run may fail like this whatever the second does. -/
  excused : Failure → Prop
  /-- What has been swallowed may differ once the runs are past it. -/
  stale : Prop
  refl : ∀ e, like e e
  pos_eq : ∀ {e e'}, like e e' → e'.pos = e.pos
  merge : ∀ {a a' b b'}, like a a' → like b b' → like (a.merge b) (a'.merge b')
  excused_merge : ∀ {a b : Failure}, excused a → b.pos ≤ a.pos → excused (a.merge b)
  merge_excused : ∀ {a b : Failure}, excused b → a.pos ≤ b.pos → excused (a.merge b)
  stale_of_excused : ∀ {e}, excused e → stale

namespace Tolerance

def exact (b : Buffer) (kind : b.kind = .text) : Tolerance where
  input := b
  kind := kind
  like := Eq
  excused _ := False
  stale := False
  refl := Eq.refl
  pos_eq := @Failure.pos_eq_of_eq
  merge := @Failure.merge_congr
  excused_merge := False.elim
  merge_excused := False.elim
  stale_of_excused := False.elim

def offsets (b : Buffer) (kind : b.kind = .text) : Tolerance where
  input := b
  kind := kind
  like e e' := e'.pos = e.pos
  excused _ := False
  stale := True
  refl _ := rfl
  pos_eq same := same
  merge first second := by rw [Failure.pos_merge, Failure.pos_merge, first, second]
  excused_merge := False.elim
  merge_excused := False.elim
  stale_of_excused := False.elim

/-- Failures are alike only if they are the same, and those that expect `wording` are excused. -/
def excusing (wording : Text) (b : Buffer) (kind : b.kind = .text) : Tolerance where
  input := b
  kind := kind
  like := Eq
  excused e := wording ∈ e.expected
  stale := True
  refl := Eq.refl
  pos_eq := @Failure.pos_eq_of_eq
  merge := @Failure.merge_congr
  excused_merge := Failure.mem_expected_merge_left
  merge_excused := Failure.mem_expected_merge_right
  stale_of_excused _ := trivial

variable {τ : Tolerance}

/-! ## Ghosts -/

/-- What two matches that end at `pos` may have swallowed: the like, not beyond the end, or if the
tolerance says so, anything before the end. -/
def Settles (τ : Tolerance) (pos : Nat) (ghost ghost' : Option Failure) : Prop :=
  (Option.Rel τ.like ghost ghost' ∧ ∀ e ∈ ghost, e.pos ≤ pos) ∨
    (τ.stale ∧ (∀ e ∈ ghost, e.pos < pos) ∧ ∀ e ∈ ghost', e.pos < pos)

namespace Settles

variable {mid stop : Nat} {ghost ghost' next next' : Option Failure} {e e' : Failure}

theorem same (before : ∀ e ∈ ghost, e.pos ≤ stop) : τ.Settles stop ghost ghost := by
  refine .inl ⟨?_, before⟩
  cases ghost with
  | none => exact .none
  | some e => exact .some (τ.refl e)

theorem failure (alike : τ.like e e') (before : e.pos ≤ stop) :
    τ.Settles stop (some e) (some e') := by
  refine .inl ⟨.some alike, ?_⟩
  rintro _ ⟨⟩
  exact before

theorem passed (stale : τ.stale) (before : e.pos < stop) (before' : e'.pos < stop) :
    τ.Settles stop (some e) (some e') := by
  refine .inr ⟨stale, ?_, ?_⟩
  · rintro _ ⟨⟩
    exact before
  · rintro _ ⟨⟩
    exact before'

/-- Neither ghost lies beyond the end. -/
theorem before (settles : τ.Settles mid ghost ghost') :
    (∀ e ∈ ghost, e.pos ≤ mid) ∧ ∀ e ∈ ghost', e.pos ≤ mid := by
  obtain ⟨alike, before⟩ | ⟨_, before, before'⟩ := settles
  · refine ⟨before, ?_⟩
    cases alike with
    | none => exact nofun
    | @some e e' alike =>
      rintro _ ⟨⟩
      exact Nat.le_trans (Nat.le_of_eq (τ.pos_eq alike)) (before e rfl)
  · exact ⟨fun e carried => Nat.le_of_lt (before e carried),
      fun e carried => Nat.le_of_lt (before' e carried)⟩

theorem cover_of_lt (before : ∀ g ∈ ghost, g.pos < e.pos) : Failure.cover ghost e = e := by
  cases ghost with
  | none => rfl
  | some g => exact Failure.merge_of_lt (before g rfl)

/-- A failure that comes next hides what was swallowed, or was swallowed twice. -/
theorem cover_like (settles : τ.Settles mid ghost ghost') (alike : τ.like e e')
    (ahead : mid ≤ e.pos) : τ.like (Failure.cover ghost e) (Failure.cover ghost' e') := by
  obtain ⟨ghosts, _⟩ | ⟨_, before, before'⟩ := settles
  · exact Failure.rel_cover τ.merge ghosts alike
  · have ahead' : mid ≤ e'.pos := τ.pos_eq alike ▸ ahead
    rw [cover_of_lt fun g carried => Nat.lt_of_lt_of_le (before g carried) ahead,
      cover_of_lt fun g carried => Nat.lt_of_lt_of_le (before' g carried) ahead']
    exact alike

theorem cover_excused (settles : τ.Settles mid ghost ghost') (excused : τ.excused e)
    (ahead : mid ≤ e.pos) : τ.excused (Failure.cover ghost e) := by
  cases ghost with
  | none => exact excused
  | some g => exact τ.merge_excused excused (Nat.le_trans (settles.before.1 g rfl) ahead)

/-- What one match swallowed and what the next one did, which does not go back. -/
theorem join (first : τ.Settles mid ghost ghost') (second : τ.Settles stop next next')
    (ahead : ∀ e ∈ next, mid ≤ e.pos) (ahead' : ∀ e ∈ next', mid ≤ e.pos) (reached : mid ≤ stop) :
    τ.Settles stop (Failure.join ghost next) (Failure.join ghost' next') := by
  obtain ⟨nexts, before⟩ | ⟨stale, before, before'⟩ := second
  · cases nexts with
    | none =>
      -- The second match swallowed nothing.
      rw [Failure.join_none, Failure.join_none]
      obtain ⟨ghosts, within⟩ | ⟨stale, within, within'⟩ := first
      · exact .inl ⟨ghosts, fun e carried => Nat.le_trans (within e carried) reached⟩
      · exact .inr ⟨stale, fun e carried => Nat.lt_of_lt_of_le (within e carried) reached,
          fun e carried => Nat.lt_of_lt_of_le (within' e carried) reached⟩
    | @some e e' alike =>
      rw [← Failure.some_cover, ← Failure.some_cover]
      refine .failure (first.cover_like alike (ahead e rfl)) ?_
      have within (g : Failure) (carried : g ∈ ghost) : g.pos ≤ stop :=
        Nat.le_trans (first.before.1 g carried) reached
      exact Failure.forall_pos_join (P := (· ≤ stop)) within before _ (Failure.some_cover ghost e).symm
  · obtain level | further := Nat.eq_or_lt_of_le reached
    · -- Nothing lies at or after the end of the first match and before the same cursor.
      have nothing : next = none := by
        refine Option.eq_none_iff_forall_not_mem.2 fun e carried => ?_
        exact absurd (before e carried) (Nat.not_lt.2 (level ▸ ahead e carried))
      have nothing' : next' = none := by
        refine Option.eq_none_iff_forall_not_mem.2 fun e carried => ?_
        exact absurd (before' e carried) (Nat.not_lt.2 (level ▸ ahead' e carried))
      rw [nothing, nothing', Failure.join_none, Failure.join_none, ← level]
      exact first
    · have within (g : Failure) (carried : g ∈ ghost) : g.pos < stop :=
        Nat.lt_of_le_of_lt (first.before.1 g carried) further
      have within' (g : Failure) (carried : g ∈ ghost') : g.pos < stop :=
        Nat.lt_of_le_of_lt (first.before.2 g carried) further
      exact .inr ⟨stale, Failure.forall_pos_join (P := (· < stop)) within before,
        Failure.forall_pos_join (P := (· < stop)) within' before'⟩

end Settles

end Tolerance

/-! ## Replies -/

namespace Reply

variable {α β : Type} {τ : Tolerance}

/-- The first reply may differ from the second as the tolerance says. -/
inductive Tracks (τ : Tolerance) : Reply α → Reply α → Prop where
  | matched {x pos ghost ghost'} : τ.Settles pos ghost ghost' →
      Tracks τ (.matched x pos ghost) (.matched x pos ghost')
  | failed {start e e'} : τ.like e e' → Tracks τ (.failed start e) (.failed start e')
  | excused {start e r} : τ.excused e → Tracks τ (.failed start e) r
  | fault {cause} : Tracks τ (.fault cause) (.fault cause)

namespace Tracks

variable {r r' : Reply α}

theorem map (tracks : Tracks τ r r') (f : α → β) : Tracks τ (r.map f) (r'.map f) := by
  cases tracks with
  | matched settles => exact .matched settles
  | failed alike => exact .failed alike
  | excused excused => exact .excused excused
  | fault => exact .fault

/-- The replies of later parts, seen from the whole. -/
theorem after {mid start : Nat} {ghost ghost' : Option Failure} (tracks : Tracks τ r r')
    (settles : τ.Settles mid ghost ghost') (steady : r.shape.Forward ⟨τ.input, mid⟩)
    (steady' : r'.shape.Forward ⟨τ.input, mid⟩) :
    Tracks τ (r.after start ghost) (r'.after start ghost') := by
  cases tracks with
  | matched next =>
    exact .matched (settles.join next steady.2 steady'.2 steady.1.pos_le)
  | failed alike => exact .failed (settles.cover_like alike steady.2)
  | excused excused => exact .excused (settles.cover_excused excused steady.2)
  | fault => exact .fault

theorem of_matched {x : α} {pos : Nat} {ghost : Option Failure} (tracks : Tracks τ r r')
    (ran : r = .matched x pos ghost) :
    ∃ ghost', r' = .matched x pos ghost' ∧ τ.Settles pos ghost ghost' := by
  subst ran
  cases tracks with
  | matched settles => exact ⟨_, rfl, settles⟩

theorem of_failed {start : Nat} {e : Failure} (tracks : Tracks τ r r') (ran : r = .failed start e) :
    (∃ e', r' = .failed start e' ∧ τ.like e e') ∨ τ.excused e := by
  subst ran
  cases tracks with
  | failed alike => exact .inl ⟨_, rfl, alike⟩
  | excused excused => exact .inr excused

theorem of_fault {cause : Fault} (tracks : Tracks τ r r') (ran : r = .fault cause) :
    r' = .fault cause := by
  subst ran
  cases tracks with
  | fault => rfl

theorem eq {b : Buffer} {kind : b.kind = .text} (tracks : Tracks (.exact b kind) r r') : r = r' := by
  cases tracks with
  | matched settles =>
    obtain ⟨same, _⟩ | ⟨stale, _⟩ := settles
    · rw [Pairing.eq_of_rel_eq same]
    · exact stale.elim
  | failed same => rw [show _ = _ from same]
  | excused excused => exact excused.elim
  | fault => rfl

end Tracks

end Reply

/-! ## Parsers that swallow nothing -/

namespace Parser

variable {α β : Type} {p : Parser α}

def Ghostless (p : Parser α) : Prop :=
  ∀ s x pos ghost, Gives (p.run s) (.matched x pos ghost) → ghost = none

theorem ghostless_takeWhile (accepts : Code → Bool) : (takeWhile accepts).Ghostless := by
  rintro s x pos ghost ⟨j, k, ran⟩
  cases ran
  rfl

theorem ghostless_literal (expected : Buffer) : (literal expected).Ghostless := by
  rintro s x pos ghost ⟨j, k, ran⟩
  simp only [literal] at ran
  split at ran
  · cases ran
  · split at ran
    · cases ran
      rfl
    · cases ran

theorem ghostless_map (ghostless : p.Ghostless) (f : α → β) : (p.map f).Ghostless := by
  intro s y pos ghost gives
  obtain ⟨x, _, inner⟩ := gives_map gives
  exact ghostless s x pos ghost inner

theorem ghostless_bind {f : α → Parser β} (first : p.Ghostless) (rest : ∀ x, (f x).Ghostless) :
    (p.bind f).Ghostless := by
  intro s y pos ghost gives
  obtain ⟨x, mid, swallowed, next, opening, inner, rfl⟩ := gives_bind gives
  obtain rfl := first s x mid swallowed opening
  obtain rfl := rest x (s.goto mid) y pos next inner
  rfl

theorem ghostless_right {q : Parser β} (first : p.Ghostless) (second : q.Ghostless) :
    (p.right q).Ghostless :=
  ghostless_bind first fun _ => second

theorem ghostless_left {q : Parser β} (first : p.Ghostless) (second : q.Ghostless) :
    (p.left q).Ghostless :=
  ghostless_bind first fun _ => ghostless_map second _

end Parser

/-! ## Parsers that keep track -/

namespace Tolerance

variable {α β : Type} {τ : Tolerance}

/-- At this cursor the first parser replies as the second does, to within the tolerance. -/
def Tracks (τ : Tolerance) (p q : Parser α) (pos : Nat) : Prop :=
  Relates (Reply.Tracks τ) (p.run ⟨τ.input, pos⟩) (q.run ⟨τ.input, pos⟩)

namespace Tracks

variable {p q : Parser α} {pos : Nat}

/-- Parsers with the same replies, whose matches leave no failure ahead. -/
theorem of_reply (same : ∀ j k, (q.run ⟨τ.input, pos⟩ k).1 = (p.run ⟨τ.input, pos⟩ j).1)
    (tidy : p.TidyAt ⟨τ.input, pos⟩) : τ.Tracks p q pos := by
  intro j k
  rw [same j k]
  cases ran : (p.run ⟨τ.input, pos⟩ j).1 with
  | matched x stop ghost =>
    have gives : Gives (p.run ⟨τ.input, pos⟩) (.matched x stop ghost) := ⟨j, _, Prod.ext ran rfl⟩
    exact .matched (.same (tidy x stop ghost gives))
  | failed start e => exact .failed (τ.refl e)
  | fault cause => exact .fault

theorem self (scripted : p.Scripted) (tidy : p.TidyAt ⟨τ.input, pos⟩) : τ.Tracks p p pos :=
  of_reply (fun j k => scripted.oblivious.reply_eq _ j k) tidy

theorem map (tracks : τ.Tracks p q pos) (f : α → β) : τ.Tracks (p.map f) (q.map f) pos :=
  fun j k => (tracks j k).map f

theorem bind {f g : α → Parser β} (first : τ.Tracks p q pos) (steady : ∀ x, (f x).Obeys forward)
    (steady' : ∀ x, (g x).Obeys forward)
    (rest : ∀ x mid, p.Yields ⟨τ.input, pos⟩ x mid → τ.Tracks (f x) (g x) mid) :
    τ.Tracks (p.bind f) (q.bind g) pos := by
  rw [Tracks, run_bind, run_bind]
  refine first.resume fun r r' gives _ tracks => ?_
  cases tracks with
  | matched settles =>
    intro j k
    exact (rest _ _ ⟨_, gives⟩ j k).after settles (steady _ _ j) (steady' _ _ k)
  | failed alike => exact fun _ _ => .failed alike
  | excused excused => exact fun _ _ => .excused excused
  | fault => exact fun _ _ => .fault

theorem right {p' q' : Parser β} (first : τ.Tracks p q pos) (steady : p'.Obeys forward)
    (steady' : q'.Obeys forward)
    (second : ∀ x mid, p.Yields ⟨τ.input, pos⟩ x mid → τ.Tracks p' q' mid) :
    τ.Tracks (p.right p') (q.right q') pos :=
  first.bind (fun _ => steady) (fun _ => steady') second

theorem left {p' : Parser β} (first : τ.Tracks p q pos) (steady : p'.Obeys forward)
    (second : ∀ mid, τ.Tracks p' p' mid) : τ.Tracks (p.left p') (q.left p') pos :=
  first.bind (fun _ => obeys_map steady _) (fun _ => obeys_map steady _) fun _ mid _ =>
    (second mid).map _

theorem marking (tracks : τ.Tracks p q pos) (tag : Text) :
    τ.Tracks (Parser.marking tag p) (Parser.marking tag q) pos :=
  fun _ _ => tracks _ _

theorem concluded (tracks : τ.Tracks p q pos) (label : Text) :
    τ.Tracks (Parser.concluded label p) (Parser.concluded label q) pos :=
  fun j k => tracks j k

theorem traced (tracks : τ.Tracks p q pos) (label : Text) :
    τ.Tracks (Parser.traced label p) (Parser.traced label q) pos :=
  fun _ _ => tracks _ _

theorem passing (tracks : τ.Tracks p q pos) (steady : p.Obeys forward) (steady' : q.Obeys forward)
    (passed : List Text) : τ.Tracks (Parser.passing passed p) (Parser.passing passed q) pos := by
  intro j k
  refine (tracks j k).after (.same ?_) (steady _ j) (steady' _ k)
  rintro _ ⟨⟩
  exact Nat.le_refl pos

/-- A choice between a parser and the same others.  What the parser swallows must not lie ahead, unless
none of the others matches. -/
theorem oneOf_cons {r : Parser α} {rs : List (Parser α)} (head : τ.Tracks p q pos)
    (tail : τ.Tracks (.oneOf (r :: rs)) (.oneOf (r :: rs)) pos)
    (steady : ∀ r' ∈ r :: rs, r'.Obeys forward) (unexcused : ∀ e, ¬ τ.excused e)
    (given : p.RepliesAt (Reply.CarriesOnly (· = pos)) ⟨τ.input, pos⟩ ∨
      ∀ r' ∈ r :: rs, r'.MissesAt ⟨τ.input, pos⟩) :
    τ.Tracks (.oneOf (p :: r :: rs)) (.oneOf (q :: r :: rs)) pos := by
  rw [Tracks, run_oneOf, run_oneOf]
  refine head.resume fun reply reply' gives _ tracks => ?_
  cases tracks with
  | matched settles => exact fun _ _ => .matched settles
  | @failed start e e' alike =>
    simp only [proceed, tryRest_cons]
    have others := obeys_oneOf forward_compositional steady
    obtain inPlace | misses := given
    · have here : e.pos = pos := inPlace.gives gives e rfl
      intro j k
      exact (tail j k).after (.failure alike (Nat.le_of_eq here)) (others _ j) (others _ k)
    · -- All others fail, with a failure that the whole has on both sides.
      obtain ⟨last, _, fails⟩ := MissesAt.oneOf (misses r List.mem_cons_self) fun r' member =>
        misses r' (List.mem_cons_of_mem _ member)
      intro j k
      simp only [Run.after, fails j, fails k]
      exact .failed (τ.merge alike (τ.refl last))
  | excused excused => exact absurd excused (unexcused _)
  | fault => exact fun _ _ => .fault

end Tracks

/-! ## Lists -/

/-- What the elements of a list are to each other, and to what closes the list, at a cursor where the
next element may begin: they keep track; where the list could be closed, neither begins, and does not
look beyond the end of what closes it; and where it could not, that is noticed no later than in the
failure of the element. -/
structure Elements (τ : Tolerance) (closing : Parser β) (p q : Parser α) (pos : Nat) : Prop where
  tracks : τ.Tracks p q pos
  closed : ∀ y stop, closing.Yields ⟨τ.input, pos⟩ y stop → ∀ r ∈ [p, q],
    ∃ e, r.FailsAt ⟨τ.input, pos⟩ e ∧ e.pos < stop
  behind : ∀ start e start' e', Gives (p.run ⟨τ.input, pos⟩) (.failed start e) →
    Gives (closing.run ⟨τ.input, pos⟩) (.failed start' e') → e'.pos ≤ e.pos

structure Closing (closing : Parser β) : Prop where
  oblivious : closing.Oblivious
  faultless : closing.Faultless
  steady : closing.Obeys forward
  ghostless : closing.Ghostless

theorem gives_failed_of_failsAt {p : Parser α} {s : State} {e : Failure} {r : Reply α}
    (fails : p.FailsAt s e) (gives : Gives (p.run s) r) : r = .failed s.pos e := by
  obtain ⟨j, k, ran⟩ := gives
  exact (congrArg Prod.fst ran).symm.trans (fails j)

namespace Elements

variable {γ : Type} {p q : Parser α} {closing : Parser β} {pos start : Nat} {e e' : Failure}
  (elements : τ.Elements closing p q pos) (closes : Closing closing)
  (failed : Gives (p.run ⟨τ.input, pos⟩) (.failed start e)) (make : β → γ)

include elements closes failed

/-- The last failure before the end of a list is alike on both sides. -/
theorem close_like (alike : τ.like e e') :
    Relates (Reply.Tracks τ) (Run.after pos (some e) ((closing.map make).run ⟨τ.input, pos⟩))
      (Run.after pos (some e') ((closing.map make).run ⟨τ.input, pos⟩)) := by
  intro j k
  have same := closes.oblivious.reply_eq ⟨τ.input, pos⟩ j k
  simp only [Run.after, run_map, Run.map, same]
  cases ran : (closing.run ⟨τ.input, pos⟩ j).1 with
  | matched y stop ghost =>
    have gives : Gives (closing.run ⟨τ.input, pos⟩) (.matched y stop ghost) :=
      ⟨j, _, Prod.ext ran rfl⟩
    obtain rfl := closes.ghostless _ y stop ghost gives
    obtain ⟨_, fails, before⟩ := elements.closed y stop ⟨none, gives⟩ p List.mem_cons_self
    cases gives_failed_of_failsAt fails failed
    exact .matched (.failure alike (Nat.le_of_lt before))
  | failed start' last => exact .failed (τ.merge alike (τ.refl last))
  | fault cause => exact .fault

/-- It is excused on the first side.  If the list can be closed, the second side closes it too. -/
theorem close_excused (excused : τ.excused e) {r : Reply α}
    (gives : Gives (q.run ⟨τ.input, pos⟩) r) (matched : α → Nat → Option Failure → Run γ) :
    Relates (Reply.Tracks τ) (Run.after pos (some e) ((closing.map make).run ⟨τ.input, pos⟩))
      (proceed r matched fun _ error =>
        Run.after pos (some error) ((closing.map make).run ⟨τ.input, pos⟩)) := by
  intro j k
  cases ran : (closing.run ⟨τ.input, pos⟩ j).1 with
  | matched y stop ghost =>
    have closed : Gives (closing.run ⟨τ.input, pos⟩) (.matched y stop ghost) :=
      ⟨j, _, Prod.ext ran rfl⟩
    obtain rfl := closes.ghostless _ y stop ghost closed
    -- Where the closing mark stands no element begins, so both rounds have failed before it.
    have neither := elements.closed y stop ⟨none, closed⟩
    obtain ⟨_, fails, before⟩ := neither p List.mem_cons_self
    obtain ⟨_, fails', before'⟩ := neither q (List.mem_cons_of_mem _ List.mem_cons_self)
    cases gives_failed_of_failsAt fails failed
    cases gives_failed_of_failsAt fails' gives
    have same := closes.oblivious.reply_eq ⟨τ.input, pos⟩ j k
    simp only [proceed, Run.after, run_map, Run.map, same, ran]
    exact .matched (.passed (τ.stale_of_excused excused) before before')
  | failed start' last =>
    have behind := elements.behind start e start' last failed ⟨j, _, Prod.ext ran rfl⟩
    simp only [Run.after, run_map, Run.map, ran]
    exact .excused (τ.excused_merge excused behind)
  | fault cause =>
    have never := closes.faultless (fun _ => False) ⟨τ.input, pos⟩ τ.kind j
    exact (never cause (congrArg Reply.shape ran)).elim

end Elements

/-- Lists whose elements keep track. -/
theorem Tracks.list {γ : Type} {p next q next' : Parser α} {closing : Parser β} {make : List α → γ}
    {pos : Nat} (closes : Closing closing) (steady : next.Obeys forward)
    (steady' : next'.Obeys forward) (first : τ.Elements closing p q pos)
    (further : ∀ mid, pos < mid → mid ≤ τ.input.size → τ.Elements closing next next' mid) :
    τ.Tracks ((rounds p next).bind fun xs => closing.map fun _ => make xs)
      ((rounds q next').bind fun xs => closing.map fun _ => make xs) pos := by
  rw [Tracks, run_rounds_bind, run_rounds_bind]
  refine (first.tracks.marking roundMark).resume fun r r' gives gives' tracks => ?_
  have unmarked {p : Parser α} {r : Reply α}
      (gives : Gives ((Parser.marking roundMark p).run ⟨τ.input, pos⟩) r) :
      Gives (p.run ⟨τ.input, pos⟩) r := by
    obtain ⟨j, k, ran⟩ := gives
    exact ⟨_, k, ran⟩
  cases tracks with
  | @matched x mid ghost ghost' settles =>
    simp only [proceed]
    by_cases ahead : pos < mid ∧ mid ≤ τ.input.size
    · -- The cursor has moved, and the rounds behind it keep track by induction.
      have others : τ.Tracks
          ((rounds next next).bind fun xs => closing.map fun _ => make (x :: xs))
          ((rounds next' next').bind fun xs => closing.map fun _ => make (x :: xs)) mid :=
        list closes steady steady' (further mid ahead.1 ahead.2) fun later beyond =>
          further later (Nat.lt_trans ahead.1 beyond)
      have forward {next : Parser α} (steady : next.Obeys forward) :
          ((rounds next next).bind fun xs => closing.map fun _ => make (x :: xs)).Obeys
            RunProperty.forward :=
        obeys_bind forward_compositional
          (obeys_rounds forward_compositional (forward_markblind.ignores _) steady steady)
          fun _ => obeys_map closes.steady _
      rw [if_pos ahead, if_pos ahead]
      exact fun j k => (others j k).after settles (forward steady _ j) (forward steady' _ k)
    · rw [if_neg ahead, if_neg ahead]
      exact fun _ _ => .fault
  | failed alike => exact first.close_like closes (unmarked gives) _ alike
  | excused excused =>
    exact first.close_excused closes (unmarked gives) _ excused (unmarked gives') _
  | fault => exact fun _ _ => .fault
termination_by τ.input.size - pos

end Tolerance

end Rewind
