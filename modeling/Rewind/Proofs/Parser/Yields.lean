import Rewind.Proofs.Failure.Furthest
import Rewind.Proofs.Parser.Run
import Rewind.Proofs.Parser.RunProperty

/-! # What a parser yields

`p.Yields s x pos` says that some run of `p` from `s` matches `x` and ends at `pos`.  A match of a
composition comes from matches of its parts, so each combinator has one inversion here.

The second half is about cursors and offsets.  No run goes back: it ends at or after its start, and
the failure that it carries lies there too.  Some parsers do more and consume something whenever they
match. -/

namespace Rewind

/-- `t` is a cursor that a run may reach from `s`: in the same buffer, not before `s`, and inside the
buffer if `s` is. -/
structure State.Precedes (s t : State) : Prop where
  input_eq : t.input = s.input
  pos_le : s.pos ≤ t.pos
  inside : s.pos ≤ s.input.size → t.pos ≤ s.input.size

namespace State.Precedes

variable {s t u : State}

theorem refl (s : State) : s.Precedes s := ⟨rfl, Nat.le_refl _, id⟩

theorem trans (first : s.Precedes t) (second : t.Precedes u) : s.Precedes u where
  input_eq := second.input_eq.trans first.input_eq
  pos_le := Nat.le_trans first.pos_le second.pos_le
  inside within := first.input_eq ▸ second.inside (first.input_eq ▸ first.inside within)

theorem goto {pos : Nat} (forward : s.pos ≤ pos) (inside : pos ≤ s.input.size) :
    s.Precedes (s.goto pos) :=
  ⟨rfl, forward, fun _ => inside⟩

end State.Precedes

/-! ## Replies of what is left of a run -/

namespace Run

variable {α β : Type}

/-- Some journal leads `run` to the reply `r`. -/
def Gives (run : Run α) (r : Reply α) : Prop := ∃ j k, run j = (r, k)

theorem gives_reply {r r' : Reply α} (gives : Gives (reply r) r') : r' = r := by
  obtain ⟨j, k, ran⟩ := gives
  exact (congrArg Prod.fst ran).symm

theorem gives_map {run : Run α} {f : α → β} {y : β} {pos : Nat} {ghost : Option Failure}
    (gives : Gives (Run.map f run) (.matched y pos ghost)) :
    ∃ x, f x = y ∧ Gives run (.matched x pos ghost) := by
  obtain ⟨j, k, ran⟩ := gives
  cases inner : run j with
  | mk reply l =>
    cases reply with
    | matched x stop next =>
      simp only [Run.map, inner, Reply.map, Prod.mk.injEq, Reply.matched.injEq] at ran
      obtain ⟨⟨rfl, rfl, rfl⟩, rfl⟩ := ran
      exact ⟨x, rfl, j, l, inner⟩
    | failed stop error => simp [Run.map, inner, Reply.map] at ran
    | fault cause => simp [Run.map, inner, Reply.map] at ran

theorem gives_after {run : Run α} {start : Nat} {ghost total : Option Failure} {x : α} {pos : Nat}
    (gives : Gives (after start ghost run) (.matched x pos total)) :
    ∃ next, total = Failure.join ghost next ∧ Gives run (.matched x pos next) := by
  obtain ⟨j, k, ran⟩ := gives
  cases inner : run j with
  | mk reply l =>
    cases reply with
    | matched y stop next =>
      simp only [after, inner, Reply.after, Prod.mk.injEq, Reply.matched.injEq] at ran
      obtain ⟨⟨rfl, rfl, rfl⟩, rfl⟩ := ran
      exact ⟨next, rfl, j, l, inner⟩
    | failed stop error => simp [after, inner, Reply.after] at ran
    | fault cause => simp [after, inner, Reply.after] at ran

theorem gives_resume {first : Run α} {matched : α → Nat → Option Failure → Run β}
    {failed : Nat → Failure → Run β} {y : β} {pos : Nat} {ghost : Option Failure}
    (gives : Gives (resume first matched failed) (.matched y pos ghost)) :
    (∃ x mid swallowed, Gives first (.matched x mid swallowed) ∧
      Gives (matched x mid swallowed) (.matched y pos ghost)) ∨
    (∃ mid error, Gives first (.failed mid error) ∧
      Gives (failed mid error) (.matched y pos ghost)) := by
  obtain ⟨j, k, ran⟩ := gives
  cases opening : first j with
  | mk reply l =>
    cases reply with
    | matched x mid swallowed =>
      rw [resume_matched opening] at ran
      exact .inl ⟨x, mid, swallowed, ⟨j, l, opening⟩, l, k, ran⟩
    | failed mid error =>
      rw [resume_failed opening] at ran
      exact .inr ⟨mid, error, ⟨j, l, opening⟩, l, k, ran⟩
    | fault cause =>
      rw [resume_fault opening] at ran
      nomatch congrArg Prod.fst ran

/-! ### Two runs at once -/

def Relates (R : Reply α → Reply β → Prop) (run : Run α) (run' : Run β) : Prop :=
  ∀ j k, R (run j).1 (run' k).1

/-- It is enough to know how the runs go on after replies that are related. -/
theorem Relates.resume {γ δ : Type} {R : Reply α → Reply β → Prop} {S : Reply γ → Reply δ → Prop}
    {run : Run α} {run' : Run β} {matched : α → Nat → Option Failure → Run γ}
    {failed : Nat → Failure → Run γ} {matched' : β → Nat → Option Failure → Run δ}
    {failed' : Nat → Failure → Run δ} (first : Relates R run run')
    (next : ∀ r r', Gives run r → Gives run' r' → R r r' →
      Relates S (proceed r matched failed) (proceed r' matched' failed')) :
    Relates S (Run.resume run matched failed) (Run.resume run' matched' failed') := by
  intro j k
  rw [resume_eq_proceed, resume_eq_proceed]
  exact next _ _ ⟨j, _, rfl⟩ ⟨k, _, rfl⟩ (first j k) _ _

end Run

namespace Parser

open Run

variable {α β γ : Type} {p q : Parser α} {s : State}

/-- Some run of `p` from `s` matches `x` and ends at `pos`. -/
def Yields (p : Parser α) (s : State) (x : α) (pos : Nat) : Prop :=
  ∃ ghost, Gives (p.run s) (.matched x pos ghost)

/-! ## Matches of compositions -/

theorem yields_pure {x y : α} {pos : Nat} (yields : (Parser.pure x).Yields s y pos) :
    y = x ∧ pos = s.pos := by
  obtain ⟨ghost, gives⟩ := yields
  cases gives_reply (r := .matched x s.pos none) gives
  exact ⟨rfl, rfl⟩

theorem yields_fail {expected : Text} {x : α} {pos : Nat} :
    ¬ (fail expected : Parser α).Yields s x pos := by
  rintro ⟨ghost, j, k, ran⟩
  nomatch congrArg Prod.fst ran

theorem yields_raise {cause : Fault} {x : α} {pos : Nat} :
    ¬ (raise cause : Parser α).Yields s x pos := by
  rintro ⟨ghost, j, k, ran⟩
  nomatch congrArg Prod.fst ran

theorem yields_map {f : α → β} {y : β} {pos : Nat} (yields : (p.map f).Yields s y pos) :
    ∃ x, f x = y ∧ p.Yields s x pos := by
  obtain ⟨ghost, gives⟩ := yields
  obtain ⟨x, same, inner⟩ := gives_map gives
  exact ⟨x, same, ghost, inner⟩

theorem yields_bind {f : α → Parser β} {y : β} {pos : Nat} (yields : (p.bind f).Yields s y pos) :
    ∃ x mid, p.Yields s x mid ∧ (f x).Yields (s.goto mid) y pos := by
  obtain ⟨ghost, gives⟩ := yields
  rw [run_bind] at gives
  obtain ⟨x, mid, swallowed, first, rest⟩ | ⟨mid, error, _, rest⟩ := gives_resume gives
  · obtain ⟨next, _, inner⟩ := gives_after rest
    exact ⟨x, mid, ⟨swallowed, first⟩, next, inner⟩
  · cases gives_reply rest

theorem yields_right {q : Parser β} {y : β} {pos : Nat} (yields : (p.right q).Yields s y pos) :
    ∃ x mid, p.Yields s x mid ∧ q.Yields (s.goto mid) y pos := yields_bind yields

theorem yields_left {q : Parser β} {x : α} {pos : Nat} (yields : (p.left q).Yields s x pos) :
    ∃ y mid, p.Yields s x mid ∧ q.Yields (s.goto mid) y pos := by
  obtain ⟨x', mid, first, rest⟩ := yields_bind yields
  obtain ⟨y, rfl, second⟩ := yields_map rest
  exact ⟨y, mid, first, second⟩

theorem yields_orElse {x : α} {pos : Nat} (yields : (p.orElse q).Yields s x pos) :
    p.Yields s x pos ∨ q.Yields s x pos := by
  obtain ⟨ghost, gives⟩ := yields
  rw [run_orElse] at gives
  obtain ⟨x', mid, swallowed, first, rest⟩ | ⟨mid, error, _, rest⟩ := gives_resume gives
  · cases gives_reply rest
    exact .inl ⟨_, first⟩
  · obtain ⟨next, _, inner⟩ := gives_after rest
    exact .inr ⟨next, inner⟩

theorem yields_optional {x : Option α} {pos : Nat} (yields : p.optional.Yields s x pos) :
    (∃ y, x = some y ∧ p.Yields s y pos) ∨ (x = none ∧ pos = s.pos) := by
  obtain ⟨ghost, gives⟩ := yields
  rw [run_optional] at gives
  obtain ⟨y, mid, swallowed, first, rest⟩ | ⟨mid, error, _, rest⟩ := gives_resume gives
  · cases gives_reply rest
    exact .inl ⟨y, rfl, _, first⟩
  · cases gives_reply rest
    exact .inr ⟨rfl, rfl⟩

theorem tryRest_yields {ps : List (Parser α)} {error : Failure} {x : α} {pos : Nat}
    {ghost : Option Failure} (gives : Gives (tryRest s ps error) (.matched x pos ghost)) :
    ∃ p ∈ ps, p.Yields s x pos := by
  induction ps generalizing error with
  | nil => cases gives_reply (r := .failed s.pos error) gives
  | cons p ps ih =>
    rw [run_tryRest] at gives
    obtain ⟨y, mid, swallowed, first, rest⟩ | ⟨mid, next, _, rest⟩ := gives_resume gives
    · cases gives_reply rest
      exact ⟨p, List.mem_cons_self, _, first⟩
    · obtain ⟨q, member, yields⟩ := ih rest
      exact ⟨q, List.mem_cons_of_mem _ member, yields⟩

theorem yields_oneOf {ps : List (Parser α)} {x : α} {pos : Nat}
    (yields : (oneOf ps).Yields s x pos) : ∃ p ∈ ps, p.Yields s x pos := by
  cases ps with
  | nil => exact absurd yields yields_fail
  | cons p ps =>
    obtain ⟨ghost, gives⟩ := yields
    rw [run_oneOf] at gives
    obtain ⟨y, mid, swallowed, first, rest⟩ | ⟨mid, next, _, rest⟩ := gives_resume gives
    · cases gives_reply rest
      exact ⟨p, List.mem_cons_self, _, first⟩
    · obtain ⟨q, member, yields⟩ := tryRest_yields rest
      exact ⟨q, List.mem_cons_of_mem _ member, yields⟩

theorem yields_passing {passed : List Text} {x : α} {pos : Nat}
    (yields : (passing passed p).Yields s x pos) : p.Yields s x pos := by
  obtain ⟨ghost, gives⟩ := yields
  obtain ⟨next, _, inner⟩ := gives_after gives
  exact ⟨next, inner⟩

theorem yields_marking {tag : Text} {x : α} {pos : Nat} (yields : (marking tag p).Yields s x pos) :
    p.Yields s x pos := by
  obtain ⟨ghost, j, k, ran⟩ := yields
  exact ⟨ghost, _, k, ran⟩

theorem yields_concluded {label : Text} {x : α} {pos : Nat}
    (yields : (concluded label p).Yields s x pos) : p.Yields s x pos := by
  obtain ⟨ghost, j, k, ran⟩ := yields
  have same : (p.run s j).1 = .matched x pos ghost := congrArg Prod.fst ran
  exact ⟨ghost, j, _, Prod.ext same rfl⟩

theorem yields_traced {label : Text} {x : α} {pos : Nat}
    (yields : (traced label p).Yields s x pos) : p.Yields s x pos := by
  obtain ⟨ghost, j, k, ran⟩ := yields
  let opened := j.record (.entered label (glimpse s) (hasMore s) s.pos)
  have same : (p.run s opened).1 = .matched x pos ghost := congrArg Prod.fst ran
  exact ⟨ghost, opened, _, Prod.ext same rfl⟩

end Parser

/-! ## No run goes back -/

/-- The reply of a run from `s` that does not go back: neither the cursor after a match nor the
failure that is carried lies before `s`. -/
def Reply.Forward {α : Type} (s : State) : Reply α → Prop
  | .matched _ pos ghost => s.Precedes (s.goto pos) ∧ ∀ e ∈ ghost, s.pos ≤ e.pos
  | .failed pos error => pos = s.pos ∧ s.pos ≤ error.pos
  | .fault _ => True

/-- Nothing before a run changes its reply exactly if a failure is reported at the start anyway. -/
theorem Reply.after_none_eq_self_iff {α : Type} {start : Nat} {r : Reply α} :
    r.after start none = r ↔ ∀ pos error, r = .failed pos error → pos = start := by
  cases r with
  | matched x pos ghost => simp [after]
  | failed pos error =>
    simp only [after, Failure.cover_none, failed.injEq, and_true]
    constructor
    · rintro rfl other e ⟨rfl, -⟩
      rfl
    · intro reported
      exact (reported pos error ⟨rfl, rfl⟩).symm
  | fault cause => simp [after]

/-- Nothing that comes before a run at its start changes its reply. -/
theorem Reply.after_of_forward {α : Type} {s : State} {r : Reply α} (ahead : r.shape.Forward s) :
    r.after s.pos none = r := by
  apply after_none_eq_self_iff.2
  rintro pos error rfl
  exact ahead.1

namespace RunProperty

def forward : RunProperty := fun s _ r _ => r.Forward s

theorem forward_after {s : State} {mid : Nat} {ghost : Option Failure} {r : Reply Unit}
    (reached : s.Precedes (s.goto mid)) (swallowed : ∀ e ∈ ghost, s.pos ≤ e.pos)
    (rest : r.Forward (s.goto mid)) :
    (r.after s.pos ghost).Forward s := by
  cases r with
  | matched value pos next =>
    refine ⟨reached.trans rest.1, Failure.forall_pos_join (P := (s.pos ≤ ·)) swallowed ?_⟩
    exact fun e member => Nat.le_trans reached.pos_le (rest.2 e member)
  | failed pos error =>
    have later : ∀ e ∈ some error, s.pos ≤ e.pos := by
      rintro e ⟨⟩
      exact Nat.le_trans reached.pos_le rest.2
    refine ⟨rfl, Failure.forall_pos_join (P := (s.pos ≤ ·)) swallowed later _ ?_⟩
    exact (Failure.some_cover ghost error).symm
  | fault cause => trivial

theorem forward_pervasive : forward.Pervasive where
  advance ahead inside := ⟨⟨rfl, ahead, inside⟩, nofun⟩
  missed _ _ _ := ⟨rfl, Nat.le_refl _⟩
  fault _ _ := trivial
  sequence first rest := forward_after first.1 first.2 rest
  alternative := by
    intro s j k r l pos error first second
    refine forward_after (.refl s) ?_ second
    rintro e ⟨⟩
    exact first.2
  restart first := ⟨rfl, first.2⟩
  rewind first := ⟨.refl _, first.2⟩
  before _ given := given
  after _ given := given
  oblivious _ _ given := given
  passing := by
    intro s j r k passed _ _ given
    refine forward_after (.refl s) ?_ given
    rintro e ⟨⟩
    exact Nat.le_refl s.pos

theorem forward_markblind : forward.Markblind := forward_pervasive.toMarkblind

theorem forward_compositional : forward.Compositional := forward_markblind.toCompositional

end RunProperty

namespace Parser

open Run RunProperty

variable {α β : Type} {p q : Parser α} {s : State}

theorem Obeys.gives {Φ : RunProperty} (obeys : p.Obeys Φ) {r : Reply α}
    (gives : Gives (p.run s) r) : ∃ j k, Φ s j r.shape k := by
  obtain ⟨j, k, ran⟩ := gives
  exact ⟨j, k, obeys.run ran⟩

theorem Yields.precedes (obeys : p.Obeys forward) {x : α} {pos : Nat} (yields : p.Yields s x pos) :
    s.Precedes (s.goto pos) := by
  obtain ⟨ghost, gives⟩ := yields
  obtain ⟨j, k, holds⟩ := obeys.gives gives
  exact holds.1

/-- A first part that matches nothing, without a ghost, leaves the run to the rest. -/
theorem bind_run_of_idle {x : α} {f : α → Parser β}
    (idle : ∀ j, p.run s j = (.matched x s.pos none, j)) (rest : (f x).Obeys forward) :
    (p.bind f).run s = (f x).run s := by
  funext j
  rw [run_bind, resume_matched (idle j), State.goto_self]
  -- A failure is reported at the start of the whole, which is where the rest begins.
  exact Prod.ext (Reply.after_of_forward (rest s j)) rfl

/-- Every match consumes something. -/
def Advances (p : Parser α) : Prop :=
  ∀ s x pos, p.Yields s x pos → s.pos < pos ∧ pos ≤ s.input.size

theorem advances_literal {expected : Buffer} (nonempty : 0 < expected.size) :
    (literal expected).Advances := by
  rintro s x pos ⟨ghost, j, k, ran⟩
  simp only [literal] at ran
  split at ran
  · cases ran
  · split at ran
    case isTrue found =>
      cases ran
      obtain ⟨_, isPrefix⟩ := (s.input.startsWith_iff _ _).1 found
      have short := isPrefix.length_le
      rw [Buffer.length_codes, Buffer.length_rest] at short
      omega
    case isFalse => cases ran

theorem advances_satisfy (c : CharClass) : (satisfy c).Advances := by
  rintro s x pos ⟨ghost, j, k, ran⟩
  simp only [satisfy] at ran
  split at ran
  case h_1 => cases ran
  case h_2 unit found =>
    obtain ⟨inside, -⟩ := Array.getElem?_eq_some_iff.1 found
    split at ran
    case isTrue =>
      cases ran
      exact ⟨Nat.lt_succ_self _, inside⟩
    case isFalse => cases ran

theorem advances_map (advances : p.Advances) (f : α → β) : (p.map f).Advances := by
  intro s y pos yields
  obtain ⟨x, _, inner⟩ := yields_map yields
  exact advances s x pos inner

theorem advances_orElse (first : p.Advances) (second : q.Advances) : (p.orElse q).Advances := by
  intro s x pos yields
  obtain inner | inner := yields_orElse yields
  · exact first s x pos inner
  · exact second s x pos inner

theorem advances_oneOf {ps : List (Parser α)} (all : ∀ p ∈ ps, p.Advances) :
    (oneOf ps).Advances := by
  intro s x pos yields
  obtain ⟨p, member, inner⟩ := yields_oneOf yields
  exact all p member s x pos inner

/-- A first part that advances is enough. -/
theorem advances_bind {f : α → Parser β} (first : p.Advances)
    (rest : ∀ x, (f x).Obeys forward) : (p.bind f).Advances := by
  intro s y pos yields
  obtain ⟨x, mid, opening, inner⟩ := yields_bind yields
  obtain ⟨further, inside⟩ := first s x mid opening
  have reached := inner.precedes (rest x)
  exact ⟨Nat.lt_of_lt_of_le further reached.pos_le, reached.inside inside⟩

/-- So is a second part that advances. -/
theorem advances_bind_rest {f : α → Parser β} (first : p.Obeys forward)
    (rest : ∀ x, (f x).Advances) : (p.bind f).Advances := by
  intro s y pos yields
  obtain ⟨x, mid, opening, inner⟩ := yields_bind yields
  have reached := opening.precedes first
  obtain ⟨further, inside⟩ := rest x _ y pos inner
  exact ⟨Nat.lt_of_le_of_lt reached.pos_le further, inside⟩

theorem advances_passing (advances : p.Advances) (passed : List Text) :
    (passing passed p).Advances :=
  fun s x pos yields => advances s x pos (yields_passing yields)

theorem advances_marking (advances : p.Advances) (tag : Text) : (marking tag p).Advances :=
  fun s x pos yields => advances s x pos (yields_marking yields)

theorem advances_concluded (advances : p.Advances) (label : Text) :
    (concluded label p).Advances :=
  fun s x pos yields => advances s x pos (yields_concluded yields)

theorem advances_traced (advances : p.Advances) (label : Text) : (traced label p).Advances :=
  fun s x pos yields => advances s x pos (yields_traced yields)

end Parser

end Rewind
