import Mathlib.Data.List.Forall2
import Rewind.Proofs.Parser.Script
import Rewind.Proofs.Parser.Yields

/-! # Parsers that agree

`q` agrees with `p` at a cursor when it replies there as `p` does, with a function applied to the value
of a match, whatever the journals of the two say.  Agreement is kept by the combinators, so parsers can be
compared part by part, also where they are put together differently.  A parser that follows a script agrees
with itself.

Some comparisons hold of a run only as long as certain events do not happen in it.  Agreement therefore
speaks only of those runs of `p` that leave nothing in the journal but events that `ok` admits.  As
runs only ever add to the journal, what is admitted in the whole run is admitted in its parts. -/

namespace Rewind

namespace Reply

variable {α β γ : Type}

@[simp] theorem map_matched (f : α → β) (x : α) (pos : Nat) (ghost : Option Failure) :
    (matched x pos ghost).map f = .matched (f x) pos ghost := rfl

@[simp] theorem map_failed (f : α → β) (pos : Nat) (error : Failure) :
    (failed pos error).map f = .failed pos error := rfl

@[simp] theorem map_fault (f : α → β) (cause : Fault) : (fault cause).map f = .fault cause := rfl

@[simp] theorem map_id (r : Reply α) : r.map id = r := by cases r <;> rfl

theorem map_map (f : α → β) (g : β → γ) (r : Reply α) : (r.map f).map g = r.map (g ∘ f) := by
  cases r <;> rfl

end Reply

def Journal.Admits (ok : Event → Prop) (j : Journal) : Prop := ∀ e ∈ j.past, ok e

theorem Journal.Admits.of_suffix {ok : Event → Prop} {j k : Journal} (admits : k.Admits ok)
    (grows : j.past <:+ k.past) : j.Admits ok :=
  fun e member => admits e (grows.subset member)

theorem Journal.past_conclude (j : Journal) (event : Ending → Event) (ending : Option Ending) :
    j.past <:+ (j.conclude event ending).past := by
  cases ending with
  | none => exact List.suffix_refl _
  | some ending => exact List.suffix_cons _ _

theorem Journal.past_perform (j : Journal) (script : Script) : j.past <:+ (j.perform script).past := by
  rw [perform_eq]
  exact List.suffix_append _ _

/-! ## Agreement of what is left of two runs -/

namespace Run

variable {α β γ δ : Type}

/-- `run` adds to the journal, and if it leaves only events that `ok` admits, then `run'` replies as it
does, with `f` applied to the value. -/
def Agree (ok : Event → Prop) (f : α → β) (run : Run α) (run' : Run β) : Prop :=
  ∀ j, j.past <:+ (run j).2.past ∧
    ((run j).2.Admits ok → ∀ k, (run' k).1 = (run j).1.map f)

namespace Agree

variable {ok : Event → Prop} {f : α → β} {g : γ → δ} {run : Run α} {run' : Run β}

theorem reply {r : Reply α} {r' : Reply β} (same : r' = r.map f) :
    Agree ok f (Run.reply r) (Run.reply r') :=
  fun _ => ⟨List.suffix_refl _, fun _ _ => same⟩

theorem after (agree : Agree ok f run run') (start : Nat) (ghost : Option Failure) :
    Agree ok f (Run.after start ghost run) (Run.after start ghost run') := by
  intro j
  obtain ⟨grows, same⟩ := agree j
  refine ⟨grows, fun admits k => ?_⟩
  show (run' k).1.after start ghost = ((run j).1.after start ghost).map f
  rw [same admits k, Reply.map_after]

/-- Functions on the values of both sides, if they amount to the same. -/
theorem map {h : α → γ} {h' : β → δ} (agree : Agree ok f run run')
    (commutes : ∀ x, h' (f x) = g (h x)) : Agree ok g (Run.map h run) (Run.map h' run') := by
  intro j
  obtain ⟨grows, same⟩ := agree j
  refine ⟨grows, fun admits k => ?_⟩
  show (run' k).1.map h' = ((run j).1.map h).map g
  rw [same admits k, Reply.map_map, Reply.map_map]
  exact congrArg (fun f => (run j).1.map f) (funext commutes)

/-- Both sides go on in ways that agree. -/
theorem resume {matched : α → Nat → Option Failure → Run γ}
    {matched' : β → Nat → Option Failure → Run δ} {failed : Nat → Failure → Run γ}
    {failed' : Nat → Failure → Run δ} (first : Agree ok f run run')
    (afterMatch : ∀ x pos ghost, Gives run (.matched x pos ghost) →
      Agree ok g (matched x pos ghost) (matched' (f x) pos ghost))
    (afterFailure : ∀ pos error, Gives run (.failed pos error) →
      Agree ok g (failed pos error) (failed' pos error)) :
    Agree ok g (Run.resume run matched failed) (Run.resume run' matched' failed') := by
  intro j
  obtain ⟨grows, same⟩ := first j
  cases ran : run j with
  | mk reply l =>
    cases reply with
    | matched x pos ghost =>
      rw [ran] at grows same
      obtain ⟨growsNext, sameNext⟩ := afterMatch x pos ghost ⟨j, l, ran⟩ l
      rw [resume_matched ran]
      refine ⟨grows.trans growsNext, fun admits k => ?_⟩
      -- The rest only adds to the journal, so it was admitted when the first part ended.
      have ran' : run' k = (.matched (f x) pos ghost, (run' k).2) :=
        Prod.ext (same (admits.of_suffix growsNext) k) rfl
      rw [resume_matched ran']
      exact sameNext admits _
    | failed pos error =>
      rw [ran] at grows same
      obtain ⟨growsNext, sameNext⟩ := afterFailure pos error ⟨j, l, ran⟩ l
      rw [resume_failed ran]
      refine ⟨grows.trans growsNext, fun admits k => ?_⟩
      have ran' : run' k = (.failed pos error, (run' k).2) :=
        Prod.ext (same (admits.of_suffix growsNext) k) rfl
      rw [resume_failed ran']
      exact sameNext admits _
    | fault cause =>
      rw [ran] at grows same
      rw [resume_fault ran]
      refine ⟨grows, fun admits k => ?_⟩
      have ran' : run' k = (.fault cause, (run' k).2) := Prod.ext (same admits k) rfl
      rw [resume_fault ran']
      rfl

end Agree

end Run

/-! ## Agreement of parsers -/

namespace Parser

open Run

variable {α β γ δ : Type}

/-- `q` replies at `s` as `p` does there, with `f` applied to the value, if the run of `p` leaves only
events that `ok` admits. -/
def AgreeAt (ok : Event → Prop) (f : α → β) (p : Parser α) (q : Parser β) (s : State) : Prop :=
  Agree ok f (p.run s) (q.run s)

def Oblivious (p : Parser α) : Prop := ∀ ok s, AgreeAt ok id p p s

variable {ok : Event → Prop} {f : α → β} {g : γ → δ} {s : State} {p : Parser α} {q : Parser β}
  {p' : Parser γ} {q' : Parser δ}

namespace AgreeAt

/-! ### Compositions -/

theorem map {h : α → γ} {h' : β → δ} (agree : AgreeAt ok f p q s)
    (commutes : ∀ x, h' (f x) = g (h x)) : AgreeAt ok g (p.map h) (q.map h') s :=
  Agree.map agree commutes

theorem bind {next : α → Parser γ} {next' : β → Parser δ} (first : AgreeAt ok f p q s)
    (rest : ∀ x pos, p.Yields s x pos → AgreeAt ok g (next x) (next' (f x)) (s.goto pos)) :
    AgreeAt ok g (p.bind next) (q.bind next') s := by
  rw [AgreeAt, run_bind, run_bind]
  refine Agree.resume first ?_ ?_
  · intro x pos ghost gives
    exact (rest x pos ⟨ghost, gives⟩).after _ _
  · intro pos error _
    exact .reply rfl

theorem right (first : AgreeAt ok f p q s)
    (second : ∀ x pos, p.Yields s x pos → AgreeAt ok g p' q' (s.goto pos)) :
    AgreeAt ok g (p.right p') (q.right q') s :=
  first.bind second

theorem left (first : AgreeAt ok f p q s)
    (second : ∀ x pos, p.Yields s x pos → AgreeAt ok g p' q' (s.goto pos)) :
    AgreeAt ok f (p.left p') (q.left q') s :=
  first.bind fun x pos yields => (second x pos yields).map fun _ => rfl

theorem between {γ' δ' : Type} {h : γ' → δ'} {inner : Parser γ} {inner' : Parser δ}
    {closing : Parser γ'} {closing' : Parser δ'} (opening : AgreeAt ok f p q s)
    (middle : ∀ x pos, p.Yields s x pos → AgreeAt ok g inner inner' (s.goto pos))
    (last : ∀ t, AgreeAt ok h closing closing' t) :
    AgreeAt ok g (Parser.between p closing inner) (Parser.between q closing' inner') s :=
  opening.bind fun x pos yields => (middle x pos yields).bind fun _ _ _ =>
    (last _).map fun _ => rfl

theorem tryRest {ps : List (Parser α)} {qs : List (Parser β)}
    (all : List.Forall₂ (fun p q => AgreeAt ok f p q s) ps qs) (error : Failure) :
    Agree ok f (Parser.tryRest s ps error) (Parser.tryRest s qs error) := by
  induction all generalizing error with
  | nil => exact .reply (r := .failed s.pos error) rfl
  | cons head _ ih =>
    rw [run_tryRest, run_tryRest]
    refine Agree.resume head ?_ ?_
    · intro x pos ghost _
      exact .reply rfl
    · intro pos next _
      exact ih _

theorem oneOf {ps : List (Parser α)} {qs : List (Parser β)} (head : AgreeAt ok f p q s)
    (tail : List.Forall₂ (fun p q => AgreeAt ok f p q s) ps qs) :
    AgreeAt ok f (Parser.oneOf (p :: ps)) (Parser.oneOf (q :: qs)) s := by
  rw [AgreeAt, run_oneOf, run_oneOf]
  refine Agree.resume head ?_ ?_
  · intro x pos ghost _
    exact .reply rfl
  · intro pos error _
    exact tryRest tail error

/-! ### One side only -/

theorem map_left {h : γ → β} {f : α → γ} (agree : AgreeAt ok (h ∘ f) p q s) :
    AgreeAt ok h (p.map f) q s := by
  intro j
  obtain ⟨grows, same⟩ := agree j
  exact ⟨grows, fun admits k => (same admits k).trans (Reply.map_map f h _).symm⟩

theorem map_right {h : β → γ} (agree : AgreeAt ok f p q s) : AgreeAt ok (h ∘ f) p (q.map h) s := by
  intro j
  obtain ⟨grows, same⟩ := agree j
  refine ⟨grows, fun admits k => ?_⟩
  rw [← Reply.map_map, ← same admits k]
  rfl

/-- A first part of `p` that matches nothing, without a ghost. -/
theorem skip_left {x : γ} {next : γ → Parser α}
    (idle : ∀ j, p'.run s j = (.matched x s.pos none, j))
    (steady : (next x).Obeys RunProperty.forward) (agree : AgreeAt ok f (next x) q s) :
    AgreeAt ok f (p'.bind next) q s := by
  rw [AgreeAt, bind_run_of_idle idle steady]
  exact agree

theorem marking_left (agree : AgreeAt ok f p q s) (tag : Text) :
    AgreeAt ok f (marking tag p) q s := by
  intro j
  obtain ⟨grows, same⟩ := agree (j.record (.marked tag s.pos))
  exact ⟨(List.suffix_cons _ _).trans grows, same⟩

theorem marking_right (agree : AgreeAt ok f p q s) (tag : Text) :
    AgreeAt ok f p (marking tag q) s := by
  intro j
  obtain ⟨grows, same⟩ := agree j
  exact ⟨grows, fun admits k => same admits _⟩

theorem concluded_right (agree : AgreeAt ok f p q s) (label : Text) :
    AgreeAt ok f p (concluded label q) s := by
  intro j
  obtain ⟨grows, same⟩ := agree j
  exact ⟨grows, fun admits k => same admits k⟩

theorem concluded_left (agree : AgreeAt ok f p q s) (label : Text) :
    AgreeAt ok f (concluded label p) q s := by
  intro j
  obtain ⟨grows, same⟩ := agree j
  have more := Journal.past_conclude (p.run s j).2 (.concluded label) ((p.run s j).1.ending? s.pos)
  exact ⟨grows.trans more, fun admits => same (admits.of_suffix more)⟩

theorem traced_left (agree : AgreeAt ok f p q s) (label : Text) :
    AgreeAt ok f (traced label p) q s := by
  intro j
  let opened := j.record (.entered label (glimpse s) (hasMore s) s.pos)
  obtain ⟨grows, same⟩ := agree opened
  have more := Journal.past_conclude (p.run s opened).2 (.left label)
    ((p.run s opened).1.ending? s.pos)
  exact ⟨((List.suffix_cons _ _).trans grows).trans more,
    fun admits => same (admits.of_suffix more)⟩

theorem traced_right (agree : AgreeAt ok f p q s) (label : Text) :
    AgreeAt ok f p (traced label q) s := by
  intro j
  obtain ⟨grows, same⟩ := agree j
  exact ⟨grows, fun admits k => same admits _⟩

theorem passing (agree : AgreeAt ok f p q s) (passed : List Text) :
    AgreeAt ok f (Parser.passing passed p) (Parser.passing passed q) s :=
  Agree.after agree _ _

/-! ### Repetitions -/

/-- A loop whose rounds always advance is a repetition. -/
theorem rounds_zeroOrMore {s : State} (advances : p.Advances)
    (round : ∀ t, s.Precedes t → AgreeAt ok f p q t) :
    AgreeAt ok (List.map f) (rounds p p) q.zeroOrMore s := by
  rw [AgreeAt, run_rounds, run_zeroOrMore]
  refine Agree.resume ((round s (.refl s)).marking_left roundMark) ?_ ?_
  · intro x pos ghost gives
    have ahead := advances s x pos (yields_marking ⟨ghost, gives⟩)
    have later : s.Precedes (s.goto pos) := .goto (Nat.le_of_lt ahead.1) ahead.2
    have rest : AgreeAt ok (List.map f) (rounds p p) q.zeroOrMore (s.goto pos) :=
      rounds_zeroOrMore advances fun t reached => round t (later.trans reached)
    simp only [if_pos ahead]
    apply Agree.after
    exact Agree.map rest fun _ => rfl
  · intro pos error _
    exact .reply rfl
termination_by s.input.size - s.pos
decreasing_by
  simp only [State.goto]
  omega

/-- A loop with a separator in front of every round but the first is a separated list. -/
theorem rounds_sepBy {separator : Parser γ} {separator' : Parser δ} (advances : p.Advances)
    (forward : separator.Obeys RunProperty.forward)
    (round : ∀ t, s.Precedes t → AgreeAt ok f p q t)
    (between : ∀ t, s.Precedes t → AgreeAt ok g separator separator' t) :
    AgreeAt ok (List.map f) (rounds p (separator.right p)) (Parser.sepBy separator' q) s := by
  rw [AgreeAt, run_rounds, run_sepBy]
  refine Agree.resume ((round s (.refl s)).marking_left roundMark) ?_ ?_
  · intro x pos ghost gives
    have ahead := advances s x pos (yields_marking ⟨ghost, gives⟩)
    have later : s.Precedes (s.goto pos) := .goto (Nat.le_of_lt ahead.1) ahead.2
    have rest : AgreeAt ok (List.map f) (rounds (separator.right p) (separator.right p))
        (separator'.right q).zeroOrMore (s.goto pos) := by
      -- A later round begins with a separator, which the first one lacks.
      refine rounds_zeroOrMore (advances_bind_rest forward fun _ => advances) ?_
      intro t reached
      have present := later.trans reached
      exact (between t present).right fun y stop yields =>
        round _ (present.trans (yields.precedes forward))
    simp only [if_pos ahead]
    apply Agree.after
    exact Agree.map rest fun _ => rfl
  · intro pos error _
    exact .reply rfl

theorem rounds {s : State} {p next : Parser α} {q next' : Parser β} (first : AgreeAt ok f p q s)
    (further : ∀ t, AgreeAt ok f next next' t) :
    AgreeAt ok (List.map f) (Parser.rounds p next) (Parser.rounds q next') s := by
  rw [AgreeAt, run_rounds, run_rounds]
  refine Agree.resume ((first.marking_left roundMark).marking_right roundMark) ?_ ?_
  · intro x pos ghost _
    by_cases ahead : s.pos < pos ∧ pos ≤ s.input.size
    · have rest : AgreeAt ok (List.map f) (Parser.rounds next next) (Parser.rounds next' next')
          (s.goto pos) := rounds (further _) further
      simp only [if_pos ahead]
      apply Agree.after
      exact Agree.map rest fun _ => rfl
    · simp only [if_neg ahead]
      exact .reply rfl
  · intro pos error _
    exact .reply rfl
termination_by s.input.size - s.pos
decreasing_by
  simp only [State.goto]
  omega

end AgreeAt

/-! ## Parsers that do not look at the journal -/

theorem Oblivious.map_right (oblivious : p.Oblivious) (ok : Event → Prop) (h : α → γ) (s : State) :
    AgreeAt ok h p (p.map h) s :=
  (oblivious ok s).map_right

theorem Oblivious.reply_eq (oblivious : p.Oblivious) (s : State) (j k : Journal) :
    (p.run s k).1 = (p.run s j).1 := by
  have same := (oblivious (fun _ => True) s j).2 (fun _ _ => trivial) k
  rwa [Reply.map_id] at same

/-- Whatever the journal says, the script is performed on it. -/
theorem Scripted.oblivious (scripted : p.Scripted) : p.Oblivious := by
  intro ok s j
  obtain ⟨r, script, same⟩ := scripted s
  rw [same]
  refine ⟨j.past_perform script, fun _ k => ?_⟩
  rw [same, Reply.map_id]

end Parser

end Rewind
