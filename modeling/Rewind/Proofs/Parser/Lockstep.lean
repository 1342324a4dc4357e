import Mathlib.Data.List.Forall2
import Rewind.Proofs.Parser.Agreement

/-! # Runs in step

Two parsers, each on a buffer of its own, are in step if they go the same way from every cursor: both
match and end at the same cursor, or both fail, or both end with the same fault.  Their values may
differ as a relation says, and their failures as a `Pairing` of the buffers says, as long as those lie
at the same offsets.

No combinator looks into a value, nor at more of a failure than its offset.  So all of them keep
parsers in step, and none needs to know why its parts are. -/

namespace Rewind

namespace Failure

variable {like : Failure → Failure → Prop} {ghost ghost' next next' : Option Failure} {e e' : Failure}

theorem pos_eq_of_eq (same : e = e') : e'.pos = e.pos := congrArg Failure.pos same.symm

theorem merge_congr {a a' b b' : Failure} (first : a = a') (second : b = b') :
    a.merge b = a'.merge b' := congrArg₂ Failure.merge first second

/-- Merging ghosts keeps what merging failures keeps. -/
theorem rel_join
    (merge : ∀ {a a' b b'}, like a a' → like b b' → like (Failure.merge a b) (Failure.merge a' b'))
    (first : Option.Rel like ghost ghost') (second : Option.Rel like next next') :
    Option.Rel like (join ghost next) (join ghost' next') := by
  cases first with
  | none =>
    rw [none_join, none_join]
    exact second
  | some alike =>
    cases second with
    | none => exact .some alike
    | some alike' => exact .some (merge alike alike')

theorem rel_cover
    (merge : ∀ {a a' b b'}, like a a' → like b b' → like (Failure.merge a b) (Failure.merge a' b'))
    (first : Option.Rel like ghost ghost') (second : like e e') :
    like (cover ghost e) (cover ghost' e') := by
  cases first with
  | none => exact second
  | some alike => exact merge alike second

end Failure

/-- Two buffers of one size, what the failures in them have in common, and the faults that runs over
them may end with. -/
structure Pairing where
  left : Buffer
  right : Buffer
  like : Failure → Failure → Prop
  faults : Fault → Prop
  size_eq : right.size = left.size
  pos_eq : ∀ {e e'}, like e e' → e'.pos = e.pos
  merge : ∀ {a a' b b'}, like a a' → like b b' → like (a.merge b) (a'.merge b')
  /-- A label has the same wording on both sides. -/
  reword : ∀ {e e'} expected, like e e' → like { e with expected } { e' with expected }
  /-- Both sides have seen as many of the upcoming units. -/
  missed : ∀ pos expected n, like ⟨pos, expected, left.upcoming pos n⟩ ⟨pos, expected, right.upcoming pos n⟩

namespace Pairing

def exact (b : Buffer) : Pairing where
  left := b
  right := b
  like := Eq
  faults _ := True
  size_eq := rfl
  pos_eq := @Failure.pos_eq_of_eq
  merge := @Failure.merge_congr
  reword expected same := congrArg (fun e : Failure => { e with expected }) same
  missed _ _ _ := rfl

theorem eq_of_rel_eq {α : Type} {x y : Option α} (same : Option.Rel Eq x y) : x = y := by
  cases same with
  | none => rfl
  | some same => rw [same]

end Pairing

/-! ## Replies in step -/

namespace Reply

variable {α β γ δ : Type} {π : Pairing} {V : α → β → Prop} {W : γ → δ → Prop}

/-- The replies differ in their values as `V` says, and in their failures as `π` does. -/
inductive InStep (π : Pairing) (V : α → β → Prop) : Reply α → Reply β → Prop where
  | matched {x y pos ghost ghost'} : V x y → Option.Rel π.like ghost ghost' →
      InStep π V (.matched x pos ghost) (.matched y pos ghost')
  | failed {pos e e'} : π.like e e' → InStep π V (.failed pos e) (.failed pos e')
  | fault {cause} : π.faults cause → InStep π V (.fault cause) (.fault cause)

namespace InStep

variable {r : Reply α} {r' : Reply β}

theorem after {ghost ghost' : Option Failure} (step : InStep π V r r')
    (before : Option.Rel π.like ghost ghost') (start : Nat) :
    InStep π V (r.after start ghost) (r'.after start ghost') := by
  cases step with
  | matched same ghosts => exact .matched same (Failure.rel_join π.merge before ghosts)
  | failed like => exact .failed (Failure.rel_cover π.merge before like)
  | fault admitted => exact .fault admitted

theorem map {f : α → γ} {g : β → δ} (step : InStep π V r r')
    (commutes : ∀ x y, V x y → W (f x) (g y)) : InStep π W (r.map f) (r'.map g) := by
  cases step with
  | matched same ghosts => exact .matched (commutes _ _ same) ghosts
  | failed like => exact .failed like
  | fault admitted => exact .fault admitted

theorem imp {V' : α → β → Prop} (step : InStep π V r r') (weaker : ∀ x y, V x y → V' x y) :
    InStep π V' r r' := by
  cases step with
  | matched same ghosts => exact .matched (weaker _ _ same) ghosts
  | failed like => exact .failed like
  | fault admitted => exact .fault admitted

theorem eq {b : Buffer} {r r' : Reply α} (step : InStep (Pairing.exact b) Eq r r') : r = r' := by
  cases step with
  | matched same ghosts => rw [same, Pairing.eq_of_rel_eq ghosts]
  | failed same => rw [show _ = _ from same]
  | fault => rfl

theorem of_eq {b : Buffer} {r r' : Reply α} (same : r = r') : InStep (Pairing.exact b) Eq r r' := by
  subst same
  cases r with
  | matched x pos ghost =>
    refine .matched rfl ?_
    cases ghost with
    | none => exact .none
    | some e => exact .some rfl
  | failed pos error => exact .failed rfl
  | fault cause => exact .fault trivial

end InStep

end Reply

/-! ## Parsers in step -/

namespace Pairing

open Rewind.Run Rewind.Parser

variable {α β γ δ : Type} (π : Pairing)

/-- From every cursor, `p` and `q` reply alike, each in its own buffer. -/
def InStep (V : α → β → Prop) (p : Parser α) (q : Parser β) : Prop :=
  ∀ pos, Relates (Reply.InStep π V) (p.run ⟨π.left, pos⟩) (q.run ⟨π.right, pos⟩)

namespace InStep

variable {π} {V : α → β → Prop} {W : γ → δ → Prop} {p : Parser α} {q : Parser β}
  {p' : Parser γ} {q' : Parser δ}

/-! ### Sequences -/

theorem pure {x : α} {y : β} (same : V x y) : π.InStep V (.pure x) (.pure y) :=
  fun _ _ _ => .matched same .none

theorem raise {cause : Fault} (admitted : π.faults cause) :
    π.InStep V (.raise cause) (.raise cause) :=
  fun _ _ _ => .fault admitted

theorem fail (expected : Text) : π.InStep V (.fail expected) (.fail expected) :=
  fun pos _ _ => .failed (π.missed pos [expected] 1)

theorem map {f : α → γ} {g : β → δ} (step : π.InStep V p q)
    (commutes : ∀ x y, V x y → W (f x) (g y)) : π.InStep W (p.map f) (q.map g) :=
  fun pos j k => (step pos j k).map commutes

theorem imp {V' : α → β → Prop} (step : π.InStep V p q) (weaker : ∀ x y, V x y → V' x y) :
    π.InStep V' p q :=
  fun pos j k => (step pos j k).imp weaker

theorem bind {f : α → Parser γ} {g : β → Parser δ} (first : π.InStep V p q)
    (rest : ∀ x y, V x y → π.InStep W (f x) (g y)) : π.InStep W (p.bind f) (q.bind g) := by
  intro pos
  rw [run_bind, run_bind]
  refine (first pos).resume fun r r' _ _ step => ?_
  cases step with
  | matched same ghosts => exact fun j k => (rest _ _ same _ j k).after ghosts pos
  | failed like => exact fun _ _ => .failed like
  | fault admitted => exact fun _ _ => .fault admitted

theorem right (first : π.InStep V p q) (second : π.InStep W p' q') :
    π.InStep W (p.right p') (q.right q') :=
  first.bind fun _ _ _ => second

theorem left (first : π.InStep V p q) (second : π.InStep W p' q') :
    π.InStep V (p.left p') (q.left q') :=
  first.bind fun _ _ same => second.map fun _ _ _ => same

theorem between {ι κ : Type} {U : ι → κ → Prop} {inner : Parser ι} {inner' : Parser κ}
    (opening : π.InStep V p q) (closing : π.InStep W p' q') (middle : π.InStep U inner inner') :
    π.InStep U (Parser.between p p' inner) (Parser.between q q' inner') :=
  opening.bind fun _ _ _ => middle.bind fun _ _ same => closing.map fun _ _ _ => same

theorem label (step : π.InStep V p q) (message : Text) :
    π.InStep V (p.label message) (q.label message) := by
  intro pos j k
  have replies := step pos j k
  simp only [Parser.label]
  cases ran : p.run ⟨π.left, pos⟩ j with
  | mk r l =>
    cases ran' : q.run ⟨π.right, pos⟩ k with
    | mk r' l' =>
      rw [ran, ran'] at replies
      cases replies with
      | matched same ghosts => exact .matched same ghosts
      | @failed start e e' like =>
        -- Both failures lie where the runs began, or neither does.
        have level := π.pos_eq like
        by_cases here : e.pos = pos
        · simp only [if_pos here, if_pos (level.trans here)]
          have reworded := π.reword [message] like
          rw [level, here] at reworded
          exact .failed reworded
        · have there : e'.pos ≠ pos := fun same => here (level.symm.trans same)
          simp only [if_neg here, if_neg there]
          exact .failed like
      | fault admitted => exact .fault admitted

/-! ### Choices -/

theorem orElse {p' : Parser α} {q' : Parser β} (first : π.InStep V p q)
    (second : π.InStep V p' q') : π.InStep V (p.orElse p') (q.orElse q') := by
  intro pos
  rw [run_orElse, run_orElse]
  refine (first pos).resume fun r r' _ _ step => ?_
  cases step with
  | matched same ghosts => exact fun _ _ => .matched same ghosts
  | failed like => exact fun j k => (second pos j k).after (.some like) pos
  | fault admitted => exact fun _ _ => .fault admitted

theorem optional (step : π.InStep V p q) : π.InStep (Option.Rel V) p.optional q.optional := by
  intro pos
  rw [run_optional, run_optional]
  refine (step pos).resume fun r r' _ _ step => ?_
  cases step with
  | matched same ghosts => exact fun _ _ => .matched (.some same) ghosts
  | failed like => exact fun _ _ => .matched .none (.some like)
  | fault admitted => exact fun _ _ => .fault admitted

theorem tryRest {ps : List (Parser α)} {qs : List (Parser β)}
    (all : List.Forall₂ (π.InStep V) ps qs) {pos : Nat} {e e' : Failure} (like : π.like e e') :
    Relates (Reply.InStep π V) (Parser.tryRest ⟨π.left, pos⟩ ps e)
      (Parser.tryRest ⟨π.right, pos⟩ qs e') := by
  induction all generalizing e e' with
  | nil => exact fun _ _ => .failed like
  | cons head _ ih =>
    rw [run_tryRest, run_tryRest]
    refine (head pos).resume fun r r' _ _ step => ?_
    cases step with
    | matched same ghosts =>
      exact fun _ _ => .matched same (Failure.rel_join π.merge (.some like) ghosts)
    | failed like' => exact ih (π.merge like like')
    | fault admitted => exact fun _ _ => .fault admitted

theorem oneOf {ps : List (Parser α)} {qs : List (Parser β)}
    (all : List.Forall₂ (π.InStep V) ps qs) : π.InStep V (.oneOf ps) (.oneOf qs) := by
  cases all with
  | nil => exact .fail _
  | cons head tail =>
    intro pos
    rw [run_oneOf, run_oneOf]
    refine (head pos).resume fun r r' _ _ step => ?_
    cases step with
    | matched same ghosts => exact fun _ _ => .matched same ghosts
    | failed like => exact tryRest tail like
    | fault admitted => exact fun _ _ => .fault admitted

theorem passing (step : π.InStep V p q) (passed : List Text) :
    π.InStep V (Parser.passing passed p) (Parser.passing passed q) :=
  fun pos j k => (step pos j k).after (.some (π.missed pos passed 1)) pos

/-! ### Repetitions -/

theorem zeroOrMore (step : π.InStep V p q) :
    π.InStep (List.Forall₂ V) p.zeroOrMore q.zeroOrMore := by
  intro pos
  rw [run_zeroOrMore, run_zeroOrMore]
  refine (step pos).resume fun r r' _ _ round => ?_
  cases round with
  | @matched x y mid ghost ghost' same ghosts =>
    simp only [proceed, π.size_eq]
    by_cases further : pos < mid ∧ mid ≤ π.left.size
    · -- The cursor has moved, so the rounds behind it are in step by induction.
      have others := zeroOrMore step mid
      rw [if_pos further, if_pos further]
      exact fun j k => ((others j k).map fun _ _ more => .cons same more).after ghosts pos
    · rw [if_neg further, if_neg further]
      exact fun _ _ => .matched (.cons same .nil) ghosts
  | failed like => exact fun _ _ => .matched .nil (.some like)
  | fault admitted => exact fun _ _ => .fault admitted
termination_by pos => π.left.size - pos

theorem rounds {first next : Parser α} {first' next' : Parser β} (opening : π.InStep V first first')
    (further : π.InStep V next next') (stalls : π.faults .stalled) :
    π.InStep (List.Forall₂ V) (Parser.rounds first next) (Parser.rounds first' next') := by
  intro pos
  rw [run_rounds, run_rounds]
  have round : Relates (Reply.InStep π V) ((Parser.marking roundMark first).run ⟨π.left, pos⟩)
      ((Parser.marking roundMark first').run ⟨π.right, pos⟩) := fun _ _ => opening pos _ _
  refine round.resume fun r r' _ _ round => ?_
  cases round with
  | @matched x y mid ghost ghost' same ghosts =>
    simp only [proceed, π.size_eq]
    by_cases ahead : pos < mid ∧ mid ≤ π.left.size
    · have others := rounds further further stalls mid
      rw [if_pos ahead, if_pos ahead]
      exact fun j k => ((others j k).map fun _ _ more => .cons same more).after ghosts pos
    · rw [if_neg ahead, if_neg ahead]
      exact fun _ _ => .fault stalls
  | failed like => exact fun _ _ => .matched .nil (.some like)
  | fault admitted => exact fun _ _ => .fault admitted
termination_by pos => π.left.size - pos

theorem sepBy (between : π.InStep W p' q') (step : π.InStep V p q) :
    π.InStep (List.Forall₂ V) (Parser.sepBy p' p) (Parser.sepBy q' q) := by
  intro pos
  rw [run_sepBy, run_sepBy]
  refine (step pos).resume fun r r' _ _ round => ?_
  cases round with
  | @matched x y mid ghost ghost' same ghosts =>
    have others := (between.right step).zeroOrMore mid
    exact fun j k => ((others j k).map fun _ _ more => .cons same more).after ghosts pos
  | failed like => exact fun _ _ => .matched .nil (.some like)
  | fault admitted => exact fun _ _ => .fault admitted

/-! ### Tracing

What is added to the journals makes no difference to replies, on either side. -/

theorem marking (step : π.InStep V p q) (tag : Text) :
    π.InStep V (Parser.marking tag p) (Parser.marking tag q) :=
  fun pos _ _ => step pos _ _

theorem concluded_left (step : π.InStep V p q) (title : Text) :
    π.InStep V (Parser.concluded title p) q :=
  fun pos j k => step pos j k

theorem concluded_right (step : π.InStep V p q) (title : Text) :
    π.InStep V p (Parser.concluded title q) :=
  fun pos j k => step pos j k

theorem traced_left (step : π.InStep V p q) (title : Text) : π.InStep V (Parser.traced title p) q :=
  fun pos _ k => step pos _ k

theorem traced_right (step : π.InStep V p q) (title : Text) : π.InStep V p (Parser.traced title q) :=
  fun pos j _ => step pos j _

theorem spied (step : π.InStep V p q) (name : Text) :
    π.InStep V (Parser.spied name p) (Parser.spied name q) :=
  fun pos _ _ => step pos _ _

/-! ### One buffer twice -/

/-- A parser whose replies do not depend on the journal is in step with itself. -/
theorem of_reply {b : Buffer} {p : Parser α} (same : ∀ s j k, (p.run s j).1 = (p.run s k).1) :
    (Pairing.exact b).InStep Eq p p :=
  fun _ j k => .of_eq (same _ j k)

theorem of_scripted {b : Buffer} {p : Parser α} (scripted : p.Scripted) :
    (Pairing.exact b).InStep Eq p p :=
  of_reply fun s j k => scripted.oblivious.reply_eq s k j

end InStep

end Pairing

end Rewind
