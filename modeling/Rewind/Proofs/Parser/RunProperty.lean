import Rewind.Parser.Repetition
import Rewind.Parser.Tracing

/-! # Properties of runs

Every composition of this library is made of the same few steps: a part matches and the next one
begins where it ended, a part fails and another one is tried in its place, a repetition stops at the
failure of a round.  A property of single runs that these steps keep is therefore kept by all
combinators, whatever they are applied to.

`RunProperty.Compositional` lists the steps, and `Parser.Obeys` says that a property holds of every
run of a parser.  The lemmas below carry a compositional property from the parts of a parser to the
whole, one for each primitive and each combinator. -/

namespace Rewind

/-! ## Replies without their values -/

namespace Reply

variable {α β : Type}

def shape (r : Reply α) : Reply Unit := r.map fun _ => ()

@[simp] theorem shape_matched (value : α) (pos : Nat) (ghost : Option Failure) :
    (matched value pos ghost).shape = .matched () pos ghost := rfl

@[simp] theorem shape_failed (pos : Nat) (error : Failure) :
    (failed pos error : Reply α).shape = .failed pos error := rfl

@[simp] theorem shape_fault (cause : Fault) : (fault cause : Reply α).shape = .fault cause := rfl

@[simp] theorem shape_map (f : α → β) (r : Reply α) : (r.map f).shape = r.shape := by
  cases r <;> rfl

@[simp] theorem shape_after (start : Nat) (ghost : Option Failure) (r : Reply α) :
    (r.after start ghost).shape = r.shape.after start ghost := by
  cases r <;> rfl

theorem carried_shape (r : Reply α) : r.shape.carried = r.carried := by
  cases r <;> rfl

theorem shape_returns {r : Reply α} (returns : ∀ cause, r ≠ .fault cause) :
    ∀ cause, r.shape ≠ .fault cause := by
  cases r with
  | fault cause => exact absurd rfl (returns cause)
  | _ => nofun

end Reply

/-! ## Properties that composition keeps -/

/-- Says something about a run: about the cursor and the journal it began with, its reply without
the value, and the journal it left. -/
abbrev RunProperty := State → Journal → Reply Unit → Journal → Prop

namespace RunProperty

/-- The steps that runs are made of keep the property `Φ`. -/
structure Compositional (Φ : RunProperty) : Prop where
  /-- A primitive matches, without leaving the buffer. -/
  advance : ∀ {s j pos}, s.pos ≤ pos → (s.pos ≤ s.input.size → pos ≤ s.input.size) →
    Φ s j (.matched () pos none) j
  /-- A primitive fails at the cursor, having seen upcoming units: inside the buffer it looked at one
  at least. -/
  missed : ∀ {s j} expected n, (s.pos ≤ s.input.size → 0 < n) →
    Φ s j (.failed s.pos ⟨s.pos, [expected], s.upcoming n⟩)
      (j.record (.missed ⟨s.pos, [expected], s.upcoming n⟩))
  /-- A fault ends the run. -/
  fault : ∀ {s j r k} cause, Φ s j r k → Φ s j (.fault cause) k
  /-- A part matches, and the next one begins where it ended. -/
  sequence : ∀ {s j k r l pos ghost}, Φ s j (.matched () pos ghost) k → Φ (s.goto pos) k r l →
    Φ s j (r.after s.pos ghost) l
  /-- A part fails, and another one is tried in its place. -/
  alternative : ∀ {s j k r l pos error}, Φ s j (.failed pos error) k → Φ s k r l →
    Φ s j (r.after s.pos (some error)) l
  /-- A part fails, and the whole reports its own start. -/
  restart : ∀ {s j k pos error}, Φ s j (.failed pos error) k → Φ s j (.failed s.pos error) k
  /-- A part matches, and the whole goes back to its start. -/
  rewind : ∀ {s j k pos ghost}, Φ s j (.matched () pos ghost) k → Φ s j (.matched () s.pos ghost) k

/-- Beyond the steps of runs, `Φ` does not notice silent marks. -/
structure Markblind (Φ : RunProperty) : Prop extends Φ.Compositional where
  marked : ∀ {s j r k} tag pos, Φ s (j.record (.marked tag pos)) r k → Φ s j r k

/-- `Φ` does not notice the silent marks with this tag. -/
def Ignores (Φ : RunProperty) (tag : Text) : Prop :=
  ∀ {s j r k} pos, Φ s (j.record (.marked tag pos)) r k → Φ s j r k

/-- Nor does `Φ` notice what tracing adds to the journal. -/
structure Unobservant (Φ : RunProperty) : Prop extends Φ.Markblind where
  before : ∀ {s j r k e}, e.missed? = none → Φ s (j.record e) r k → Φ s j r k
  after : ∀ {s j r k e}, e.missed? = none → Φ s j r k → Φ s j r (k.record e)
  marked _ _ given := before rfl given

/-- `Φ` does not mind a run that is reported as if alternatives had failed before it, at least one of
them and no two expecting the same. -/
def Passing (Φ : RunProperty) : Prop :=
  ∀ {s j r k} passed, passed ≠ [] → passed.Nodup → Φ s j r k →
    Φ s j (r.after s.pos (some ⟨s.pos, passed, s.upcoming 1⟩)) k

/-- `Φ` notices none of these, nor anything else that is in the journal. -/
structure Pervasive (Φ : RunProperty) : Prop extends Φ.Unobservant where
  passing : Φ.Passing
  oblivious : ∀ {s j r k} j' k', Φ s j r k → Φ s j' r k'

theorem Markblind.ignores {Φ : RunProperty} (laws : Φ.Markblind) (tag : Text) : Φ.Ignores tag :=
  laws.marked tag

namespace Compositional

variable {Φ : RunProperty} (laws : Φ.Compositional) {s : State} {j k : Journal}

include laws

/-- Nothing happens. -/
theorem idle : Φ s j (.matched () s.pos none) j := laws.advance (Nat.le_refl _) id

/-- A part fails, and the whole matches nothing instead. -/
theorem recover {pos : Nat} {error : Failure} (failing : Φ s j (.failed pos error) k) :
    Φ s j (.matched () s.pos (some error)) k :=
  laws.alternative failing laws.idle

end Compositional

end RunProperty

namespace Parser

variable {α β : Type} {Φ : RunProperty} {p q : Parser α}

/-- All runs of `p` have the property `Φ`. -/
def Obeys (p : Parser α) (Φ : RunProperty) : Prop :=
  ∀ s j, Φ s j (p.run s j).1.shape (p.run s j).2

theorem Obeys.run (obeys : p.Obeys Φ) {s : State} {j k : Journal} {r : Reply α}
    (ran : p.run s j = (r, k)) : Φ s j r.shape k := by
  have given := obeys s j
  rwa [ran] at given

section

variable (laws : Φ.Compositional)

include laws

/-! ## Primitives -/

theorem obeys_pure (value : α) : (Parser.pure value).Obeys Φ := fun _ _ => laws.idle

theorem obeys_raise (cause : Fault) : (raise cause : Parser α).Obeys Φ :=
  fun _ _ => laws.fault cause laws.idle

theorem obeys_fail (expected : Text) : (fail expected : Parser α).Obeys Φ :=
  fun _ _ => laws.missed expected 1 fun _ => Nat.one_pos

theorem obeys_take (n : Int) : (take n).Obeys Φ := by
  intro s j
  simp only [take]
  split
  case isTrue fits =>
    apply laws.advance
    · exact Nat.le_add_right _ _
    · intro _
      have := fits.2
      show s.pos + n.toNat ≤ s.input.size
      omega
  case isFalse =>
    apply laws.missed
    intro _
    omega

theorem obeys_literal (expected : Buffer) : (literal expected).Obeys Φ := by
  intro s j
  simp only [literal]
  split
  case isTrue => exact laws.fault _ laws.idle
  case isFalse =>
    split
    case isTrue found =>
      obtain ⟨inside, isPrefix⟩ := (s.input.startsWith_iff _ _).1 found
      apply laws.advance
      · exact Nat.le_add_right _ _
      · intro _
        have short := isPrefix.length_le
        rw [Buffer.length_codes, Buffer.length_rest] at short
        show s.pos + expected.size ≤ s.input.size
        omega
    case isFalse absent =>
      apply laws.missed
      intro inside
      -- The empty literal is found anywhere inside the buffer.
      refine Nat.pos_of_ne_zero fun empty => absent ?_
      rw [List.length_eq_zero_iff.1 (expected.length_codes.trans empty)]
      exact Buffer.startsWith_nil inside

theorem obeys_takeWhile (accepts : Code → Bool) : (takeWhile accepts).Obeys Φ := by
  intro s j
  have runEnd := s.input.runEnd_eq accepts s.pos
  apply laws.advance
  · show s.pos ≤ s.input.runEnd accepts s.pos
    omega
  · intro bound
    have short := (List.takeWhile_sublist accepts (l := s.input.rest s.pos)).length_le
    rw [Buffer.length_rest] at short
    show s.input.runEnd accepts s.pos ≤ s.input.size
    omega

theorem obeys_satisfy (c : CharClass) : (satisfy c).Obeys Φ := by
  intro s j
  simp only [satisfy]
  have seen := s.input.upcoming_one s.pos
  split
  case h_1 none =>
    rw [none] at seen
    have failing := laws.missed (s := s) (j := j) c.expected 1 fun _ => Nat.one_pos
    rwa [State.upcoming, seen] at failing
  case h_2 x some =>
    rw [some] at seen
    split
    case isTrue =>
      obtain ⟨inside, -⟩ := Array.getElem?_eq_some_iff.1 some
      exact laws.advance (Nat.le_succ _) fun _ => inside
    case isFalse =>
      have failing := laws.missed (s := s) (j := j) c.expected 1 fun _ => Nat.one_pos
      rwa [State.upcoming, seen] at failing

theorem obeys_peek : peek.Obeys Φ := fun _ _ => laws.idle

theorem obeys_eof : eof.Obeys Φ := by
  intro s j
  simp only [eof, Parser.bind, peek]
  cases seen : s.upcoming 1 with
  | none => exact laws.idle
  | some c =>
    have failing := laws.missed (s := s) (j := j) (text "end of input") 1 fun _ => Nat.one_pos
    rwa [seen] at failing

/-! ## Compositions -/

omit laws in
theorem obeys_map (obeys : p.Obeys Φ) (f : α → β) : (p.map f).Obeys Φ := by
  intro s j
  simpa [Parser.map] using obeys s j

theorem obeys_bind {f : α → Parser β} (first : p.Obeys Φ) (next : ∀ value, (f value).Obeys Φ) :
    (p.bind f).Obeys Φ := by
  intro s j
  simp only [Parser.bind]
  cases ran : p.run s j with
  | mk reply k =>
    cases reply with
    | matched value pos ghost =>
      simpa using laws.sequence (first.run ran) (next value (s.goto pos) k)
    | failed pos error => exact first.run ran
    | fault cause => exact first.run ran

theorem obeys_right {q : Parser β} (first : p.Obeys Φ) (second : q.Obeys Φ) :
    (p.right q).Obeys Φ :=
  obeys_bind laws first fun _ => second

theorem obeys_left {q : Parser β} (first : p.Obeys Φ) (second : q.Obeys Φ) : (p.left q).Obeys Φ :=
  obeys_bind laws first fun _ => obeys_map second _

theorem obeys_between {γ : Type} {opening : Parser α} {closing : Parser β} {inner : Parser γ}
    (first : opening.Obeys Φ) (last : closing.Obeys Φ) (middle : inner.Obeys Φ) :
    (between opening closing inner).Obeys Φ :=
  obeys_bind laws first fun _ => obeys_bind laws middle fun _ => obeys_map last _

theorem obeys_orElse (first : p.Obeys Φ) (second : q.Obeys Φ) : (p.orElse q).Obeys Φ := by
  intro s j
  simp only [Parser.orElse]
  cases ran : p.run s j with
  | mk reply k =>
    cases reply with
    | matched value pos ghost => exact first.run ran
    | failed pos error => simpa using laws.alternative (first.run ran) (second s k)
    | fault cause => exact first.run ran

theorem obeys_optional (obeys : p.Obeys Φ) : p.optional.Obeys Φ := by
  intro s j
  simp only [optional]
  cases ran : p.run s j with
  | mk reply k =>
    cases reply with
    | matched value pos ghost => exact obeys.run ran
    | failed pos error => exact laws.recover (obeys.run ran)
    | fault cause => exact obeys.run ran

/-- The alternatives before the remaining ones have failed, the last of them with journal `k`. -/
theorem tryRest_obeys {s : State} {j k : Journal} {pos : Nat} {error : Failure}
    {ps : List (Parser α)} (all : ∀ p ∈ ps, p.Obeys Φ) (failing : Φ s j (.failed pos error) k) :
    Φ s j (tryRest s ps error k).1.shape (tryRest s ps error k).2 := by
  induction ps generalizing pos error k with
  | nil => exact laws.restart failing
  | cons p ps ih =>
    have obeys := all p List.mem_cons_self
    simp only [tryRest]
    cases ran : p.run s k with
    | mk reply l =>
      cases reply with
      | matched value pos ghost => simpa using laws.alternative failing (obeys.run ran)
      | failed pos next =>
        exact ih (fun p member => all p (List.mem_cons_of_mem _ member))
          (laws.alternative failing (obeys.run ran))
      | fault cause => exact laws.alternative failing (obeys.run ran)

theorem obeys_oneOf {ps : List (Parser α)} (all : ∀ p ∈ ps, p.Obeys Φ) : (oneOf ps).Obeys Φ := by
  cases ps with
  | nil => exact obeys_fail laws _
  | cons p ps =>
    intro s j
    have obeys := all p List.mem_cons_self
    simp only [oneOf]
    cases ran : p.run s j with
    | mk reply k =>
      cases reply with
      | matched value pos ghost => exact obeys.run ran
      | failed pos error =>
        exact tryRest_obeys laws (fun p member => all p (List.mem_cons_of_mem _ member))
          (obeys.run ran)
      | fault cause => exact obeys.run ran

/-! ## Repetitions

The invariant of both loops: what happened since the start `s₀` of the repetition is a match that
ends at the cursor of the present round. -/

theorem repeatFrom_obeys (obeys : p.Obeys Φ) {s₀ : State} {j₀ : Journal} (s : State)
    (values : List α) (ghost : Option Failure) (j : Journal) (inside : s = s₀.goto s.pos)
    (sofar : Φ s₀ j₀ (.matched () s.pos ghost) j) :
    Φ s₀ j₀ (repeatFrom p s values ghost j).1.shape (repeatFrom p s values ghost j).2 := by
  fun_induction repeatFrom p s values ghost j with
  | case1 s values ghost j value pos next k ran further ih =>
    -- Another round begins where this one ended.
    have round := obeys.run ran
    rw [inside] at round
    refine ih ?_ (laws.sequence sofar round)
    rw [inside]
    rfl
  | case2 s values ghost j value pos next k ran still =>
    -- A round that does not move the cursor is the last.
    have round := laws.rewind (obeys.run ran)
    rw [inside] at round
    exact laws.sequence sofar round
  | case3 s values ghost j pos error k ran =>
    -- The failure of a round ends the loop and is swallowed.
    have round := laws.recover (obeys.run ran)
    rw [inside] at round
    exact laws.sequence sofar round
  | case4 s values ghost j cause k ran =>
    have round := obeys.run ran
    rw [inside] at round
    exact laws.sequence sofar round

theorem obeys_zeroOrMore (obeys : p.Obeys Φ) : p.zeroOrMore.Obeys Φ :=
  fun s j => repeatFrom_obeys laws obeys s [] none j rfl laws.idle

theorem obeys_atLeastOne (obeys : p.Obeys Φ) : p.atLeastOne.Obeys Φ :=
  obeys_bind laws obeys fun _ => obeys_map (obeys_zeroOrMore laws obeys) _

theorem obeys_count (obeys : p.Obeys Φ) (n : Nat) : (count n p).Obeys Φ := by
  induction n with
  | zero => exact obeys_pure laws _
  | succ n ih => exact obeys_bind laws obeys fun _ => obeys_map ih _

theorem obeys_sepBy {separator : Parser β} (between : separator.Obeys Φ) (obeys : p.Obeys Φ) :
    (sepBy separator p).Obeys Φ := by
  have rounds := obeys_zeroOrMore laws (obeys_right laws between obeys)
  intro s j
  simp only [sepBy]
  cases ran : p.run s j with
  | mk reply k =>
    cases reply with
    | matched first pos ghost =>
      simpa using laws.sequence (obeys.run ran) (rounds (s.goto pos) k)
    | failed pos error => exact laws.recover (obeys.run ran)
    | fault cause => exact obeys.run ran

end

/-! ## Marks and member loops -/

theorem obeys_marking {tag : Text} (ignores : Φ.Ignores tag) (obeys : p.Obeys Φ) :
    (marking tag p).Obeys Φ :=
  fun s _ => ignores s.pos (obeys s _)

section

variable (laws : Φ.Compositional) (ignores : Φ.Ignores roundMark)

include laws ignores

theorem roundsFrom_obeys {first next : Parser α} (opening : first.Obeys Φ)
    (further : next.Obeys Φ) {s₀ : State} {j₀ : Journal} (s : State) (values : List α)
    (ghost : Option Failure) (j : Journal) (inside : s = s₀.goto s.pos)
    (sofar : Φ s₀ j₀ (.matched () s.pos ghost) j) :
    Φ s₀ j₀ (roundsFrom first next s values ghost j).1.shape
      (roundsFrom first next s values ghost j).2 := by
  fun_induction roundsFrom first next s values ghost j with
  | case1 first s values ghost j value pos swallowed k ran ahead ih =>
    have round := ignores _ (opening.run ran)
    rw [inside] at round
    refine ih further ?_ (laws.sequence sofar round)
    rw [inside]
    rfl
  | case2 first s values ghost j value pos swallowed k ran still =>
    -- The loop for members gives up on a round that does not move the cursor.
    have round := ignores _ (opening.run ran)
    rw [inside] at round
    exact laws.fault .stalled (laws.sequence sofar round)
  | case3 first s values ghost j pos error k ran =>
    have round := laws.recover (ignores _ (opening.run ran))
    rw [inside] at round
    exact laws.sequence sofar round
  | case4 first s values ghost j cause k ran =>
    have round := ignores _ (opening.run ran)
    rw [inside] at round
    exact laws.sequence sofar round

theorem obeys_rounds {first next : Parser α} (opening : first.Obeys Φ) (further : next.Obeys Φ) :
    (rounds first next).Obeys Φ :=
  fun s j => roundsFrom_obeys laws ignores opening further s [] none j rfl laws.idle

end

/-! ## Tracing -/

section

variable (laws : Φ.Unobservant)

include laws

theorem obeys_trace (label : Text) : (trace label).Obeys Φ :=
  fun _ _ => laws.after rfl laws.idle

theorem obeys_concluded (obeys : p.Obeys Φ) (label : Text) : (concluded label p).Obeys Φ := by
  intro s j
  simp only [concluded]
  cases ran : p.run s j with
  | mk reply k =>
    cases reply with
    | matched value pos ghost => exact laws.after rfl (obeys.run ran)
    | failed pos error => exact laws.after rfl (obeys.run ran)
    | fault cause => exact obeys.run ran

theorem obeys_traced (obeys : p.Obeys Φ) (label : Text) : (traced label p).Obeys Φ := by
  intro s j
  apply laws.before (e := .entered label (glimpse s) (hasMore s) s.pos) rfl
  simp only [traced]
  cases ran : p.run s (j.record (.entered label (glimpse s) (hasMore s) s.pos)) with
  | mk reply k =>
    cases reply with
    | matched value pos ghost => exact laws.after rfl (obeys.run ran)
    | failed pos error => exact laws.after rfl (obeys.run ran)
    | fault cause => exact obeys.run ran

theorem obeys_spied (obeys : p.Obeys Φ) (name : Text) : (spied name p).Obeys Φ :=
  fun s _ => laws.before rfl (obeys s _)

end

theorem obeys_passing (passes : Φ.Passing) (obeys : p.Obeys Φ) {passed : List Text}
    (nonempty : passed ≠ []) (distinct : passed.Nodup) : (passing passed p).Obeys Φ := by
  intro s j
  simpa [Parser.passing] using passes passed nonempty distinct (obeys s j)

end Parser

end Rewind
