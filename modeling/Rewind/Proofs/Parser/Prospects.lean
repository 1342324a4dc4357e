import Rewind.Proofs.Parser.Reads
import Rewind.Proofs.Parser.Replies

/-! # Failures and the texts that were possible

`p.FailsWithin Language` says where the failures lie that a run of `p` carries: what stands between the
cursor at which the run began and the offset of such a failure can be continued to a text of
`Language`.  A primitive fails where it begins, so it is enough that there is any text at all.  In a
sequence the second part is left with the texts that continue what the first has read. -/

namespace Rewind

/-- What stands between the cursor and the offset `pos` begins a text of the language. -/
def State.Begins (s : State) (Language : Text → Prop) (pos : Nat) : Prop :=
  pos ≤ s.input.size ∧ ∃ t u, s.Spans t pos ∧ Language (t ++ u)

namespace State.Begins

variable {s : State} {A C : Text → Prop} {pos : Nat}

theorem here {t : Text} (inside : s.pos ≤ s.input.size) (possible : A t) : s.Begins A s.pos :=
  ⟨inside, [], t, .empty s, possible⟩

theorem mono (begins : s.Begins A pos) (completes : ∀ t, A t → ∃ u, C (t ++ u)) :
    s.Begins C pos := by
  obtain ⟨inside, t, u, spans, possible⟩ := begins
  obtain ⟨more, complete⟩ := completes _ possible
  rw [List.append_assoc] at complete
  exact ⟨inside, t, u ++ more, spans, complete⟩

theorem imp (begins : s.Begins A pos) (implies : ∀ t, A t → C t) : s.Begins C pos := by
  obtain ⟨inside, t, u, spans, possible⟩ := begins
  exact ⟨inside, t, u, spans, implies _ possible⟩

/-- What follows a text that has been read is a part of the whole. -/
theorem append {t : Text} {mid : Nat} (spans : s.Spans t mid)
    (rest : (s.goto mid).Begins (fun u => A (t ++ u)) pos) : s.Begins A pos := by
  obtain ⟨inside, u, more, spans', possible⟩ := rest
  rw [← List.append_assoc] at possible
  exact ⟨inside, t ++ u, more, spans.append spans', possible⟩

end State.Begins

namespace Parser

open Run RunProperty

variable {α β : Type} {p q : Parser α}

/-! ## Parsers that fail in place -/

def FailsInPlace (p : Parser α) : Prop :=
  ∀ s : State, p.RepliesAt (Reply.CarriesOnly (· = s.pos)) s

theorem failsInPlace_fail (expected : Text) : (fail expected : Parser α).FailsInPlace :=
  fun _ _ => Reply.carriesOnly_failed rfl

theorem failsInPlace_satisfy (c : CharClass) : (satisfy c).FailsInPlace := by
  intro s j
  simp only [satisfy]
  split
  · exact Reply.carriesOnly_failed rfl
  · split
    · exact Reply.carriesOnly_none
    · exact Reply.carriesOnly_failed rfl

theorem failsInPlace_literal (expected : Buffer) : (literal expected).FailsInPlace := by
  intro s j
  simp only [literal]
  split
  · exact Reply.carriesOnly_fault
  · split
    · exact Reply.carriesOnly_none
    · exact Reply.carriesOnly_failed rfl

theorem failsInPlace_eof : eof.FailsInPlace := by
  intro s
  refine RepliesAt.bind (fun _ => nofun) fun c pos looked => ?_
  obtain ⟨rfl, rfl⟩ := yields_peek looked
  cases s.upcoming 1 with
  | none => exact fun _ => Reply.carriesOnly_none
  | some piece => exact fun _ => Reply.carriesOnly_failed rfl

theorem failsInPlace_map (inPlace : p.FailsInPlace) (f : α → β) : (p.map f).FailsInPlace :=
  fun s => (inPlace s).map f

theorem failsInPlace_orElse (first : p.FailsInPlace) (second : q.FailsInPlace) :
    (p.orElse q).FailsInPlace :=
  fun s => (first s).orElse (second s)

theorem failsInPlace_optional (inPlace : p.FailsInPlace) : p.optional.FailsInPlace :=
  fun s => (inPlace s).optional

/-! ## Parsers that fail within a language -/

def FailsWithin (p : Parser α) (Language : Text → Prop) : Prop :=
  ∀ s : State, s.pos ≤ s.input.size → p.RepliesAt (Reply.CarriesOnly (s.Begins Language)) s

namespace FailsWithin

variable {A C : Text → Prop} {R : Text → α → Prop}

theorem of_inPlace {t : Text} (inPlace : p.FailsInPlace) (possible : C t) : p.FailsWithin C := by
  intro s inside
  refine (inPlace s).mono fun r only e carried => ?_
  rw [only e carried]
  exact .here inside possible

theorem mono (within : p.FailsWithin A) (completes : ∀ t, A t → ∃ u, C (t ++ u)) :
    p.FailsWithin C :=
  fun s inside => (within s inside).mono fun _ only e carried => (only e carried).mono completes

theorem imp (within : p.FailsWithin A) (implies : ∀ t, A t → C t) : p.FailsWithin C :=
  fun s inside => (within s inside).mono fun _ only e carried => (only e carried).imp implies

theorem pure (x : α) : (Parser.pure x).FailsWithin C := fun _ _ _ => Reply.carriesOnly_none

theorem raise (cause : Fault) : (Parser.raise cause : Parser α).FailsWithin C :=
  fun _ _ _ => Reply.carriesOnly_fault

theorem takeWhile (accepts : Code → Bool) : (Parser.takeWhile accepts).FailsWithin C :=
  fun _ _ _ => Reply.carriesOnly_none

theorem peek : Parser.peek.FailsWithin C := fun _ _ _ => Reply.carriesOnly_none

theorem map (within : p.FailsWithin C) (f : α → β) : (p.map f).FailsWithin C :=
  fun s inside => (within s inside).map f

theorem traced (within : p.FailsWithin C) (label : Text) : (Parser.traced label p).FailsWithin C :=
  fun s inside => (within s inside).traced label

theorem concluded (within : p.FailsWithin C) (label : Text) :
    (Parser.concluded label p).FailsWithin C :=
  fun s inside => (within s inside).concluded label

theorem marking (within : p.FailsWithin C) (tag : Text) : (Parser.marking tag p).FailsWithin C :=
  fun s inside => (within s inside).marking tag

theorem orElse (first : p.FailsWithin C) (second : q.FailsWithin C) : (p.orElse q).FailsWithin C :=
  fun s inside => (first s inside).orElse (second s inside)

theorem oneOf {ps : List (Parser α)} (head : p.FailsWithin C) (tail : ∀ p ∈ ps, p.FailsWithin C) :
    (Parser.oneOf (p :: ps)).FailsWithin C :=
  fun s inside => (head s inside).oneOf fun p member => tail p member s inside

theorem passing {t : Text} (within : p.FailsWithin C) (passed : List Text) (possible : C t) :
    (Parser.passing passed p).FailsWithin C := by
  intro s inside
  exact (within s inside).passing passed (Reply.carriesOnly_failed (.here inside possible))

theorem bind {f : α → Parser β} (first : p.FailsWithin C) (steady : p.Obeys forward)
    (reads : p.Reads R) (rest : ∀ t x, R t x → (f x).FailsWithin fun u => C (t ++ u)) :
    (p.bind f).FailsWithin C := by
  intro s inside
  refine (first s inside).bind fun x pos yields => ?_
  obtain ⟨t, read, spans⟩ := reads s x pos yields
  refine (rest t x read (s.goto pos) ((yields.precedes steady).inside inside)).mono ?_
  exact fun r only e carried => .append spans (only e carried)

theorem right {q : Parser β} (first : p.FailsWithin C) (steady : p.Obeys forward)
    (reads : p.Reads R) (second : ∀ t x, R t x → q.FailsWithin fun u => C (t ++ u)) :
    (p.right q).FailsWithin C :=
  first.bind steady reads second

theorem left {q : Parser β} (first : p.FailsWithin C) (steady : p.Obeys forward)
    (reads : p.Reads R) (second : ∀ t x, R t x → q.FailsWithin fun u => C (t ++ u)) :
    (p.left q).FailsWithin C :=
  first.bind steady reads fun t x read => (second t x read).map _

/-- A run of units never fails. -/
theorem left_takeWhile (first : p.FailsWithin C) (accepts : Code → Bool) :
    (p.left (Parser.takeWhile accepts)).FailsWithin C :=
  fun s inside => (first s inside).left fun _ _ _ _ => Reply.carriesOnly_none

/-! ### Repetitions

The rounds of a loop are all left with one language, to whose texts what a round reads may be
prepended. -/

theorem zeroOrMore (round : p.FailsWithin C) (reads : p.Reads R)
    (prepend : ∀ t x u, R t x → C u → C (t ++ u)) : p.zeroOrMore.FailsWithin C := by
  intro s inside
  refine (round s inside).zeroOrMore_of_rest fun x pos yields further => ?_
  obtain ⟨t, read, spans⟩ := reads s x pos yields
  -- The induction is on what is left of the buffer, as in the loop itself.
  have rest := zeroOrMore round reads prepend (s.goto pos) further.2
  refine rest.mono fun r only e carried => .append spans ((only e carried).imp fun u possible => ?_)
  exact prepend t x u read possible
termination_by s => s.input.size - s.pos
decreasing_by
  simp only [State.goto]
  omega

theorem rounds_self (advances : p.Advances) (round : p.FailsWithin C) (reads : p.Reads R)
    (prepend : ∀ t x u, R t x → C u → C (t ++ u)) : (Parser.rounds p p).FailsWithin C := by
  intro s inside
  refine (round s inside).rounds_of_rest advances fun x pos yields => ?_
  obtain ⟨t, read, spans⟩ := reads s x pos yields
  have further := advances s x pos yields
  have rest := rounds_self advances round reads prepend (s.goto pos) further.2
  refine rest.mono fun r only e carried => .append spans ((only e carried).imp fun u possible => ?_)
  exact prepend t x u read possible
termination_by s => s.input.size - s.pos
decreasing_by
  simp only [State.goto]
  omega

theorem rounds {next : Parser α} (advances : p.Advances) (first : p.FailsWithin C)
    (reads : p.Reads R)
    (rest : ∀ t x, R t x → (Parser.rounds next next).FailsWithin fun u => C (t ++ u)) :
    (Parser.rounds p next).FailsWithin C := by
  intro s inside
  refine (first s inside).rounds_of_rest advances fun x pos yields => ?_
  obtain ⟨t, read, spans⟩ := reads s x pos yields
  refine (rest t x read (s.goto pos) (advances s x pos yields).2).mono ?_
  exact fun r only e carried => .append spans (only e carried)

end FailsWithin

end Parser

end Rewind
