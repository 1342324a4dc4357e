import Rewind.Proofs.Parser.Choice
import Rewind.Proofs.Parser.Reads

/-! # What a parser is bound to accept

`p.Accepts ahead x tail` says that wherever the text `ahead` lies before the cursor, every run of `p`
matches `x` and leaves `tail`; `p.Rejects ahead` says that every run fails there.  To find out what a
composition accepts, one has to know of its parts what they accept and what they reject: a choice passes
over the alternatives that fail, and a repetition goes on until a round fails. -/

namespace Rewind.Parser

open Run

variable {α β γ : Type} {p q : Parser α} {x : α} {ahead mid tail : Text}

/-- Wherever `ahead` lies ahead, every run of `p` matches `x` and leaves `tail`. -/
def Accepts (p : Parser α) (ahead : Text) (x : α) (tail : Text) : Prop :=
  ∀ s : State, s.input.kind = .text → s.rest = ahead →
    ∀ j, ∃ pos ghost, (p.run s j).1 = .matched x pos ghost ∧ s.input.rest pos = tail

def Rejects (p : Parser α) (ahead : Text) : Prop :=
  ∀ s : State, s.input.kind = .text → s.rest = ahead →
    ∀ j, ∃ stop error, (p.run s j).1 = .failed stop error

theorem Accepts.run (accepts : p.Accepts ahead x tail) {s : State} (kind : s.input.kind = .text)
    (here : s.rest = ahead) (j : Journal) :
    ∃ pos ghost k, p.run s j = (.matched x pos ghost, k) ∧ s.input.rest pos = tail := by
  obtain ⟨pos, ghost, replied, left⟩ := accepts s kind here j
  exact ⟨pos, ghost, _, Prod.ext replied rfl, left⟩

theorem Rejects.run (rejects : p.Rejects ahead) {s : State} (kind : s.input.kind = .text)
    (here : s.rest = ahead) (j : Journal) :
    ∃ stop error k, p.run s j = (.failed stop error, k) := by
  obtain ⟨stop, error, replied⟩ := rejects s kind here j
  exact ⟨stop, error, _, Prod.ext replied rfl⟩

theorem rejects_of_missesAt
    (misses : ∀ s : State, s.input.kind = .text → s.rest = ahead → p.MissesAt s) :
    p.Rejects ahead := by
  intro s kind here j
  obtain ⟨error, _, fails⟩ := misses s kind here
  exact ⟨s.pos, error, fails j⟩

/-! ## Primitives -/

theorem accepts_pure (x : α) (ahead : Text) : (Parser.pure x).Accepts ahead x ahead :=
  fun s _ here _ => ⟨s.pos, none, rfl, here⟩

theorem accepts_peek (ahead : Text) :
    peek.Accepts ahead (ahead.head?.map fun c => .ofText [c]) ahead := by
  intro s kind here j
  refine ⟨s.pos, none, ?_, here⟩
  rw [← here]
  exact congrArg (fun b => Reply.matched b s.pos none) (Buffer.upcoming_one_text kind s.pos)

theorem accepts_literal {t : Text} (nonempty : t ≠ []) :
    (literal (.ofText t)).Accepts (t ++ tail) (.ofText t) tail := by
  intro s kind here j
  -- Past the end nothing would lie ahead.
  have inside : s.pos ≤ s.input.size := by
    have some : s.rest ≠ [] := by
      rw [here]
      exact List.append_ne_nil_of_left_ne_nil nonempty _
    rw [State.rest, Ne, Buffer.rest_eq_nil_iff] at some
    omega
  have found : s.input.startsWith s.pos (Buffer.ofText t).codes = true := by
    rw [Buffer.startsWith_iff, Buffer.codes_ofText]
    exact ⟨inside, tail, here.symm⟩
  have same : ¬ s.input.kind ≠ (Buffer.ofText t).kind := not_not_intro kind
  refine ⟨s.pos + t.length, none, ?_, (State.Spans.of_append here).rest_eq here⟩
  simp only [literal, if_pos found, if_neg same, Buffer.size_ofText]

theorem slice_eq_ofText {s : State} {t : Text} (kind : s.input.kind = .text)
    (here : s.rest = t ++ tail) : s.input.slice s.pos (s.pos + t.length) = .ofText t := by
  have codes : (s.input.slice s.pos (s.pos + t.length)).codes = t := by
    rw [Buffer.codes_slice, ← State.rest, here, Nat.add_sub_cancel_left, List.take_left]
  have piece := Buffer.ofText_codes (b := s.input.slice s.pos (s.pos + t.length)) kind
  rw [← piece, codes]

theorem accepts_satisfy {c : CharClass} {unit : Code} (accepted : c.accepts unit = true) :
    (satisfy c).Accepts (unit :: tail) (.ofText [unit]) tail := by
  intro s kind here j
  have found : s.input.units[s.pos]? = some unit := by
    rw [Buffer.getElem?_units, ← State.rest, here]
    rfl
  have piece : s.input.slice s.pos (s.pos + 1) = .ofText [unit] :=
    slice_eq_ofText (t := [unit]) kind here
  refine ⟨s.pos + 1, none, ?_, (State.Spans.of_append (t := [unit]) here).rest_eq here⟩
  simp only [satisfy, found, if_pos accepted, piece]

/-- A run takes as many units as it can. -/
theorem accepts_takeWhile (accepts : Code → Bool) (ahead : Text) :
    (takeWhile accepts).Accepts ahead (.ofText (ahead.takeWhile accepts))
      (ahead.dropWhile accepts) := by
  intro s kind here j
  have split : s.rest = ahead.takeWhile accepts ++ ahead.dropWhile accepts := by
    rw [here, List.takeWhile_append_dropWhile]
  have stop : s.input.runEnd accepts s.pos = s.pos + (ahead.takeWhile accepts).length := by
    rw [Buffer.runEnd_eq, ← State.rest, here]
  refine ⟨_, none, ?_, (State.Spans.of_append split).rest_eq split⟩
  simp only [takeWhile, stop, slice_eq_ofText kind split]

theorem accepts_eof : eof.Accepts [] () [] := by
  intro s kind here j
  have nothing : s.upcoming 1 = none := by
    rw [State.upcoming, Buffer.upcoming_one_text kind, ← State.rest, here]
    rfl
  refine ⟨s.pos, none, ?_, here⟩
  simp only [eof, Parser.bind, peek, nothing]
  rfl

/-! ## Accepting compositions -/

theorem Accepts.map (accepts : p.Accepts ahead x tail) (f : α → β) :
    (p.map f).Accepts ahead (f x) tail := by
  intro s kind here j
  obtain ⟨pos, ghost, replied, left⟩ := accepts s kind here j
  exact ⟨pos, ghost, congrArg (Reply.map f) replied, left⟩

theorem Accepts.bind {f : α → Parser β} {y : β} (first : p.Accepts ahead x mid)
    (rest : (f x).Accepts mid y tail) : (p.bind f).Accepts ahead y tail := by
  intro s kind here j
  obtain ⟨pos, ghost, k, ran, there⟩ := first.run kind here j
  obtain ⟨stop, next, replied, left⟩ := rest (s.goto pos) kind there k
  refine ⟨stop, Failure.join ghost next, ?_, left⟩
  rw [run_bind, resume_matched ran]
  exact congrArg (Reply.after s.pos ghost) replied

theorem Accepts.right {q : Parser β} {y : β} (first : p.Accepts ahead x mid)
    (second : q.Accepts mid y tail) : (p.right q).Accepts ahead y tail :=
  first.bind second

theorem Accepts.left {q : Parser β} {y : β} (first : p.Accepts ahead x mid)
    (second : q.Accepts mid y tail) : (p.left q).Accepts ahead x tail :=
  first.bind (second.map _)

theorem Accepts.orElse (accepts : p.Accepts ahead x tail) : (p.orElse q).Accepts ahead x tail := by
  intro s kind here j
  obtain ⟨pos, ghost, k, ran, left⟩ := accepts.run kind here j
  refine ⟨pos, ghost, ?_, left⟩
  rw [run_orElse, resume_matched ran]
  rfl

theorem Rejects.orElse_accepts (rejects : p.Rejects ahead) (accepts : q.Accepts ahead x tail) :
    (p.orElse q).Accepts ahead x tail := by
  intro s kind here j
  obtain ⟨stop, error, k, ran⟩ := rejects.run kind here j
  obtain ⟨pos, ghost, replied, left⟩ := accepts s kind here k
  refine ⟨pos, Failure.join (some error) ghost, ?_, left⟩
  rw [run_orElse, resume_failed ran]
  exact congrArg (Reply.after s.pos (some error)) replied

theorem Accepts.optional (accepts : p.Accepts ahead x tail) :
    p.optional.Accepts ahead (some x) tail := by
  intro s kind here j
  obtain ⟨pos, ghost, k, ran, left⟩ := accepts.run kind here j
  refine ⟨pos, ghost, ?_, left⟩
  rw [run_optional, resume_matched ran]
  rfl

theorem Rejects.optional (rejects : p.Rejects ahead) : p.optional.Accepts ahead none ahead := by
  intro s kind here j
  obtain ⟨stop, error, k, ran⟩ := rejects.run kind here j
  refine ⟨s.pos, some error, ?_, here⟩
  rw [run_optional, resume_failed ran]
  rfl

theorem Accepts.oneOf (accepts : p.Accepts ahead x tail) (ps : List (Parser α)) :
    (Parser.oneOf (p :: ps)).Accepts ahead x tail := by
  intro s kind here j
  obtain ⟨pos, ghost, k, ran, left⟩ := accepts.run kind here j
  refine ⟨pos, ghost, ?_, left⟩
  rw [run_oneOf, resume_matched ran]
  rfl

theorem Rejects.oneOf_accepts {ps : List (Parser α)} (rejects : p.Rejects ahead)
    (accepts : (Parser.oneOf (q :: ps)).Accepts ahead x tail) :
    (Parser.oneOf (p :: q :: ps)).Accepts ahead x tail := by
  intro s kind here j
  obtain ⟨stop, error, k, ran⟩ := rejects.run kind here j
  obtain ⟨pos, ghost, replied, left⟩ := accepts s kind here k
  refine ⟨pos, Failure.join (some error) ghost, ?_, left⟩
  rw [run_oneOf, resume_failed ran, tryRest_cons]
  exact congrArg (Reply.after s.pos (some error)) replied

theorem Accepts.passing (accepts : p.Accepts ahead x tail) (passed : List Text) :
    (Parser.passing passed p).Accepts ahead x tail := by
  intro s kind here j
  obtain ⟨pos, ghost, replied, left⟩ := accepts s kind here j
  exact ⟨pos, _, congrArg (Reply.after s.pos _) replied, left⟩

theorem Accepts.marking (accepts : p.Accepts ahead x tail) (tag : Text) :
    (Parser.marking tag p).Accepts ahead x tail :=
  fun s kind here _ => accepts s kind here _

theorem Accepts.concluded (accepts : p.Accepts ahead x tail) (label : Text) :
    (Parser.concluded label p).Accepts ahead x tail :=
  fun s kind here j => accepts s kind here j

theorem Accepts.traced (accepts : p.Accepts ahead x tail) (label : Text) :
    (Parser.traced label p).Accepts ahead x tail :=
  fun s kind here _ => accepts s kind here _

/-! ## Rejecting compositions -/

theorem Rejects.map (rejects : p.Rejects ahead) (f : α → β) : (p.map f).Rejects ahead := by
  intro s kind here j
  obtain ⟨stop, error, replied⟩ := rejects s kind here j
  exact ⟨stop, error, congrArg (Reply.map f) replied⟩

theorem Rejects.bind (rejects : p.Rejects ahead) (f : α → Parser β) : (p.bind f).Rejects ahead := by
  intro s kind here j
  obtain ⟨stop, error, k, ran⟩ := rejects.run kind here j
  refine ⟨stop, error, ?_⟩
  rw [run_bind, resume_failed ran]
  rfl

theorem Accepts.bind_rejects {f : α → Parser β} (first : p.Accepts ahead x mid)
    (rest : (f x).Rejects mid) : (p.bind f).Rejects ahead := by
  intro s kind here j
  obtain ⟨pos, ghost, k, ran, there⟩ := first.run kind here j
  obtain ⟨stop, error, replied⟩ := rest (s.goto pos) kind there k
  refine ⟨s.pos, Failure.cover ghost error, ?_⟩
  rw [run_bind, resume_matched ran]
  exact congrArg (Reply.after s.pos ghost) replied

theorem Rejects.orElse (first : p.Rejects ahead) (second : q.Rejects ahead) :
    (p.orElse q).Rejects ahead := by
  intro s kind here j
  obtain ⟨stop, error, k, ran⟩ := first.run kind here j
  obtain ⟨stop', error', replied⟩ := second s kind here k
  refine ⟨s.pos, Failure.cover (some error) error', ?_⟩
  rw [run_orElse, resume_failed ran]
  exact congrArg (Reply.after s.pos (some error)) replied

theorem Rejects.oneOf_cons {ps : List (Parser α)} (rejects : p.Rejects ahead)
    (others : (Parser.oneOf (q :: ps)).Rejects ahead) :
    (Parser.oneOf (p :: q :: ps)).Rejects ahead := by
  intro s kind here j
  obtain ⟨stop, error, k, ran⟩ := rejects.run kind here j
  obtain ⟨stop', error', replied⟩ := others s kind here k
  refine ⟨s.pos, Failure.cover (some error) error', ?_⟩
  rw [run_oneOf, resume_failed ran, tryRest_cons]
  exact congrArg (Reply.after s.pos (some error)) replied

theorem Rejects.oneOf_singleton (rejects : p.Rejects ahead) :
    (Parser.oneOf [p]).Rejects ahead := by
  intro s kind here j
  obtain ⟨stop, error, k, ran⟩ := rejects.run kind here j
  refine ⟨s.pos, error, ?_⟩
  rw [run_oneOf, resume_failed ran]
  rfl

theorem Rejects.passing (rejects : p.Rejects ahead) (passed : List Text) :
    (Parser.passing passed p).Rejects ahead := by
  intro s kind here j
  obtain ⟨stop, error, replied⟩ := rejects s kind here j
  exact ⟨_, _, congrArg (Reply.after s.pos _) replied⟩

theorem Rejects.marking (rejects : p.Rejects ahead) (tag : Text) :
    (Parser.marking tag p).Rejects ahead :=
  fun s kind here _ => rejects s kind here _

theorem Rejects.concluded (rejects : p.Rejects ahead) (label : Text) :
    (Parser.concluded label p).Rejects ahead :=
  fun s kind here j => rejects s kind here j

/-! ## Repetitions -/

theorem Rejects.zeroOrMore (rejects : p.Rejects ahead) : p.zeroOrMore.Accepts ahead [] ahead := by
  intro s kind here j
  obtain ⟨stop, error, k, ran⟩ := rejects.run kind here j
  refine ⟨s.pos, some error, ?_, here⟩
  rw [run_zeroOrMore, resume_failed ran]
  rfl

theorem Accepts.zeroOrMore {xs : List α} (first : p.Accepts ahead x mid) (advances : p.Advances)
    (rest : p.zeroOrMore.Accepts mid xs tail) : p.zeroOrMore.Accepts ahead (x :: xs) tail := by
  intro s kind here j
  obtain ⟨pos, ghost, k, ran, there⟩ := first.run kind here j
  obtain ⟨stop, next, replied, left⟩ := rest (s.goto pos) kind there k
  refine ⟨stop, Failure.join ghost next, ?_, left⟩
  -- A round that advances is not the last one.
  rw [run_zeroOrMore, resume_matched ran, if_pos (advances s x pos ⟨ghost, j, k, ran⟩)]
  exact congrArg (fun r => (r.map (x :: ·)).after s.pos ghost) replied

theorem Rejects.rounds (rejects : p.Rejects ahead) (next : Parser α) :
    (rounds p next).Accepts ahead [] ahead := by
  intro s kind here j
  obtain ⟨stop, error, k, ran⟩ := (rejects.marking roundMark).run kind here j
  refine ⟨s.pos, some error, ?_, here⟩
  rw [run_rounds, resume_failed ran]
  rfl

theorem Accepts.rounds {next : Parser α} {xs : List α} (first : p.Accepts ahead x mid)
    (advances : p.Advances) (rest : (rounds next next).Accepts mid xs tail) :
    (rounds p next).Accepts ahead (x :: xs) tail := by
  intro s kind here j
  obtain ⟨pos, ghost, k, ran, there⟩ := (first.marking roundMark).run kind here j
  obtain ⟨stop, more, replied, left⟩ := rest (s.goto pos) kind there k
  have ahead := advances s x pos (yields_marking ⟨ghost, j, k, ran⟩)
  refine ⟨stop, Failure.join ghost more, ?_, left⟩
  rw [run_rounds, resume_matched ran, if_pos ahead]
  exact congrArg (fun r => (r.map (x :: ·)).after s.pos ghost) replied

end Rewind.Parser
