import Rewind.Parser.Choice

/-! # Repetition

A repetition runs a parser again and again from where the round before ended, until a round fails or
consumes nothing.  Every round but the last moves the cursor towards the end of the buffer, so what
remains of the buffer bounds the number of rounds. -/

namespace Rewind.Parser

variable {α β : Type}

def roundMark : Text := text "round"

/-- The rounds of `zeroOrMore`, with the values so far, the latest first, and their ghost. -/
def repeatFrom (p : Parser α) (s : State) (values : List α) (ghost : Option Failure) (j : Journal) :
    Reply (List α) × Journal :=
  match p.run s j with
  | (.matched value pos next, j) =>
    if s.pos < pos ∧ pos ≤ s.input.size then
      repeatFrom p (s.goto pos) (value :: values) (Failure.join ghost next) j
    else (.matched (value :: values).reverse s.pos (Failure.join ghost next), j)
  | (.failed _ error, j) => (.matched values.reverse s.pos (Failure.join ghost (some error)), j)
  | (.fault cause, j) => (.fault cause, j)
termination_by s.input.size - s.pos
decreasing_by
  simp only [State.goto]
  omega

/-- As many rounds of `p` as match, possibly none.  A round that matches without consuming anything
is the last. -/
def zeroOrMore (p : Parser α) : Parser (List α) where
  run s j := repeatFrom p s [] none j

def atLeastOne (p : Parser α) : Parser (List α) :=
  p.bind fun x => (zeroOrMore p).map (x :: ·)

/-- Rounds of `p` with `separator` between them, possibly none.  A separator is consumed only
together with the round after it. -/
def sepBy (separator : Parser β) (p : Parser α) : Parser (List α) where
  run s j :=
    match p.run s j with
    | (.matched first pos ghost, j) =>
      let rest := (zeroOrMore (separator.right p)).run (s.goto pos) j
      ((rest.1.map (first :: ·)).after s.pos ghost, rest.2)
    | (.failed _ error, j) => (.matched [] s.pos (some error), j)
    | (.fault cause, j) => (.fault cause, j)

def count : (n : Nat) → Parser α → Parser (List α)
  | 0, _ => Parser.pure []
  | n + 1, p => p.bind fun x => (count n p).map (x :: ·)

def roundsFrom (first next : Parser α) (s : State) (values : List α) (ghost : Option Failure)
    (j : Journal) : Reply (List α) × Journal :=
  match first.run s (j.record (.marked roundMark s.pos)) with
  | (.matched value pos swallowed, j) =>
    if s.pos < pos ∧ pos ≤ s.input.size then
      roundsFrom next next (s.goto pos) (value :: values) (Failure.join ghost swallowed) j
    else (.fault .stalled, j)
  | (.failed _ error, j) => (.matched values.reverse s.pos (Failure.join ghost (some error)), j)
  | (.fault cause, j) => (.fault cause, j)
termination_by s.input.size - s.pos
decreasing_by
  simp only [State.goto]
  omega

/-- One round of `first` and as many of `next` as match, none if the first does not.  Every round
has to consume something; each begins with a silent mark. -/
def rounds (first next : Parser α) : Parser (List α) where
  run s j := roundsFrom first next s [] none j

end Rewind.Parser
