import Rewind.Parser.Primitive

/-! # Choice

Ordered choice between parsers that all begin at the same cursor: the first that matches decides the
value and the cursor, and the failures of those tried before it travel on in its ghost. -/

namespace Rewind.Parser

variable {α : Type}

def optional (p : Parser α) : Parser (Option α) where
  run s j :=
    match p.run s j with
    | (.matched value pos ghost, j) => (.matched (some value) pos ghost, j)
    | (.failed _ error, j) => (.matched none s.pos (some error), j)
    | (.fault cause, j) => (.fault cause, j)

def tryRest (s : State) : List (Parser α) → (error : Failure) → Journal → Reply α × Journal
  | [], error, j => (.failed s.pos error, j)
  | p :: ps, error, j =>
    match p.run s j with
    | (.failed _ next, j) => tryRest s ps (error.merge next) j
    | (reply, j) => (reply.after s.pos (some error), j)

/-- The first alternative that matches.  If none does, the failure has the expectations of all. -/
def oneOf : List (Parser α) → Parser α
  | [] => fail (text "no alternatives")
  | p :: ps =>
    { run := fun s j =>
        match p.run s j with
        | (.failed _ error, j) => tryRest s ps error j
        | other => other }

/-- Runs `p` as if alternatives that expected `passed` had failed at the cursor before it.  It saves
running alternatives that cannot match there. -/
def passing (passed : List Text) (p : Parser α) : Parser α where
  run s j :=
    let done := p.run s j
    (done.1.after s.pos (some ⟨s.pos, passed, s.upcoming 1⟩), done.2)

end Rewind.Parser
