import Rewind.Parser.Basic

/-! # Tracing

Parsers that write to the journal and otherwise change nothing. -/

namespace Rewind.Parser

variable {α : Type}

def glimpseSize : Nat := 30

def glimpse (s : State) : Buffer := s.input.slice s.pos (s.pos + glimpseSize)

def hasMore (s : State) : Bool := glimpseSize < s.remaining

def trace (label : Text) : Parser Unit where
  run s j := (.matched () s.pos none, j.record (.glimpsed label (glimpse s) (hasMore s) s.pos))

def traced (label : Text) (p : Parser α) : Parser α where
  run s j :=
    let done := p.run s (j.record (.entered label (glimpse s) (hasMore s) s.pos))
    (done.1, done.2.conclude (.left label) (done.1.ending? s.pos))

/-- Runs `p` and reports how it ended, though not where it began. -/
def concluded (label : Text) (p : Parser α) : Parser α where
  run s j :=
    let done := p.run s j
    (done.1, done.2.conclude (.concluded label) (done.1.ending? s.pos))

def spied (name : Text) (p : Parser α) : Parser α where
  run s j := p.run s (j.record (.attempted name s.pos))

def marking (tag : Text) (p : Parser α) : Parser α where
  run s j := p.run s (j.record (.marked tag s.pos))

end Rewind.Parser
