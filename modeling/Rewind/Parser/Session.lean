import Rewind.Parser.Basic

/-! # Sessions

A session is a buffer, a cursor that may be moved by hand, and a journal.  Parsers are run at the
cursor, one after the other; a match moves it, a failure leaves it where it is, and the caches that a
run has filled stay filled.

Moving by hand may put the cursor outside the buffer.  What is upcoming below the start is counted
from the end; parsers run there as at the start. -/

namespace Rewind

structure Session where
  input : Buffer
  pos : Int
  journal : Journal

namespace Session

def start (input : Buffer) (pos : Int) : Session := ⟨input, pos, .empty⟩

def advance (session : Session) (n : Int) : Session := { session with pos := session.pos + n }

def seek (session : Session) (pos : Int) : Session := { session with pos }

/-- How many units there are from the cursor on, negative past the end. -/
def remaining (session : Session) : Int := session.input.size - session.pos

def atEnd (session : Session) : Bool := session.input.size ≤ session.pos

def upcoming (session : Session) (n : Int) : Option Buffer :=
  let next := session.input.slice (session.input.index session.pos)
    (session.input.index (session.pos + n))
  if next.isEmpty then none else some next

def run {α : Type} (session : Session) (p : Parser α) : Reply α × Session :=
  let done := p.run ⟨session.input, session.pos.toNat⟩ session.journal.turnPage
  let moved := match done.1 with
    | .matched _ pos _ => session.seek pos
    | _ => session
  (done.1, { moved with journal := done.2 })

end Session

end Rewind
