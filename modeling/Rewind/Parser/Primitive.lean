import Rewind.Parser.Basic
import Rewind.Text.CharClass

/-! # Primitive parsers

The parsers that look at the input themselves.  Each that can fail does so at the cursor, with one
expectation, and leaves a `missed` event in the journal. -/

namespace Rewind.Parser

variable {α : Type}

def miss (s : State) (expected : Text) (actual : Option Buffer) (j : Journal) : Reply α × Journal :=
  let error : Failure := ⟨s.pos, [expected], actual⟩
  (.failed s.pos error, j.record (.missed error))

def fail (expected : Text) : Parser α where
  run s j := miss s expected (s.upcoming 1) j

def failWith (expected : Text) (actual : Option Buffer) : Parser α where
  run s j := miss s expected actual j

/-- Exactly `n` units.  A negative count never matches, nor does any count past the end. -/
def take (n : Int) : Parser Buffer where
  run s j :=
    if 0 ≤ n ∧ s.pos + n ≤ s.input.size then
      let stop := s.pos + n.toNat
      (.matched (s.input.slice s.pos stop) stop none, j)
    else miss s (decimal n ++ text " characters") (s.upcoming (max n 1).toNat) j

def literal (expected : Buffer) : Parser Buffer where
  run s j :=
    if s.input.kind ≠ expected.kind then (.fault .kindMismatch, j)
    else if s.input.startsWith s.pos expected.codes then
      (.matched expected (s.pos + expected.size) none, j)
    else miss s expected.quoted (s.upcoming expected.size) j

def takeWhile (p : Code → Bool) : Parser Buffer where
  run s j :=
    let stop := s.input.runEnd p s.pos
    (.matched (s.input.slice s.pos stop) stop none, j)

def satisfy (c : CharClass) : Parser Buffer where
  run s j :=
    match s.input.units[s.pos]? with
    | none => miss s c.expected none j
    | some x =>
      let unit := s.input.slice s.pos (s.pos + 1)
      if c.accepts x then (.matched unit (s.pos + 1) none, j) else miss s c.expected (some unit) j

def peek : Parser (Option Buffer) where
  run s j := (.matched (s.upcoming 1) s.pos none, j)

def eof : Parser Unit :=
  peek.bind fun
    | none => Parser.pure ()
    | some c => failWith (text "end of input") (some c)

/-! ## Characters -/

def char (c : Text) : Parser Buffer := satisfy (.only c)

def anyOf (cs : Text) : Parser Buffer := satisfy (.anyOf cs)

def noneOf (cs : Text) : Parser Buffer := satisfy (.noneOf cs)

def digit : Parser Buffer := satisfy .digit

def hexDigit : Parser Buffer := satisfy .hexDigit

/-- The characters that `spaces` skips unless it is told otherwise. -/
def defaultSpaces : Text := text " \n"

def spaces (cs : Text) : Parser Buffer := takeWhile cs.contains

end Rewind.Parser
