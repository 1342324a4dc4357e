import Rewind.Failure
import Rewind.Text.Blank

/-! # Lines and columns

The line and column of an offset, for people who look at a failure in an editor.  Lines and columns
count from one and only the line feed ends a line.  An offset past the end lies on the last line,
and one below zero counts from the end of the buffer when the line feeds before it are looked
for. -/

namespace Rewind

/-- A place in a named buffer. -/
structure Position where
  line : Nat
  column : Int
  name : Text
  deriving DecidableEq, Repr

namespace Position

def lineFeed : Code := 0x0A

/-- The index of the last line feed, or `-1` when there is none. -/
def lastLineFeed (units : List Code) : Int :=
  match units.reverse.findIdx? (· == lineFeed) with
  | none => -1
  | some back => units.length - 1 - back

/-- The position of an offset: one line more than there are line feeds before it, and its distance
from the last of them. -/
def ofOffset (b : Buffer) (offset : Int) (name : Text) : Position :=
  let before := b.codes.take (b.index offset)
  { line := before.count lineFeed + 1
    column := offset - lastLineFeed before
    name }

def message (p : Position) : Text :=
  trimStart (p.name ++ text " line " ++ digits p.line ++ text ", column " ++ decimal p.column)

end Position

def Failure.position (e : Failure) (b : Buffer) (name : Text) : Position :=
  Position.ofOffset b e.pos name

example : Position.ofOffset (.ofText (text "ab\ncd")) 4 [] = ⟨2, 2, []⟩ := by decide
example : Position.ofOffset (.ofText (text "ab\ncd")) (-2) [] = ⟨2, -4, []⟩ := by decide

end Rewind
