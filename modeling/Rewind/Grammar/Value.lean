import Rewind.Json.Value

/-! # Values of grammars

A grammar that is put together while the program runs has parsers of many types.  Their values are
all of one type here, which has a form for each. -/

namespace Rewind

inductive Value where
  | null
  | bool (value : Bool)
  /-- A piece of a buffer, text or bytes. -/
  | piece (value : Buffer)
  | int (value : Int)
  | float (value : Float)
  | literal (value : Literal)
  /-- What an optional part produces that is not there. -/
  | absent
  | list (items : List Value)
  | tuple (items : List Value)
  | dict (entries : List (Text × Value))
  deriving Inhabited

namespace Value

def ofText (t : Text) : Value := .piece (.ofText t)

def ofNumber : Number → Value
  | .int n => .int n
  | .float x => .float x

def ofOption {α : Type} (f : α → Value) : Option α → Value
  | none => .absent
  | some x => f x

def ofPeek : Option Buffer → Value
  | none => .null
  | some b => .piece b

mutual

def ofJson : Json → Value
  | .null => .null
  | .bool b => .bool b
  | .number n => ofNumber n
  | .string t => ofText t
  | .array items => .list (ofItems items)
  | .object entries => .dict (ofEntries entries)

def ofItems : List Json → List Value
  | [] => []
  | item :: items => ofJson item :: ofItems items

def ofEntries : List (Text × Json) → List (Text × Value)
  | [] => []
  | (key, value) :: entries => (key, ofJson value) :: ofEntries entries

end

/-! ## Functions that grammars map over values -/

/-- The characters of a piece of text or of bytes; nothing for other values. -/
def characters : Value → Text
  | .piece b => b.codes
  | _ => []

def size : Value → Nat
  | .piece b => b.size
  | .list items => items.length
  | .tuple items => items.length
  | .dict entries => entries.length
  | _ => 0

def joined : Value → Value
  | .list items => ofText (items.flatMap characters)
  | .tuple items => ofText (items.flatMap characters)
  | other => other

def reversed : Value → Value
  | .piece b => .piece ⟨b.kind, b.units.reverse⟩
  | .list items => .list items.reverse
  | .tuple items => .tuple items.reverse
  | other => other

def decimalValue (v : Value) : Int := Literal.magnitude v.characters

end Value

end Rewind
