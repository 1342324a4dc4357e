import Rewind.Json.Rule
import Rewind.Json.Token

/-! # JSON documents

The rules of the grammar that nest.  A value is told apart by its first character: only an object
begins with a brace and only an array with a bracket, so the alternatives that cannot match are
passed over, and what they would have expected is added to the failures that follow.

Nesting is limited.  `d.nested n` reads values that nest at most `n` levels deep; a member that
would go deeper fails in its place, with `shallower nesting` as what was expected.  So does a member
during which the stack runs out, wherever its reading had come to. -/

namespace Rewind.Json

open Rewind.Parser Token

/-! ## Marks

Silent events, by which statements about a run can speak of the attempts it made. -/

/-- Every attempt to read a value leaves this mark. -/
def valueMark : Text := text "value"

def containerMark : Text := text "container"

def limitMark : Text := text "limit"

def tooDeep : Parser Json := marking limitMark (fail (text "shallower nesting"))

/-! ## The stack -/

/-- A value during whose reading the stack runs out.  What began is left as it is, without a word of how
it ended. -/
def unwound (kept : Nat) (p : Parser Json) : Parser Json where
  run s j := tooDeep.run s ((p.run s j).2.upTo (j.past.length + kept))

def guarded (stack : Stack) (level : Nat) (p : Parser Json) : Parser Json where
  run s j :=
    match stack.kept? level s.pos with
    | none => p.run s j
    | some kept => (unwound kept p).run s j

namespace Dialect

/-! ## Values, given the parser of their members -/

def entry {α : Type} (d : Dialect) (member : Parser α) : Parser (Text × α) :=
  d.quotedString.bind fun key => d.colon.bind fun _ => member.map fun value => (key, value)

def braced (d : Dialect) (member : Parser Json) : Parser Json :=
  ((verbatim "\x7b").left d.whiteSpace).right <|
    (rounds (d.entry member) (d.comma.right (d.entry member))).bind fun members =>
      (d.whiteSpace.right (verbatim "\x7d")).map fun _ => ofMembers members

/-- An array and the white space after it. -/
def bracketed (d : Dialect) (member : Parser Json) : Parser Json :=
  ((verbatim "[").left d.whiteSpace).right <|
    (rounds member (d.comma.right member)).bind fun items =>
      ((d.whiteSpace.right (verbatim "]")).left d.whiteSpace).map fun _ => .array items

def scalar (d : Dialect) : Parser Json :=
  oneOf [d.quotedString.map .string, d.boolean.map .bool, d.null.map fun _ => .null,
    d.number.map .number]

/-- A container, whose end is reported when the dialect asks for it. -/
def container (d : Dialect) (name : String) (p : Parser Json) : Parser Json :=
  marking containerMark (if d.trace then concluded (text name) p else p)

/-- White space and a value, whose members `member` reads. -/
def valueOver (d : Dialect) (member : Parser Json) : Parser Json :=
  marking valueMark <| d.whiteSpace.right <| peek.bind fun c =>
    if c = some (.ofText (text "\x7b")) then d.container "object" (d.braced member)
    else if c = some (.ofText (text "[")) then
      d.container "array" (passing [quoted (text "\x7b")] (d.bracketed member))
    else passing [quoted (text "\x7b"), quoted (text "[")] d.scalar

/-! ## Nesting -/

/-- How deep the values of a document may nest.  Each level takes a part of the stack, and the rules
that read what is inside the last one need room for themselves. -/
def nestingLimit (d : Dialect) : Nat :=
  980 - (if d.decodeEscapes then 8 else 0) - (if d.trace then 10 else 0)

/-- White space and a value that nests at most the given number of levels deep. -/
def nested (d : Dialect) (levels : Nat) (stack : Stack := []) : Parser Json :=
  match levels with
  | 0 => tooDeep
  | levels + 1 =>
    { run := fun s j => (d.valueOver (guarded stack levels (nested d levels stack))).run s j }

theorem nested_succ_on (d : Dialect) (levels : Nat) (stack : Stack) :
    d.nested (levels + 1) stack = d.valueOver (guarded stack levels (d.nested levels stack)) := rfl

theorem nested_succ (d : Dialect) (levels : Nat) :
    d.nested (levels + 1) = d.valueOver (d.nested levels) := rfl

/-! ## Rules -/

def openedBy (d : Dialect) (levels : Nat) (opening : String) (stack : Stack := []) : Parser Json :=
  peek.bind fun c =>
    if c = some (.ofText (text opening)) then d.nested levels stack else fail (quoted (text opening))

def object (d : Dialect) (levels : Nat) (stack : Stack := []) : Parser Json :=
  d.openedBy levels "\x7b" stack

def array (d : Dialect) (levels : Nat) (stack : Stack := []) : Parser Json :=
  d.openedBy levels "[" stack

def value (d : Dialect) (levels : Nat) (stack : Stack := []) : Parser Json :=
  d.reported "value" (d.nested levels stack)

def keyValuePair (d : Dialect) (levels : Nat) (stack : Stack := []) : Parser (Text × Json) :=
  d.entry (d.value levels stack)

/-- A whole document: a value, and nothing after it but white space if the dialect says so. -/
def document (d : Dialect) (levels : Nat) (stack : Stack := []) : Parser Json :=
  if d.requireEnd then ((d.value levels stack).left d.whiteSpace).left eof else d.value levels stack

/-! ## Examples -/

example :
    (strict.document 3).parse (.ofText (text "[1, \x7b\"a\": null\x7d]"))
      |>.1.result matches .ok (.ok (.array [.number (.int 1), .object [([0x61], .null)]])) := by
  decide +kernel

example : ((lenient.document 3).parse (.ofText (text "[1,]"))).1 =
    .failed 0
      ⟨3, [quoted (text "\x7b"), quoted (text "["), quoted (text "\""), quoted (text "true"),
        quoted (text "false"), quoted (text "null"), quoted (text "-"), quoted (text "+"),
        text "digit"], some (.ofText (text "]"))⟩ := by
  decide +kernel

example : ((lenient.document 1).parse (.ofText (text "[[]]"))).1 =
    .failed 0 ⟨1, [text "shallower nesting", quoted (text "]")], some (.ofText (text "["))⟩ := by
  decide +kernel

end Dialect

end Rewind.Json
