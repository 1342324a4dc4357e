import Rewind.Grammar.Value
import Rewind.Json.Document

/-! # Rules of the JSON grammar as parsers of one type -/

namespace Rewind.Json

def Rule.parser (d : Dialect) (levels : Nat) (rule : Rule) (stack : Stack := []) : Parser Value :=
  match rule with
  | .value => (d.value levels stack).map .ofJson
  | .document => (d.document levels stack).map .ofJson
  | .object => (d.object levels stack).map .ofJson
  | .array => (d.array levels stack).map .ofJson
  | .quotedString => d.quotedString.map .ofText
  | .boolean => d.boolean.map .bool
  | .null => d.null.map fun _ => .null
  | .number => d.number.map .ofNumber
  | .integer => Token.integer.map .literal
  | .sign => Token.sign.map .piece
  | .keyValuePair =>
    (d.keyValuePair levels stack).map fun (key, v) => .tuple [.ofText key, .ofJson v]
  | .whiteSpace => d.whiteSpace.map .piece
  | .comma => d.comma.map .piece
  | .colon => d.colon.map .piece

end Rewind.Json
