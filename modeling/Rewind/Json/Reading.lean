import Rewind.Json.Document
import Rewind.Text.Utf8

/-! # Reading JSON

Text is parsed as it is.  Bytes are decoded as UTF-8 first; bytes that are not well formed are a
failure at the offset of the first one that begins no character. -/

namespace Rewind.Json

/-- Parses a document and keeps the journal of the run.  If the stack runs out where no member could
fail instead, the document fails. -/
def parseJournaled (d : Dialect) (input : Buffer) (levels : Nat := d.nestingLimit)
    (stack : Stack := []) : Except Fault (Except Failure Json) × Journal :=
  let run (buffer : Buffer) :=
    let (reply, j) := (guarded stack levels (d.document levels stack)).parse buffer
    (reply.result, j)
  match input.kind with
  | .text => run input
  | .bytes =>
    match Utf8.decode input.codes with
    | .ok t => run (.ofText t)
    | .error k => (.ok (.error ⟨k, [text "UTF-8 text"], some (input.slice k (k + 1))⟩), .empty)

def parse (d : Dialect) (input : Buffer) (levels : Nat := d.nestingLimit) (stack : Stack := []) :
    Except Fault (Except Failure Json) :=
  (parseJournaled d input levels stack).1

inductive LoadError where
  /-- The input is no document. -/
  | rejected (error : Failure)
  /-- The run ended with a fault. -/
  | fault (cause : Fault)
  deriving DecidableEq, Repr

def LoadError.message : LoadError → Text
  | .rejected error => error.message
  | .fault cause => cause.message

/-- Parses a document; both a failure and a fault are errors. -/
def load (d : Dialect) (input : Buffer) (levels : Nat := d.nestingLimit) (stack : Stack := []) :
    Except LoadError Json :=
  match parse d input levels stack with
  | .ok (.ok v) => .ok v
  | .ok (.error e) => .error (.rejected e)
  | .error cause => .error (.fault cause)

end Rewind.Json
