import Rewind.Text.Buffer

/-! # JSON dialects

What may differ between the documents that different programs write. -/

namespace Rewind.Json

structure Dialect where
  /-- The characters skipped between tokens. -/
  whitespace : Text
  /-- Whether the leading zeros of a fraction count. -/
  exactFractions : Bool
  /-- Whether backslash escapes in strings are decoded; if not, strings are as written. -/
  decodeEscapes : Bool
  /-- Whether anything may follow the value of a document. -/
  requireEnd : Bool
  /-- Whether rules report to the journal. -/
  trace : Bool
  deriving DecidableEq, Repr

namespace Dialect

/-- Space and line feed separate tokens, strings are as written, fractions are inexact, and what
follows the first value is ignored. -/
def lenient : Dialect where
  whitespace := text " \n"
  exactFractions := false
  decodeEscapes := false
  requireEnd := false
  trace := false

/-- All four white-space characters of the standard separate tokens, escapes are decoded, fractions
are exact, and a document is one value and nothing else. -/
def strict : Dialect where
  whitespace := text " \t\n\r"
  exactFractions := true
  decodeEscapes := true
  requireEnd := true
  trace := false

end Dialect

end Rewind.Json
