import Rewind.Json.Dialect
import Rewind.Json.Value
import Rewind.Parser.Repetition
import Rewind.Parser.Tracing
import Rewind.Text.Surrogate

/-! # JSON tokens

The rules of the grammar that do not nest: white space and punctuation, the literal words, strings
and numbers.  Those that are the same in every dialect are in the namespace `Token`. -/

namespace Rewind.Json

open Rewind.Parser

namespace Token

def verbatim (t : String) : Parser Buffer := literal (.ofText (text t))

/-! ## Parts of strings -/

/-- What the character after a backslash stands for. -/
def escapes : List (Code × Code) :=
  [(0x22, 0x22), (0x5C, 0x5C), (0x2F, 0x2F), (0x62, 0x08), (0x66, 0x0C), (0x6E, 0x0A), (0x72, 0x0D),
    (0x74, 0x09)]

def unescape (c : Code) : Code := (escapes.lookup c).getD c

def hexValue (c : Code) : Nat :=
  if c ≤ 0x39 then c - 0x30 else if c ≤ 0x46 then c - 0x37 else c - 0x57

def ofHex (digits : List Code) : Code := digits.foldl (fun n c => n * 16 + hexValue c) 0

def unicodeEscape : Parser Text :=
  (char (text "u")).right ((count 4 hexDigit).map fun ds => [ofHex (ds.flatMap Buffer.codes)])

def escape : Parser Text :=
  (char (text "\\")).right
    (((anyOf (escapes.map Prod.fst)).map fun c => c.codes.map unescape).orElse unicodeEscape)

def isPlain (c : Code) : Bool := c != 0x22 && c != 0x5C

def chunk : Parser Text :=
  (takeWhile isPlain).bind fun run =>
    if run.isEmpty then fail (text "string character") else Parser.pure run.codes

/-! ## Parts of numbers -/

def sign : Parser Buffer := (verbatim "-").orElse (verbatim "+")

def integer : Parser Literal :=
  (optional sign).bind fun s =>
    (atLeastOne digit).map fun ds => ⟨(s.map Buffer.codes).getD [], ds.flatMap Buffer.codes⟩

/-- The part of a number that one of the characters `introducers` begins.  Without an introducer the
part is absent; after one it is required. -/
def introduced (introducers : Text) : Parser (Option Literal) :=
  peek.bind fun
    | none => Parser.pure none
    | some c =>
      if c.codes.all introducers.contains then ((anyOf introducers).right integer).map some
      else Parser.pure none

end Token

namespace Dialect

open Token

variable {α : Type}

/-- A rule that reports to the journal when the dialect asks for it. -/
def reported (d : Dialect) (name : String) (p : Parser α) : Parser α :=
  if d.trace then traced (text name) p else p

/-! ## White space and punctuation -/

def whiteSpace (d : Dialect) : Parser Buffer := spaces d.whitespace

def comma (d : Dialect) : Parser Buffer := (d.whiteSpace.right (verbatim ",")).left d.whiteSpace

def colon (d : Dialect) : Parser Buffer := (d.whiteSpace.right (verbatim ":")).left d.whiteSpace

/-! ## Words -/

def null (d : Dialect) : Parser Unit := d.reported "null" ((verbatim "null").map fun _ => ())

def boolean (d : Dialect) : Parser Bool :=
  d.reported "boolean"
    (((verbatim "true").orElse (verbatim "false")).map fun word => word.codes == text "true")

/-! ## Strings -/

def stringBody (d : Dialect) : Parser Text :=
  if d.decodeEscapes then
    (zeroOrMore (escape.orElse chunk)).map fun parts => Surrogate.join parts.flatten
  else (takeWhile (· != 0x22)).map Buffer.codes

def quotedString (d : Dialect) : Parser Text :=
  d.reported "quoted_string" (between (verbatim "\"") (verbatim "\"") d.stringBody)

/-! ## Numbers -/

/-- The number that the parts of a literal make, or the fault that they make none. -/
def assembled (d : Dialect) (whole : Literal) (fraction exponent : Option Literal) :
    Parser Number :=
  match Number.assemble d.exactFractions whole fraction exponent with
  | .ok n => Parser.pure n
  | .error cause => raise cause

def number (d : Dialect) : Parser Number :=
  d.reported "number"
    (integer.bind fun whole =>
      (introduced (text ".")).bind fun fraction =>
        (introduced (text "eE")).bind fun exponent => d.assembled whole fraction exponent)

end Dialect

end Rewind.Json
