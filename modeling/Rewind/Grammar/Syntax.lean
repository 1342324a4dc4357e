import Rewind.Fault
import Rewind.Grammar.Value
import Rewind.Json.Rule
import Rewind.Text.CharClass

/-! # Grammar expressions

A grammar as data: an expression says how a parser is put together from the primitives and
combinators of this library, the rules of the JSON grammar included.  Expressions may refer to rules
by name, and the rules of a grammar may be recursive.

A lazy node is an expression with a cache.  It is made when the expression around it is made, and what
it stands for is built when it is first attempted.  Most nodes are made once, with the whole expression.
Those that a continuation makes, which is run whenever the part in front of it has matched, are made anew
each time. -/

namespace Rewind

/-- How a parser is put together. -/
inductive Expr where
  | pure (value : Value)
  /-- Fails; what was found is the upcoming unit. -/
  | fail (expected : Text)
  /-- Fails with a given account of what was found. -/
  | failWith (expected : Text) (actual : Option Buffer)
  /-- Ends the run. -/
  | raise (cause : Fault)
  | take (n : Int)
  | literal (expected : Buffer)
  | takeWhile (p : Code → Bool)
  | satisfy (c : CharClass)
  | peek
  | eof
  | map (p : Expr) (f : Value → Value)
  | bind (p : Expr) (f : Value → Expr)
  | orElse (p q : Expr)
  | label (p : Expr) (message : Text)
  | optional (p : Expr)
  | oneOf (alternatives : List Expr)
  | zeroOrMore (p : Expr)
  | sepBy (separator p : Expr)
  | trace (title : Text)
  | traced (title : Text) (p : Expr)
  | spied (name : Text) (p : Expr)
  /-- A lazy node, whose number tells it from the others that were made with it: with the whole
  expression, or inside the given number of makings. -/
  | deferred (number : Nat) (name : Text) (p : Expr) (depth : Nat := 0)
  /-- What a continuation makes: its lazy nodes are new at every attempt. -/
  | made (p : Expr)
  /-- A rule of the grammar, by its name.  All references to a rule are one lazy node. -/
  | ref (name : Text)
  | json (rule : Json.Rule) (dialect : Json.Dialect) (levels : Nat) (stack : Json.Stack := [])
  deriving Inhabited

abbrev Grammar := List (Text × Expr)

namespace Expr

/-! ## Derived expressions -/

def char (c : Text) : Expr := .satisfy (.only c)

def anyOf (cs : Text) : Expr := .satisfy (.anyOf cs)

def noneOf (cs : Text) : Expr := .satisfy (.noneOf cs)

def digit : Expr := .satisfy .digit

def hexDigit : Expr := .satisfy .hexDigit

def spaces (cs : Text) : Expr := .takeWhile cs.contains

def both (p q : Expr) : Expr := p.bind fun x => q.map fun y => .tuple [x, y]

def right (p q : Expr) : Expr := p.bind fun _ => q

def left (p q : Expr) : Expr := p.bind fun x => q.map fun _ => x

def between (opening closing inner : Expr) : Expr :=
  opening.bind fun _ => inner.bind fun x => closing.map fun _ => x

def consValue (x : Value) : Value → Value
  | .list xs => .list (x :: xs)
  | other => other

def atLeastOne (p : Expr) : Expr := p.bind fun x => p.zeroOrMore.map (consValue x)

def count : (n : Nat) → Expr → Expr
  | 0, _ => .pure (.list [])
  | n + 1, p => p.bind fun x => (count n p).map (consValue x)

/-! ## Expressions that a value decides on -/

def literalOf : Value → Expr
  | .piece b => .literal b
  | _ => .raise .kindMismatch

/-- The text `t`, as often as the digits say. -/
def repetitionOf (t : Text) (v : Value) : Expr :=
  .literal (.ofText (List.replicate v.decimalValue.toNat t).flatten)

/-- The case of a value, or else `other`. -/
def caseOf (cases : List (Text × Expr)) (other : Expr) (v : Value) : Expr :=
  (cases.lookup v.characters).getD other

end Expr

end Rewind
