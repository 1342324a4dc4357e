import Rewind.Grammar.Rule
import Rewind.Parser.Tracing

/-! # What grammar expressions mean

`Expr.denoteWith` gives an expression the parser it stands for, once it is known what its links do:
references, lazy nodes and what continuations make.

`Expr.denote` reads a lazy node as what it builds, so that nothing depends on when it is built;
`Expr.parser` ties the knot.  Between two references to one rule on the way down a run has to
consume input, or it would go on for ever.  So no run needs to follow more references than there are
pairs of a rule and a cursor, and one that does is ended with a fault.

Programs run expressions with the caches of their lazy nodes, which is `Expr.live`. -/

namespace Rewind

/-- What an expression leaves to its surroundings. -/
structure Links where
  /-- A reference. -/
  rule : (name : Text) → Parser Value
  /-- A lazy node, given the parser of what it builds. -/
  lazily : (number : Nat) → (name : Text) → (p : Expr) → (depth : Nat) → Parser Value → Parser Value
  /-- What a continuation makes. -/
  making : Parser Value → Parser Value
  /-- A rule of the JSON grammar. -/
  json : Json.Rule → Json.Dialect → (levels : Nat) → Json.Stack → Parser Value

namespace Expr

mutual

def denoteWith (links : Links) : Expr → Parser Value
  | .pure value => .pure value
  | .fail expected => .fail expected
  | .failWith expected actual => .failWith expected actual
  | .raise cause => .raise cause
  | .take n => (Parser.take n).map .piece
  | .literal expected => (Parser.literal expected).map .piece
  | .takeWhile p => (Parser.takeWhile p).map .piece
  | .satisfy c => (Parser.satisfy c).map .piece
  | .peek => Parser.peek.map .ofPeek
  | .eof => Parser.eof.map fun _ => .null
  | .map p f => (denoteWith links p).map f
  | .bind p f => (denoteWith links p).bind fun v => denoteWith links (f v)
  | .orElse p q => (denoteWith links p).orElse (denoteWith links q)
  | .label p message => (denoteWith links p).label message
  | .optional p => (denoteWith links p).optional.map (.ofOption id)
  | .oneOf alternatives => .oneOf (denoteAllWith links alternatives)
  | .zeroOrMore p => (denoteWith links p).zeroOrMore.map .list
  | .sepBy separator p =>
    (Parser.sepBy (denoteWith links separator) (denoteWith links p)).map .list
  | .trace title => (Parser.trace title).map fun _ => .null
  | .traced title p => (denoteWith links p).traced title
  | .spied name p => (denoteWith links p).spied name
  | .deferred number name p depth => links.lazily number name p depth (denoteWith links p)
  | .made p => links.making (denoteWith links p)
  | .ref name => { run := fun s j => (links.rule name).run s j }
  | .json rule dialect levels stack => links.json rule dialect levels stack

def denoteAllWith (links : Links) : List Expr → List (Parser Value)
  | [] => []
  | p :: ps => denoteWith links p :: denoteAllWith links ps

end

/-! ## Lazy nodes read as what they build -/

/-- A lazy node is what it builds, whenever it is made and built. -/
def transparent (refs : Text → Parser Value) : Links where
  rule := refs
  lazily _ _ _ _ p := p
  making p := p
  json rule d levels stack := rule.parser d levels stack

def denote (refs : Text → Parser Value) (p : Expr) : Parser Value := p.denoteWith (transparent refs)

def denoteAll (refs : Text → Parser Value) (ps : List Expr) : List (Parser Value) :=
  denoteAllWith (transparent refs) ps

section

variable (refs : Text → Parser Value) (p q : Expr)

theorem denote_map (f : Value → Value) : (map p f).denote refs = (p.denote refs).map f := rfl

theorem denote_bind (f : Value → Expr) :
    (bind p f).denote refs = (p.denote refs).bind fun v => (f v).denote refs := rfl

theorem denote_orElse : (orElse p q).denote refs = (p.denote refs).orElse (q.denote refs) := rfl

theorem denote_oneOf (ps : List Expr) : (oneOf ps).denote refs = .oneOf (denoteAll refs ps) := rfl

theorem denoteAll_cons (ps : List Expr) :
    denoteAll refs (p :: ps) = p.denote refs :: denoteAll refs ps := rfl

theorem denote_spied (name : Text) : (spied name p).denote refs = (p.denote refs).spied name := rfl

theorem denote_right : (right p q).denote refs = (p.denote refs).right (q.denote refs) := rfl

theorem denote_left : (left p q).denote refs = (p.denote refs).left (q.denote refs) := rfl

theorem denote_between (opening closing inner : Expr) :
    (between opening closing inner).denote refs =
      Parser.between (opening.denote refs) (closing.denote refs) (inner.denote refs) := rfl

end

/-- The parser of a rule that may follow at most the given number of references. -/
def resolve (grammar : Grammar) : (references : Nat) → Text → Parser Value
  | 0, _ => .raise .endlessRecursion
  | references + 1, name =>
    match grammar.lookup name with
    | none => .raise (.unknownRule name)
    | some p => p.denote (resolve grammar references)

/-- No run from this cursor needs to follow more references: each rule at most once at each cursor
from here to the end. -/
def referenceLimit (grammar : Grammar) (s : State) : Nat := grammar.length * (s.remaining + 1) + 1

def parser (grammar : Grammar) (p : Expr) : Parser Value where
  run s j := (p.denote (resolve grammar (referenceLimit grammar s))).run s j

end Expr

end Rewind
