import Rewind.Grammar.Expr

/-! # Expressions at work

A lazy node has a cache, which is empty when the node is made.  An attempt of the node first fills the
cache, if that has not been done before, with what the node builds, and then runs what is in the cache.
The caches are kept in the journal, by nodes, and so a further run finds filled what earlier runs have
filled.

What a continuation makes is made anew whenever the part in front of it has matched.  Its lazy nodes are
told apart by the making that they come from.

Running what is in a cache takes a part of the stack.  How deep such runs may be inside each other is up
to the program; one that goes deeper is ended with a fault. -/

namespace Rewind

namespace Parser

variable {α : Type}

def inside (scope : List Nat) (p : Parser α) : Parser α where
  run s j :=
    let done := p.run s { j with scope }
    (done.1, { done.2 with scope := j.scope })

def making (p : Parser α) : Parser α where
  run s j := (p.inside (j.scope ++ [j.makings])).run s { j with makings := j.makings + 1 }

/-- Runs what is in the cache of a node, as `called` says; if there is nothing yet, `thunk` is what the
node builds. -/
def cached (node : Node) (thunk : Expr) (called : Expr → Parser α) : Parser α where
  run s j :=
    let j := j.record (.reached node s.pos)
    match j.content? node with
    | some p => (called p).run s j
    | none => (called thunk).run s (j.fill node thunk)

end Parser

namespace Expr

/-- Lazy nodes run as `cell` says, given the node and what it builds. -/
def lazyLinks (grammar : Grammar) (cell : Node → Expr → Parser Value) : Links where
  rule name :=
    match grammar.lookup name with
    | none => .raise (.unknownRule name)
    | some p => (cell (.rule name) p).inside []
  lazily number name p depth _ :=
    { run := fun s j =>
        let makings := j.scope.take depth
        ((cell (.numbered makings number name) p).inside makings).run s j }
  making := Parser.making
  json rule d levels stack :=
    match rule with
    | .keyValuePair =>
      -- Pairs refer to values before there are any.
      let value := cell (.values d levels stack) (.json .value d levels stack)
      (d.entry value).map fun (key, v) => .tuple [.ofText key, v]
    | rule => rule.parser d levels stack

/-- An expression at work.  What is in caches may be run `depth` deep, less one. -/
def live (grammar : Grammar) : (depth : Nat) → Expr → Parser Value
  | 0, _ => .raise .endlessRecursion
  | depth + 1, p =>
    p.denoteWith (lazyLinks grammar fun node thunk => .cached node thunk (live grammar depth))

def stackDepth : Nat := 100000

end Expr

end Rewind
