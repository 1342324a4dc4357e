import Rewind.Grammar.Expr
import Rewind.Proofs.Json.RunProperty

/-! # Properties of grammar runs

The parser of an expression is put together as the expression is, so a property that the steps of
runs keep holds of it by induction over the expression.  References are followed a bounded number of
times, and the same property passes from each rule to the references to it.

Some nodes need more than the steps of runs.  `Expr.Covers` says that a property holds of those of
them that a condition `Q` admits, and the main statement is about expressions whose nodes all satisfy
`Q`.  A property that does not notice what is reported has less to show, which is `Expr.Keeps`. -/

namespace Rewind.Expr

/-! ## Parts -/

/-- `q` is a part of an expression, or of an expression that a value may decide on. -/
inductive Part (q : Expr) : Expr → Prop where
  | self : Part q q
  | map {p f} : Part q p → Part q (.map p f)
  | bind {p f} : Part q p → Part q (.bind p f)
  | next {p f} (value : Value) : Part q (f value) → Part q (.bind p f)
  | first {p p'} : Part q p → Part q (.orElse p p')
  | second {p p'} : Part q p' → Part q (.orElse p p')
  | label {p message} : Part q p → Part q (.label p message)
  | optional {p} : Part q p → Part q (.optional p)
  | oneOf {p alternatives} : p ∈ alternatives → Part q p → Part q (.oneOf alternatives)
  | zeroOrMore {p} : Part q p → Part q (.zeroOrMore p)
  | separator {separator p} : Part q separator → Part q (.sepBy separator p)
  | separated {separator p} : Part q p → Part q (.sepBy separator p)
  | traced {title p} : Part q p → Part q (.traced title p)
  | spied {name p} : Part q p → Part q (.spied name p)
  | deferred {number name p depth} : Part q p → Part q (.deferred number name p depth)
  | made {p} : Part q p → Part q (.made p)

/-- All parts of `p` and of the rules of the grammar satisfy `Q`. -/
def Everywhere (Q : Expr → Prop) (grammar : Grammar) (p : Expr) : Prop :=
  (∀ q, Part q p → Q q) ∧ ∀ rule ∈ grammar, ∀ q, Part q rule.2 → Q q

section

variable {Q R : Expr → Prop} {grammar : Grammar} {p : Expr}

theorem Everywhere.of_forall (all : ∀ q, Q q) (p : Expr) : p.Everywhere Q grammar :=
  ⟨fun q _ => all q, fun _ _ q _ => all q⟩

theorem Everywhere.imp (all : p.Everywhere Q grammar) (weaker : ∀ q, Q q → R q) :
    p.Everywhere R grammar := by
  refine ⟨fun q part => weaker q (all.1 q part), ?_⟩
  intro rule member q part
  exact weaker q (all.2 rule member q part)

theorem Everywhere.and (first : p.Everywhere Q grammar) (second : p.Everywhere R grammar) :
    p.Everywhere (fun q => Q q ∧ R q) grammar := by
  refine ⟨fun q part => ⟨first.1 q part, second.1 q part⟩, ?_⟩
  intro rule member q part
  exact ⟨first.2 rule member q part, second.2 rule member q part⟩

end

/-! ## From parts to wholes -/

/-- Apart from the steps of runs, `Φ` holds of those special nodes that `Q` admits. -/
structure Keeps (Q : Expr → Prop) (Φ : RunProperty) : Prop extends Φ.Unobservant where
  failWith : ∀ {expected actual}, Q (.failWith expected actual) →
    (Parser.failWith expected actual : Parser Value).Obeys Φ
  label : ∀ {p message} {parser : Parser Value}, Q (.label p message) → parser.Obeys Φ →
    (parser.label message).Obeys Φ
  json : ∀ {rule d levels stack}, Q (.json rule d levels stack) →
    (rule.parser d levels stack).Obeys Φ

/-- What `Φ` needs besides the steps of runs to hold of all nodes that `Q` admits.  It may notice what
tracing does to the journal, as long as it passes from the parts of such a node to the node. -/
structure Covers (Q : Expr → Prop) (Φ : RunProperty) : Prop extends Φ.Compositional where
  failWith : ∀ {expected actual}, Q (.failWith expected actual) →
    (Parser.failWith expected actual : Parser Value).Obeys Φ
  label : ∀ {p message} {parser : Parser Value}, Q (.label p message) → parser.Obeys Φ →
    (parser.label message).Obeys Φ
  trace : ∀ title, (Parser.trace title).Obeys Φ
  traced : ∀ {parser : Parser Value} title, parser.Obeys Φ → (parser.traced title).Obeys Φ
  spied : ∀ {parser : Parser Value} name, parser.Obeys Φ → (parser.spied name).Obeys Φ
  json : ∀ {rule d levels stack}, Q (.json rule d levels stack) →
    (rule.parser d levels stack).Obeys Φ

theorem Keeps.covers {Q : Expr → Prop} {Φ : RunProperty} (keeps : Keeps Q Φ) : Covers Q Φ where
  toCompositional := keeps.toCompositional
  failWith := keeps.failWith
  label := keeps.label
  trace := Parser.obeys_trace keeps.toUnobservant
  traced title obeys := Parser.obeys_traced keeps.toUnobservant obeys title
  spied name obeys := Parser.obeys_spied keeps.toUnobservant obeys name
  json := keeps.json

open Rewind.Parser in
mutual

theorem Covers.denote {Q : Expr → Prop} {Φ : RunProperty} (covers : Covers Q Φ)
    {refs : Text → Parser Value} (named : ∀ name, (refs name).Obeys Φ) (p : Expr)
    (all : ∀ q, Part q p → Q q) : (p.denote refs).Obeys Φ := by
  have steps := covers.toCompositional
  match p with
  | .pure value => exact obeys_pure steps value
  | .fail expected => exact obeys_fail steps expected
  | .failWith expected actual => exact covers.failWith (all _ .self)
  | .raise cause => exact obeys_raise steps cause
  | .take n => exact obeys_map (obeys_take steps n) _
  | .literal expected => exact obeys_map (obeys_literal steps expected) _
  | .takeWhile accepts => exact obeys_map (obeys_takeWhile steps accepts) _
  | .satisfy c => exact obeys_map (obeys_satisfy steps c) _
  | .peek => exact obeys_map (obeys_peek steps) _
  | .eof => exact obeys_map (obeys_eof steps) _
  | .map p f => exact obeys_map (Covers.denote covers named p fun q part => all q part.map) f
  -- Whatever value comes, what the continuation makes of it is a part of the whole.
  | .bind p f =>
    apply obeys_bind steps (Covers.denote covers named p fun q part => all q part.bind)
    intro value
    exact Covers.denote covers named (f value) fun q part => all q (part.next value)
  | .orElse p q =>
    exact obeys_orElse steps (Covers.denote covers named p fun q part => all q part.first)
      (Covers.denote covers named q fun q part => all q part.second)
  | .label p message =>
    exact covers.label (all _ .self) (Covers.denote covers named p fun q part => all q part.label)
  | .optional p =>
    exact obeys_map (obeys_optional steps
      (Covers.denote covers named p fun q part => all q part.optional)) _
  | .oneOf alternatives =>
    exact obeys_oneOf steps (Covers.denoteAll covers named alternatives fun p member q part =>
      all q (part.oneOf member))
  | .zeroOrMore p =>
    exact obeys_map (obeys_zeroOrMore steps
      (Covers.denote covers named p fun q part => all q part.zeroOrMore)) _
  | .sepBy separator p =>
    exact obeys_map (obeys_sepBy steps
      (Covers.denote covers named separator fun q part => all q part.separator)
      (Covers.denote covers named p fun q part => all q part.separated)) _
  | .trace title => exact obeys_map (covers.trace title) _
  | .traced title p =>
    exact covers.traced title (Covers.denote covers named p fun q part => all q part.traced)
  | .spied name p =>
    exact covers.spied name (Covers.denote covers named p fun q part => all q part.spied)
  | .deferred number name p depth =>
    exact Covers.denote covers named p fun q part => all q part.deferred
  | .made p => exact Covers.denote covers named p fun q part => all q part.made
  | .ref name => exact named name
  | .json rule d levels stack => exact covers.json (all _ .self)

theorem Covers.denoteAll {Q : Expr → Prop} {Φ : RunProperty} (covers : Covers Q Φ)
    {refs : Text → Parser Value} (named : ∀ name, (refs name).Obeys Φ) (ps : List Expr)
    (all : ∀ p ∈ ps, ∀ q, Part q p → Q q) : ∀ parser ∈ denoteAll refs ps, parser.Obeys Φ := by
  match ps with
  | [] => exact nofun
  | p :: ps =>
    rintro parser member
    obtain rfl | member := List.mem_cons.1 member
    · exact Covers.denote covers named p (all p List.mem_cons_self)
    · exact Covers.denoteAll covers named ps
        (fun p member => all p (List.mem_cons_of_mem _ member)) parser member

end

section

variable {Q : Expr → Prop} {Φ : RunProperty} {grammar : Grammar}

theorem Covers.resolve (covers : Covers Q Φ) (rules : ∀ rule ∈ grammar, ∀ q, Part q rule.2 → Q q)
    (references : Nat) (name : Text) : (resolve grammar references name).Obeys Φ := by
  have steps := covers.toCompositional
  induction references generalizing name with
  | zero => exact Parser.obeys_raise steps _
  | succ references ih =>
    rw [Expr.resolve]
    split
    case h_1 => exact Parser.obeys_raise steps _
    case h_2 p found =>
      -- What a name refers to is a rule of the grammar, so `Q` holds of its parts.
      have member : (name, p) ∈ grammar := by
        obtain ⟨before, after, rfl, -⟩ := List.lookup_eq_some_iff.1 found
        simp
      exact covers.denote ih p (rules _ member)

/-- What the nodes of an expression and of its grammar pass on holds of all its runs. -/
theorem Covers.parser (covers : Covers Q Φ) {p : Expr} (all : p.Everywhere Q grammar) :
    (p.parser grammar).Obeys Φ := by
  intro s j
  exact covers.denote (covers.resolve all.2 _) p all.1 s j

/-- Whatever the nodes of an expression and of its grammar keep holds of all its runs. -/
theorem parser_obeys (keeps : Keeps Q Φ) {p : Expr} (all : p.Everywhere Q grammar) :
    (p.parser grammar).Obeys Φ :=
  keeps.covers.parser all

end

end Rewind.Expr
