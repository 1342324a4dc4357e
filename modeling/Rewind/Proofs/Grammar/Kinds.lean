import Rewind.Grammar.Expr
import Rewind.Proofs.Grammar.Value
import Rewind.Proofs.Parser.Lockstep

/-! # Text and bytes

A pattern is a grammar expression that can be run on text and on bytes: it decides nothing by a value
and has every literal in two forms, as text and as the bytes of the same numbers.  On text whose
characters are all below 256, and on the bytes of these numbers, the two runs are in step.  What they
match corresponds part by part, and so does what they found where they failed; only the wording of what
was expected may differ, and with it how many expectations are listed. -/

namespace Rewind

open Rewind.Parser

/-! ## Correspondence -/

namespace Buffer

/-- The buffer of a kind whose units have the given numbers, which both kinds have. -/
def ofLatin (kind : Kind) (t : List (Fin 256)) : Buffer := ⟨kind, (t.map Fin.val).toArray⟩

def inBytes (b : Buffer) : Buffer := { b with kind := .bytes }

variable (b : Buffer)

theorem rest_inBytes (pos : Nat) : b.inBytes.rest pos = b.rest pos := rfl

theorem slice_inBytes (start stop : Nat) : b.inBytes.slice start stop = (b.slice start stop).inBytes :=
  rfl

theorem upcoming_inBytes (pos n : Nat) :
    b.inBytes.upcoming pos n = (b.upcoming pos n).map inBytes := by
  rw [upcoming_eq, upcoming_eq, rest_inBytes, slice_inBytes]
  split <;> rfl

theorem runEnd_inBytes (p : Code → Bool) (pos : Nat) : b.inBytes.runEnd p pos = b.runEnd p pos := by
  rw [runEnd_eq, runEnd_eq, rest_inBytes]

end Buffer

def Value.inBytes : Value → Value :=
  mapLeaves fun
    | .piece b => .piece b.inBytes
    | other => other

abbrev Value.Corresponds (v w : Value) : Prop := w = v.inBytes

def Failure.SameSpot (e e' : Failure) : Prop :=
  e'.pos = e.pos ∧ e'.actual = e.actual.map Buffer.inBytes

namespace Pairing

def bytes (b : Buffer) : Pairing where
  left := b
  right := b.inBytes
  like := Failure.SameSpot
  faults _ := False
  size_eq := rfl
  pos_eq same := same.1
  merge := by
    intro a a' c c' first second
    simp only [Failure.SameSpot, Failure.merge, first.1, second.1]
    split
    · exact first
    · split
      · exact second
      · exact ⟨rfl, first.2⟩
  reword _ same := same
  missed pos _ n := ⟨rfl, b.upcoming_inBytes pos n⟩

namespace InStep

variable {b : Buffer}

/-! ## Primitives -/

/-- Both runs come to the same decision. -/
theorem decided {α β : Type} {π : Pairing} {V : α → β → Prop} {c c' : Prop} [Decidable c]
    [Decidable c'] {x y : Reply α × Journal} {x' y' : Reply β × Journal} (same : c ↔ c')
    (yes : c → Reply.InStep π V x.1 x'.1) (no : ¬ c → Reply.InStep π V y.1 y'.1) :
    Reply.InStep π V (if c then x else y).1 (if c' then x' else y').1 := by
  by_cases holds : c
  · rw [if_pos holds, if_pos (same.1 holds)]
    exact yes holds
  · rw [if_neg holds, if_neg fun holds' => holds (same.2 holds')]
    exact no holds

theorem take (n : Int) :
    (bytes b).InStep (fun x y => y = x.inBytes) (Parser.take n) (Parser.take n) := by
  intro pos j k
  refine decided (π := bytes b) (c := 0 ≤ n ∧ pos + n ≤ b.size) Iff.rfl (fun _ => ?_) fun _ => ?_
  · exact .matched rfl .none
  · exact .failed ((bytes b).missed pos _ _)

theorem literal_run {expected : Buffer} {s : State} (kind : s.input.kind = expected.kind) (j : Journal) :
    (Parser.literal expected).run s j =
      if s.input.startsWith s.pos expected.codes then
        (.matched expected (s.pos + expected.size) none, j)
      else miss s expected.quoted (s.upcoming expected.size) j :=
  if_neg (not_not_intro kind)

/-- Each form of a literal meets its like. -/
theorem literal (kind : b.kind = .text) (t : List (Fin 256)) :
    (bytes b).InStep (fun x y => y = x.inBytes) (Parser.literal (.ofLatin .text t))
      (Parser.literal (.ofLatin .bytes t)) := by
  intro pos j k
  have kind' : (bytes b).right.kind = (Buffer.ofLatin .bytes t).kind := rfl
  rw [literal_run kind, literal_run kind']
  refine decided (π := bytes b) Iff.rfl (fun _ => ?_) fun _ => ?_
  · exact .matched rfl .none
  · exact .failed ⟨rfl, b.upcoming_inBytes pos _⟩

theorem takeWhile (p : Code → Bool) :
    (bytes b).InStep (fun x y => y = x.inBytes) (Parser.takeWhile p) (Parser.takeWhile p) := by
  intro pos j k
  have same : (bytes b).right.runEnd p pos = b.runEnd p pos := b.runEnd_inBytes p pos
  simp only [Parser.takeWhile, same]
  exact .matched rfl .none

theorem satisfy (c : CharClass) :
    (bytes b).InStep (fun x y => y = x.inBytes) (Parser.satisfy c) (Parser.satisfy c) := by
  intro pos j k
  simp only [Parser.satisfy]
  split
  case h_1 none =>
    have none' : (⟨(bytes b).right, pos⟩ : State).input.units[pos]? = .none := none
    simp only [none']
    exact .failed ⟨rfl, rfl⟩
  case h_2 x some =>
    have some' : (⟨(bytes b).right, pos⟩ : State).input.units[pos]? = .some x := some
    simp only [some']
    refine decided (π := bytes b) (c := c.accepts x) Iff.rfl (fun _ => ?_) fun _ => ?_
    · exact .matched rfl .none
    · exact .failed ⟨rfl, rfl⟩

theorem peek :
    (bytes b).InStep (fun x y => y = x.map Buffer.inBytes) Parser.peek Parser.peek :=
  fun pos _ _ => .matched (b.upcoming_inBytes pos 1) .none

theorem eof : (bytes b).InStep Eq Parser.eof Parser.eof := by
  refine peek.bind fun x y same => ?_
  subst same
  cases x with
  | none => exact .pure rfl
  | some c => exact fun _ _ _ => .failed ⟨rfl, rfl⟩

end InStep

end Pairing

/-! ## Patterns -/

/-- What can be run on text and on bytes.  A class of characters takes a byte for the character of the
same number. -/
inductive Pattern where
  | take (n : Int)
  | literal (t : List (Fin 256))
  | takeWhile (p : Code → Bool)
  | satisfy (c : CharClass)
  | peek
  | eof
  | fail (expected : Text)
  | optional (p : Pattern)
  | zeroOrMore (p : Pattern)
  | atLeastOne (p : Pattern)
  | orElse (p q : Pattern)
  | both (p q : Pattern)
  | right (p q : Pattern)
  | left (p q : Pattern)
  | oneOf (alternatives : List Pattern)
  | sepBy (separator p : Pattern)
  | count (n : Nat) (p : Pattern)
  | between (opening closing inner : Pattern)
  | label (p : Pattern) (message : Text)

namespace Pattern

mutual

def expr (kind : Kind) : Pattern → Expr
  | .take n => .take n
  | .literal t => .literal (.ofLatin kind t)
  | .takeWhile p => .takeWhile p
  | .satisfy c => .satisfy c
  | .peek => .peek
  | .eof => .eof
  | .fail expected => .fail expected
  | .optional p => .optional (p.expr kind)
  | .zeroOrMore p => .zeroOrMore (p.expr kind)
  | .atLeastOne p => (p.expr kind).atLeastOne
  | .orElse p q => .orElse (p.expr kind) (q.expr kind)
  | .both p q => (p.expr kind).both (q.expr kind)
  | .right p q => (p.expr kind).right (q.expr kind)
  | .left p q => (p.expr kind).left (q.expr kind)
  | .oneOf alternatives => .oneOf (exprs kind alternatives)
  | .sepBy separator p => .sepBy (separator.expr kind) (p.expr kind)
  | .count n p => .count n (p.expr kind)
  | .between opening closing inner =>
    .between (opening.expr kind) (closing.expr kind) (inner.expr kind)
  | .label p message => .label (p.expr kind) message

def exprs (kind : Kind) : List Pattern → List Expr
  | [] => []
  | p :: ps => p.expr kind :: exprs kind ps

end

/-! ## What patterns match -/

theorem inBytes_list (items : List Value) :
    (Value.list items).inBytes = .list (items.map Value.inBytes) := by
  rw [Value.inBytes, Value.mapLeaves, Value.mapItems_eq_map]

theorem inBytes_tuple (items : List Value) :
    (Value.tuple items).inBytes = .tuple (items.map Value.inBytes) := by
  rw [Value.inBytes, Value.mapLeaves, Value.mapItems_eq_map]

theorem inBytes_piece (b : Buffer) : (Value.piece b).inBytes = .piece b.inBytes := by
  simp only [Value.inBytes, Value.mapLeaves]

theorem inBytes_consValue (x v : Value) :
    (Expr.consValue x v).inBytes = Expr.consValue x.inBytes v.inBytes := by
  cases v with
  | list items => rw [Expr.consValue, inBytes_list, inBytes_list, Expr.consValue, List.map_cons]
  | tuple items => simp only [Expr.consValue, inBytes_tuple]
  | _ => rfl

section

variable {b : Buffer} {p q p' q' : Parser Value}

open Value

theorem inStep_piece {p q : Parser Buffer}
    (step : (Pairing.bytes b).InStep (fun x y => y = x.inBytes) p q) :
    (Pairing.bytes b).InStep Corresponds (p.map .piece) (q.map .piece) :=
  step.map fun x y same => by rw [Corresponds, inBytes_piece, same]

/-- Rounds produce lists. -/
theorem inStep_list {p q : Parser (List Value)}
    (step : (Pairing.bytes b).InStep (List.Forall₂ Corresponds) p q) :
    (Pairing.bytes b).InStep Corresponds (p.map .list) (q.map .list) := by
  refine step.map fun xs ys same => ?_
  rw [Corresponds, inBytes_list]
  refine congrArg Value.list ?_
  induction same with
  | nil => rfl
  | cons head _ ih => rw [head, ih, List.map_cons]

theorem inStep_cons (first : (Pairing.bytes b).InStep Corresponds p q)
    (rest : (Pairing.bytes b).InStep Corresponds p' q') :
    (Pairing.bytes b).InStep Corresponds (p.bind fun x => p'.map (Expr.consValue x))
      (q.bind fun x => q'.map (Expr.consValue x)) :=
  first.bind fun x _ same => rest.map fun v _ same' => by
    rw [Corresponds, inBytes_consValue, same, same']

theorem inStep_pair (first : (Pairing.bytes b).InStep Corresponds p q)
    (rest : (Pairing.bytes b).InStep Corresponds p' q') :
    (Pairing.bytes b).InStep Corresponds (p.bind fun x => p'.map fun y => .tuple [x, y])
      (q.bind fun x => q'.map fun y => .tuple [x, y]) :=
  first.bind fun x _ same => rest.map fun v _ same' => by
    rw [Corresponds, inBytes_tuple, same, same', List.map_cons, List.map_cons, List.map_nil]

end

mutual

/-- The two forms of a pattern are in step. -/
theorem inStep_expr {refs refs' : Text → Parser Value} {b : Buffer} (kind : b.kind = .text)
    (p : Pattern) :
    (Pairing.bytes b).InStep Value.Corresponds ((p.expr .text).denote refs)
      ((p.expr .bytes).denote refs') := by
  match p with
  | .take n => exact inStep_piece (.take n)
  | .literal t => exact inStep_piece (.literal kind t)
  | .takeWhile p => exact inStep_piece (.takeWhile p)
  | .satisfy c => exact inStep_piece (.satisfy c)
  | .peek =>
    refine Pairing.InStep.peek.map fun x y same => ?_
    subst same
    cases x with
    | none => rfl
    | some x => exact (inBytes_piece x).symm
  | .eof => exact Pairing.InStep.eof.map fun _ _ _ => rfl
  | .fail expected => exact .fail expected
  | .optional p =>
    refine (inStep_expr kind p).optional.map fun x y same => ?_
    cases same with
    | none => rfl
    | some same => exact same
  | .zeroOrMore p => exact inStep_list (inStep_expr kind p).zeroOrMore
  | .atLeastOne p =>
    exact inStep_cons (inStep_expr kind p) (inStep_list (inStep_expr kind p).zeroOrMore)
  | .orElse p q => exact (inStep_expr kind p).orElse (inStep_expr kind q)
  | .both p q => exact inStep_pair (inStep_expr kind p) (inStep_expr kind q)
  -- Derived expressions are first read as their own parsers, so that no continuations are compared.
  | .right p q =>
    rw [expr, expr, Expr.denote_right, Expr.denote_right]
    exact (inStep_expr kind p).right (inStep_expr kind q)
  | .left p q =>
    rw [expr, expr, Expr.denote_left, Expr.denote_left]
    exact (inStep_expr kind p).left (inStep_expr kind q)
  | .oneOf alternatives => exact .oneOf (inStep_exprs kind alternatives)
  | .sepBy separator p =>
    exact inStep_list ((inStep_expr kind separator).sepBy (inStep_expr kind p))
  | .count n p =>
    rw [expr, expr]
    -- The pattern stays the same while it is repeated.
    induction n with
    | zero => exact .pure (inBytes_list []).symm
    | succ n ih => exact inStep_cons (inStep_expr kind p) ih
  | .between opening closing inner =>
    rw [expr, expr, Expr.denote_between, Expr.denote_between]
    exact (inStep_expr kind opening).between (inStep_expr kind closing) (inStep_expr kind inner)
  | .label p message => exact (inStep_expr kind p).label message

theorem inStep_exprs {refs refs' : Text → Parser Value} {b : Buffer} (kind : b.kind = .text)
    (ps : List Pattern) :
    List.Forall₂ ((Pairing.bytes b).InStep Value.Corresponds)
      (Expr.denoteAll refs (exprs .text ps)) (Expr.denoteAll refs' (exprs .bytes ps)) := by
  match ps with
  | [] => exact .nil
  | p :: ps => exact .cons (inStep_expr kind p) (inStep_exprs kind ps)

end

/-- From the same cursor in text and in its bytes, a pattern either matches twice, up to one cursor and
with values that correspond, or fails twice; ghosts are there twice or not at all, and failures lie at
one offset and have found corresponding units.  No run ends with a fault. -/
theorem run_in_bytes (p : Pattern) (grammar : Grammar) (t : List (Fin 256)) (pos : Nat)
    (j k : Journal) :
    let onText := (((p.expr .text).parser grammar).run ⟨.ofLatin .text t, pos⟩ j).1
    let onBytes := (((p.expr .bytes).parser grammar).run ⟨.ofLatin .bytes t, pos⟩ k).1
    (∃ v stop ghost ghost', onText = .matched v stop ghost ∧ onBytes = .matched v.inBytes stop ghost' ∧
        Option.Rel Failure.SameSpot ghost ghost') ∨
      ∃ start e e', onText = .failed start e ∧ onBytes = .failed start e' ∧ e.SameSpot e' := by
  intro onText onBytes
  have step : Reply.InStep (Pairing.bytes (.ofLatin .text t)) Value.Corresponds onText onBytes :=
    inStep_expr rfl p pos j k
  clear_value onText onBytes
  cases step with
  | matched same ghosts =>
    exact .inl ⟨_, _, _, _, rfl, by rw [same], ghosts⟩
  | failed like => exact .inr ⟨_, _, _, rfl, rfl, like⟩
  | fault admitted => exact admitted.elim

end Pattern

end Rewind
