import Rewind.Grammar.Live
import Rewind.Proofs.Json.Script
import Rewind.Proofs.Parser.Parallel

/-! # Expressions side by side

An expression stands for different parsers in different surroundings.  They run side by side if what the
expression leaves to its surroundings does.  What a lazy node builds, and what a continuation makes, may
run where other journals are related than around it, and so the journals are related in as many ways as
there are contexts. -/

namespace Rewind.Expr

open Rewind.Parser

/-- `Q` holds of the parts that run in the same context as the whole, whatever the values are that decide
on them. -/
def Parts (Q : Expr → Prop) : Expr → Prop
  | .map p _ | .label p _ | .optional p | .zeroOrMore p | .traced _ p | .spied _ p => Q p
  | .bind p f => Q p ∧ ∀ v, Q (f v)
  | .orElse p q | .sepBy p q => Q p ∧ Q q
  | .oneOf ps => ∀ p ∈ ps, Q p
  | _ => True

/-- What is asked of the surroundings of expressions, where `Q` says which expressions may run in which
contexts. -/
structure Paired {C : Type} (D : State → Prop) (R : C → Relation) (Q : C → Expr → Prop)
    (links links' : Links) : Prop where
  parts : ∀ {c p}, Q c p → p.Parts (Q c)
  stays : ∀ p : Expr, (p.denoteWith links).Stays D
  rule : ∀ {c name}, Q c (.ref name) → Parallel D (R c) (links.rule name) (links'.rule name)
  lazily : ∀ {c number name p depth}, Q c (.deferred number name p depth) →
    (∀ c', Q c' p → Parallel D (R c') (p.denoteWith links) (p.denoteWith links')) →
    Parallel D (R c) (links.lazily number name p depth (p.denoteWith links))
      (links'.lazily number name p depth (p.denoteWith links'))
  making : ∀ {c p}, Q c (.made p) →
    (∀ c', Q c' p → Parallel D (R c') (p.denoteWith links) (p.denoteWith links')) →
    Parallel D (R c) (links.making (p.denoteWith links)) (links'.making (p.denoteWith links'))
  json : ∀ {c rule d levels stack}, Q c (.json rule d levels stack) →
    Parallel D (R c) (links.json rule d levels stack) (links'.json rule d levels stack)

section

variable {C : Type} {D : State → Prop} {R : C → Relation} {Q : C → Expr → Prop} {links links' : Links}

mutual

theorem Paired.denoteWith (paired : Paired D R Q links links') (p : Expr) {c : C} (fits : Q c p) :
    Parallel D (R c) (p.denoteWith links) (p.denoteWith links') := by
  have parts := paired.parts fits
  match p with
  | .pure value => exact .of_scripted (scripted_pure value)
  | .fail expected => exact .of_scripted (scripted_fail expected)
  | .failWith expected actual => exact .of_scripted (scripted_failWith expected actual)
  | .raise cause => exact .of_scripted (scripted_raise cause)
  | .take n => exact .of_scripted (scripted_map (scripted_take n) _)
  | .literal expected => exact .of_scripted (scripted_map (scripted_literal expected) _)
  | .takeWhile accepts => exact .of_scripted (scripted_map (scripted_takeWhile accepts) _)
  | .satisfy char => exact .of_scripted (scripted_map (scripted_satisfy char) _)
  | .peek => exact .of_scripted (scripted_map scripted_peek _)
  | .eof => exact .of_scripted (scripted_map scripted_eof _)
  | .map p f => exact (paired.denoteWith p parts).map f
  | .bind p f =>
    exact (paired.denoteWith p parts.1).bind (paired.stays p) fun v =>
      paired.denoteWith (f v) (parts.2 v)
  | .orElse p q => exact (paired.denoteWith p parts.1).orElse (paired.denoteWith q parts.2)
  | .label p message => exact (paired.denoteWith p parts).label message
  | .optional p => exact (paired.denoteWith p parts).optional.map _
  | .oneOf alternatives => exact .oneOf (paired.denoteAllWith alternatives parts)
  | .zeroOrMore p => exact ((paired.denoteWith p parts).zeroOrMore (paired.stays p)).map _
  | .sepBy separator p =>
    exact ((paired.denoteWith separator parts.1).sepBy (paired.stays separator)
      (paired.denoteWith p parts.2) (paired.stays p)).map _
  | .trace title => exact .of_scripted (scripted_map (scripted_trace title) _)
  | .traced title p => exact (paired.denoteWith p parts).traced title
  | .spied name p => exact (paired.denoteWith p parts).spied name
  -- What is built or made runs in a context of its own, so it has to run alike in all of them.
  | .deferred number name p depth => exact paired.lazily fits fun c' => paired.denoteWith p
  | .made p => exact paired.making fits fun c' => paired.denoteWith p
  | .ref name => exact paired.rule fits
  | .json rule d levels stack => exact paired.json fits

theorem Paired.denoteAllWith (paired : Paired D R Q links links') (ps : List Expr) {c : C}
    (fits : ∀ p ∈ ps, Q c p) :
    List.Forall₂ (Parallel D (R c)) (denoteAllWith links ps) (denoteAllWith links' ps) := by
  match ps with
  | [] => exact .nil
  | p :: ps =>
    exact .cons (paired.denoteWith p (fits p List.mem_cons_self))
      (paired.denoteAllWith ps fun q member => fits q (List.mem_cons_of_mem _ member))

end

end

/-! ## Rules of the JSON grammar -/

section

variable (grammar : Grammar) (cell : Node → Expr → Parser Value) {d : Json.Dialect} {levels : Nat}
  {stack : Json.Stack}

/-- Only pairs have a lazy node. -/
theorem lazyLinks_json {rule : Json.Rule} (other : rule ≠ .keyValuePair) :
    (lazyLinks grammar cell).json rule d levels stack = rule.parser d levels stack := by
  cases rule
  case keyValuePair => contradiction
  all_goals rfl

end

end Rewind.Expr

namespace Rewind.Json.Dialect

open Rewind.Parser

variable {α : Type} (d : Dialect)

theorem entry_map {β : Type} (p : Parser α) (f : α → β) :
    d.entry (p.map f) = (d.entry p).map fun (key, v) => (key, f v) := by
  simp only [entry, map_bind, map_map]

theorem parallel_entry {R : Relation} {p q : Parser α} (members : Parallel (fun _ => True) R p q) :
    Parallel (fun _ => True) R (d.entry p) (d.entry q) := by
  refine (Parallel.of_scripted d.scripted_quotedString).bind (stays_everywhere _) fun _ => ?_
  exact (Parallel.of_scripted d.scripted_colon).bind (stays_everywhere _) fun _ => members.map _

end Rewind.Json.Dialect
