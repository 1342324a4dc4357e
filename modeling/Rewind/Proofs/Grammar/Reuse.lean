import Rewind.Proofs.Grammar.Caches

/-! # Parsers that are used again

What the caches hold makes no difference to a run, and so a run with caches that earlier runs have filled
has the reply of a first run.  Their logs differ only by this: a node that has been built is not built
again.  That it is built but once, and when it is first attempted, is seen on the logs themselves. -/

namespace Rewind

/-! ## Nodes in a log -/

/-- The node is built where the log first has it attempted, and nowhere else; what is not attempted is
not built. -/
inductive Node.BuiltOnce (node : Node) : List Event → Prop where
  | never {log} (absent : ∀ e ∈ log, e.node? ≠ some node) : node.BuiltOnce log
  | first before pos after (absent : ∀ e ∈ before, e.node? ≠ some node)
      (once : .built node ∉ after) :
      node.BuiltOnce (before ++ .reached node pos :: .built node :: after)

namespace Node.BuiltOnce

variable {node : Node} {log : List Event}

/-- Two logs are put together, where the node is built in the second only if it is not in the first. -/
theorem append (once : node.BuiltOnce log) {rest : List Event}
    (again : .built node ∈ log → .built node ∉ rest)
    (later : .built node ∉ log → node.BuiltOnce rest) : node.BuiltOnce (log ++ rest) := by
  cases once with
  | never absent =>
    cases later fun built => absent _ built rfl with
    | never absent' => exact .never (List.forall_mem_append.2 ⟨absent, absent'⟩)
    | first before pos after absent' once =>
      rw [← List.append_assoc]
      exact .first _ pos after (List.forall_mem_append.2 ⟨absent, absent'⟩) once
  | first before pos after absent once =>
    rw [List.append_assoc]
    refine .first before pos (after ++ rest) absent fun built => ?_
    exact (List.mem_append.1 built).elim once (again (by simp))

end Node.BuiltOnce

section

variable {known : List Node} {node : Node} {past : List Event}

theorem mem_fillings_iff {first e : Event} :
    e ∈ fillings known past first ↔
      ∃ node, first.reached? = some node ∧ e = .built node ∧ node ∉ known ∧ node ∉ reachedIn past := by
  unfold fillings
  cases first.reached? with
  | none => simp
  | some node =>
    by_cases old : node ∈ known ∨ node ∈ reachedIn past
    · simp only [if_pos old, List.not_mem_nil, false_iff]
      rintro ⟨_, ⟨⟩, -, unknown, unreached⟩
      exact old.elim unknown unreached
    · simp [not_or.1 old]

/-- What concerns lazy nodes apart, nothing is added. -/
theorem filter_withBuilds :
    (withBuilds known past).filter (fun e => e.node?.isNone) =
      past.filter fun e => e.node?.isNone := by
  induction past with
  | nil => rfl
  | cons first past ih =>
    have fills : (fillings known past first).filter (fun e => e.node?.isNone) = [] := by
      refine List.filter_eq_nil_iff.2 fun e member => ?_
      obtain ⟨node, -, rfl, -, -⟩ := mem_fillings_iff.1 member
      nofun
    rw [withBuilds, List.filter_append, fills, List.nil_append, List.filter_cons, List.filter_cons, ih]

end

/-! ## Runs one after the other -/

namespace Expr

section

variable {grammar : Grammar} {table : Table} {p : Expr}
  (rules : ∀ rule ∈ grammar, rule.2.Coherent [table]) (coherent : p.Coherent [table]) (depth : Nat)

include rules coherent

/-- As long as the stack lasts, an expression at work runs as the parser it stands for, whatever earlier
runs have left in the caches. -/
theorem live_eq_read {s : State} (inside : s.pos ≤ s.input.size) {j : Journal}
    (holds : j.Holds grammar table) :
    let done := (p.live grammar depth).run s j.turnPage
    let read := (p.parser grammar).run s .empty
    done.1 = .fault .endlessRecursion ∨
      done.1 = read.1 ∧ read.2.events = done.2.events.filter fun e => e.node?.isNone := by
  intro done read
  obtain ⟨reply, follows⟩ := live_run rules coherent depth s holds
  -- With as many references as the stack is deep, none is missing where the stack suffices.
  let references := max depth (referenceLimit grammar s)
  obtain ⟨_, rfl, faulty⟩ | ⟨same, heard⟩ :=
    uncached_parallel grammar (le_max_left depth (referenceLimit grammar s)) p s trivial .empty .empty rfl
  · exact .inl (reply.trans faulty)
  · obtain endless | settled :=
      denote_run_of_le grammar (le_max_right depth (referenceLimit grammar s)) p s .empty
    · refine .inl ((reply.trans same).trans ?_)
      exact (run_of_more_references inside p (le_max_right ..) .empty .empty).trans endless
    · have read_eq : read = (p.denote (resolve grammar references)).run s .empty := settled
      refine .inr ⟨(reply.trans same).trans (congrArg Prod.fst read_eq).symm, ?_⟩
      have log : done.2.past = _ := follows.log
      have heard : ((p.denote (resolve grammar references)).run s .empty).2.past = _ := heard
      rw [read_eq, Journal.events, Journal.events, heard, log, List.filter_reverse, filter_withBuilds]

end

end Expr

end Rewind
