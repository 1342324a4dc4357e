import Rewind.Proofs.Grammar.References

/-! # Expressions without caches

Without caches a lazy node builds its parser whenever it is attempted.  That is between an expression at
work, whose replies it has, and the parser that an expression stands for, where a lazy node is nothing but
what it builds. -/

namespace Rewind

def Parser.attempting {α : Type} (node : Node) (p : Parser α) : Parser α where
  run s j := p.run s (j.record (.reached node s.pos))

namespace Expr

open Rewind.Parser

def uncached (grammar : Grammar) : (depth : Nat) → Expr → Parser Value
  | 0, _ => .raise .endlessRecursion
  | depth + 1, p =>
    p.denoteWith (lazyLinks grammar fun node thunk => .attempting node (uncached grammar depth thunk))

def hearing : Relation where
  rel j k := k.past = j.past.filter fun e => e.node?.isNone
  lost := (· = .endlessRecursion)
  record := by
    intro j k same e other
    simp [Journal.record, same, other]

section

variable {D : State → Prop} {p q : Parser Value}

theorem parallel_inside (parallel : Parallel D hearing p q) (scope : List Nat) :
    Parallel D hearing (p.inside scope) q :=
  fun s here j k heard => parallel s here { j with scope } k heard

theorem parallel_attempting (parallel : Parallel D hearing p q) (node : Node) :
    Parallel D hearing (p.attempting node) q := by
  intro s here j k heard
  refine parallel s here (j.record (.reached node s.pos)) k ?_
  simpa [hearing, Journal.record, Event.node?] using heard

theorem parallel_making (parallel : Parallel D hearing p q) : Parallel D hearing p.making q :=
  fun s here j k heard =>
    parallel_inside parallel (j.scope ++ [j.makings]) s here { j with makings := j.makings + 1 } k heard

end

/-- The member of a pair may be read as a value and then kept as an item. -/
theorem parallel_pair {refs : Text → Parser Value} {member : Parser Value} {d : Json.Dialect}
    {levels : Nat} {stack : Json.Stack}
    (members : Parallel (fun _ => True) hearing member ((json .value d levels stack).denote refs)) :
    Parallel (fun _ => True) hearing ((d.entry member).map fun (key, v) => .tuple [.ofText key, v])
      ((json .keyValuePair d levels stack).denote refs) := by
  have pairs := (d.parallel_entry members).map fun (key, v) => Value.tuple [.ofText key, v]
  have same : (json .value d levels stack).denote refs = (d.value levels stack).map .ofJson := rfl
  rwa [same, d.entry_map, map_map] at pairs

variable (grammar : Grammar)

/-- As long as the stack lasts, an expression without caches runs like the parser it stands for. -/
theorem uncached_parallel {depth references : Nat} (enough : depth ≤ references) (p : Expr) :
    Parallel (fun _ => True) hearing (uncached grammar depth p)
      (p.denote (resolve grammar references)) := by
  induction depth generalizing references p with
  | zero => exact .of_lost rfl
  | succ depth ih =>
    -- One reference and one level of the stack are spent together.
    obtain ⟨references, rfl⟩ := Nat.exists_eq_add_of_lt enough
    have paired : Paired (fun _ => True) (fun _ : Unit => hearing) (fun _ _ => True)
        (lazyLinks grammar fun node thunk => .attempting node (uncached grammar depth thunk))
        (transparent (resolve grammar (depth + references + 1))) :=
      { parts := fun {_ p} _ => by cases p <;> simp [Parts]
        stays := fun _ => stays_everywhere _
        rule := fun {_ name} _ => by
          simp only [lazyLinks, transparent, resolve]
          cases grammar.lookup name with
          | none => exact .of_scripted (scripted_raise _)
          | some p => exact parallel_inside (parallel_attempting (ih (Nat.le_add_right ..) p) _) _
        lazily := fun {_ number name p depth'} _ _ s here j =>
          parallel_inside (parallel_attempting (ih (by omega) p) _) _ s here j
        making := fun _ parallel => parallel_making (parallel () trivial)
        json := fun {_ rule d levels stack} _ => by
          by_cases pair : rule = .keyValuePair
          · subst pair
            exact parallel_pair (parallel_attempting (ih (by omega) _) _)
          · rw [lazyLinks_json _ _ pair]
            exact .of_scripted (rule.scripted d levels) }
    exact paired.denoteWith p (c := ()) trivial

end Expr

end Rewind
