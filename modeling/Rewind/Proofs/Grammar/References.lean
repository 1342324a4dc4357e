import Mathlib.Data.Finset.Prod
import Mathlib.Order.Interval.Finset.Nat
import Mathlib.Order.Monotone.Basic
import Rewind.Proofs.Grammar.Discipline
import Rewind.Proofs.Grammar.Parallel

/-! # How many references are enough

A run that needs more references than it may follow is ended with a fault.  With more references at hand
a rule may only get replies where there was this fault before, and the replies that there were remain.
So as long as something changes, more and more pairs of a rule and a cursor have a reply.  There are as
many pairs as references are allowed, less one, and once nothing changes it never will. -/

namespace Rewind.Expr

open Rewind.Parser

/-! ## More references -/

def replying : Relation where
  rel _ _ := True
  lost _ := False
  record _ _ _ := trivial

def outlasting : Relation where
  rel j k := j = k
  lost := (· = .endlessRecursion)
  record same e _ := congrArg (Journal.record · e) same

theorem paired_transparent {D : State → Prop} {R : Relation} {refs refs' : Text → Parser Value}
    (named : ∀ name, Parallel D R (refs name) (refs' name))
    (stays : ∀ p : Expr, (p.denote refs).Stays D) :
    Paired D (fun _ : Unit => R) (fun _ _ => True) (transparent refs) (transparent refs') where
  parts {_ p} _ := by cases p <;> simp [Parts]
  stays := stays
  rule _ := named _
  lazily _ parallel := parallel () trivial
  making _ parallel := parallel () trivial
  json {_ rule d levels _} _ := .of_scripted (rule.scripted d levels)

section

variable (grammar : Grammar)

/-- What is in the journal makes no difference. -/
theorem resolve_parallel_self (references : Nat) (name : Text) :
    Parallel (fun _ => True) replying (resolve grammar references name)
      (resolve grammar references name) := by
  induction references generalizing name with
  | zero => exact .of_scripted (scripted_raise _)
  | succ references ih =>
    rw [resolve]
    split
    · exact .of_scripted (scripted_raise _)
    · exact (paired_transparent ih fun _ => stays_everywhere _).denoteWith _ (c := ()) trivial

/-- A fault for want of references, which more of them might avert. -/
def isWanting : Reply Value → Bool
  | .fault .endlessRecursion => true
  | _ => false

/-- With one more reference, all replies remain but this fault. -/
theorem resolve_succ_parallel (references : Nat) (name : Text) :
    Parallel (fun _ => True) outlasting (resolve grammar references name)
      (resolve grammar (references + 1) name) := by
  induction references generalizing name with
  | zero => exact .of_lost rfl
  | succ references ih =>
    rw [resolve, resolve]
    cases grammar.lookup name with
    | none => exact .of_scripted (scripted_raise _)
    | some p => exact (paired_transparent ih fun _ => stays_everywhere _).denoteWith p (c := ()) trivial

/-- With more references the run is the same, unless it has ended for want of them. -/
theorem denote_run_of_le {references more : Nat} (le : references ≤ more) (p : Expr) (s : State)
    (j : Journal) :
    ((p.denote (resolve grammar references)).run s j).1 = .fault .endlessRecursion ∨
      (p.denote (resolve grammar references)).run s j = (p.denote (resolve grammar more)).run s j := by
  induction more, le using Nat.le_induction with
  | base => exact .inr rfl
  | succ more le ih =>
    obtain wanting | same := ih
    · exact .inl wanting
    · have step := (paired_transparent (resolve_succ_parallel grammar more)
        fun _ => stays_everywhere _).denoteWith p (c := ()) trivial
      rw [same]
      obtain ⟨_, rfl, faulty⟩ | both := step s trivial j j rfl
      · exact .inl faulty
      · exact .inr (Prod.ext both.1 both.2)

end

/-! ## Calls -/

section

variable (grammar : Grammar) (s : State)

def calls : Finset (Text × Nat) :=
  (grammar.map Prod.fst).toFinset ×ˢ Finset.Icc s.pos s.input.size

def answer (references : Nat) (call : Text × Nat) : Reply Value :=
  ((resolve grammar references call.1).run (s.goto call.2) .empty).1

def answered (references : Nat) : Finset (Text × Nat) :=
  (calls grammar s).filter fun call => !isWanting (answer grammar s references call)

theorem card_calls_le : (calls grammar s).card ≤ grammar.length * (s.remaining + 1) := by
  rw [calls, Finset.card_product, Nat.card_Icc]
  refine Nat.mul_le_mul ?_ (by rw [State.remaining]; omega)
  exact (List.toFinset_card_le _).trans (List.length_map ..).le

theorem answer_succ_of_mem {references : Nat} {call : Text × Nat}
    (enough : call ∈ answered grammar s references) :
    answer grammar s (references + 1) call = answer grammar s references call := by
  obtain ⟨_, reply⟩ := Finset.mem_filter.1 enough
  obtain ⟨cause, rfl, faulty⟩ | ⟨same, _⟩ :=
    resolve_succ_parallel grammar references call.1 (s.goto call.2) trivial .empty .empty rfl
  · rw [answer, faulty] at reply
    cases reply
  · exact same.symm

theorem answer_of_notMem {references : Nat} {call : Text × Nat} (inside : call ∈ calls grammar s)
    (unanswered : call ∉ answered grammar s references) :
    answer grammar s references call = .fault .endlessRecursion := by
  have lacks : isWanting (answer grammar s references call) = true := by
    by_contra reply
    exact unanswered (Finset.mem_filter.2 ⟨inside, by simpa using reply⟩)
  unfold isWanting at lacks
  split at lacks
  case h_1 wanting => exact wanting
  case h_2 => cases lacks

theorem answered_subset (references : Nat) :
    answered grammar s references ⊆ answered grammar s (references + 1) := by
  intro call enough
  obtain ⟨inside, reply⟩ := Finset.mem_filter.1 enough
  refine Finset.mem_filter.2 ⟨inside, ?_⟩
  rwa [answer_succ_of_mem grammar s enough]

/-! ## When nothing changes -/

/-- One more reference changes no reply from here on. -/
def Settled (references : Nat) : Prop :=
  ∀ name, Parallel s.Precedes replying (resolve grammar references name)
    (resolve grammar (references + 1) name)

theorem stays_denote (references : Nat) (p : Expr) :
    (p.denote (resolve grammar references)).Stays s.Precedes := by
  intro t x pos here yields
  have rules (name : Text) : (resolve grammar references name).Obeys RunProperty.forward :=
    keeps_forward.covers.resolve (fun _ _ _ _ => trivial) references name
  have steady := keeps_forward.covers.denote rules p fun _ _ => trivial
  exact here.trans (steady.onward t x pos yields)

variable {grammar s}

theorem Settled.denote {references : Nat} (settled : Settled grammar s references) (p : Expr) :
    Parallel s.Precedes replying (p.denote (resolve grammar references))
      (p.denote (resolve grammar (references + 1))) :=
  (paired_transparent settled (stays_denote grammar s references)).denoteWith p (c := ()) trivial

theorem Settled.succ {references : Nat} (settled : Settled grammar s references) :
    Settled grammar s (references + 1) := by
  intro name
  rw [resolve, resolve]
  cases grammar.lookup name with
  | none => exact .of_scripted (scripted_raise _)
  | some p => exact settled.denote p

theorem Settled.answered_eq {references : Nat} (settled : Settled grammar s references) :
    answered grammar s references = answered grammar s (references + 1) := by
  refine Finset.filter_congr fun call inside => ?_
  obtain ⟨_, cursor⟩ := Finset.mem_product.1 inside
  obtain ⟨ahead, inside⟩ := Finset.mem_Icc.1 cursor
  obtain ⟨_, ⟨⟩, _⟩ | ⟨same, _⟩ := settled call.1 _ (.goto ahead inside) .empty .empty trivial
  rw [answer, answer, same]

/-- If one more reference answers no more calls, it changes no reply. -/
theorem settled_of_answered_eq (inside : s.pos ≤ s.input.size) {references : Nat}
    (same : answered grammar s (references + 1) = answered grammar s (references + 2)) :
    Settled grammar s (references + 1) := by
  intro name t here j k _
  refine .inr ⟨?_, trivial⟩
  -- Journals may be taken to be empty, since they decide on no reply.
  have self (n : Nat) (l : Journal) :
      ((resolve grammar n name).run t l).1 = ((resolve grammar n name).run t .empty).1 := by
    obtain ⟨_, ⟨⟩, _⟩ | ⟨same, _⟩ := resolve_parallel_self grammar n name t trivial l .empty trivial
    exact same
  rw [self _ j, self _ k]
  cases found : grammar.lookup name with
  | none => simp only [resolve, found]
  | some p =>
    have listed : name ∈ (grammar.map Prod.fst).toFinset := by
      obtain ⟨before, after, rfl, -⟩ := List.lookup_eq_some_iff.1 found
      simp
    have cursor : t.pos ∈ Finset.Icc s.pos s.input.size :=
      Finset.mem_Icc.2 ⟨here.pos_le, here.inside inside⟩
    have call : (name, t.pos) ∈ calls grammar s := Finset.mem_product.2 ⟨listed, cursor⟩
    have there : s.goto t.pos = t := by rw [State.goto, ← here.input_eq]
    have answers (n : Nat) :
        answer grammar s n (name, t.pos) = ((resolve grammar n name).run t .empty).1 := by
      rw [answer, there]
    rw [← answers, ← answers]
    by_cases enough : (name, t.pos) ∈ answered grammar s (references + 1)
    -- A call with a reply keeps it; one without has none with either number of references.
    · exact (answer_succ_of_mem grammar s enough).symm
    · have still := same ▸ enough
      rw [answer_of_notMem grammar s call enough, answer_of_notMem grammar s call still]

/-- With as many references as there are calls, and one more, nothing changes any longer. -/
theorem settled_of_limit (inside : s.pos ≤ s.input.size) {references : Nat}
    (enough : referenceLimit grammar s ≤ references) : Settled grammar s references := by
  have grows : Monotone fun n => (answered grammar s (n + 1)).card :=
    monotone_nat_of_le_succ fun n => Finset.card_le_card (answered_subset grammar s (n + 1))
  have bounded (n : Nat) :
      (answered grammar s (n + 1)).card ≤ grammar.length * (s.remaining + 1) :=
    (Finset.card_le_card (Finset.filter_subset _ _)).trans (card_calls_le grammar s)
  have settles {n : Nat}
      (same : (answered grammar s (n + 1)).card = (answered grammar s (n + 2)).card) :
      Settled grammar s (n + 1) :=
    settled_of_answered_eq inside
      (Finset.eq_of_subset_of_card_le (answered_subset grammar s (n + 1)) same.ge)
  -- A count that grows until it stands still, and is bounded, stands still from its bound on.
  have stable {n : Nat} (deep : grammar.length * (s.remaining + 1) ≤ n) :=
    Nat.stabilises_of_monotone grows bounded
      (fun n same => congrArg Finset.card (settles same).succ.answered_eq) deep
  obtain ⟨n, rfl⟩ : ∃ n, references = n + 1 := Nat.exists_eq_succ_of_ne_zero (by
    rintro rfl
    cases enough)
  have deep : grammar.length * (s.remaining + 1) ≤ n := Nat.le_of_succ_le_succ enough
  exact settles ((stable deep).trans (stable (Nat.le_succ_of_le deep)).symm)

/-- More references than the limit change no reply. -/
theorem run_of_more_references (inside : s.pos ≤ s.input.size) (p : Expr) {references : Nat}
    (enough : referenceLimit grammar s ≤ references) (j k : Journal) :
    ((p.denote (resolve grammar references)).run s j).1 = ((p.parser grammar).run s k).1 := by
  induction references, enough using Nat.le_induction generalizing j with
  | base =>
    have self := (paired_transparent (resolve_parallel_self grammar (referenceLimit grammar s))
      fun _ => stays_everywhere _).denoteWith p (c := ()) trivial
    obtain ⟨_, ⟨⟩, _⟩ | ⟨same, _⟩ := self s trivial j k trivial
    exact same
  | succ references enough ih =>
    obtain ⟨_, ⟨⟩, _⟩ | ⟨same, _⟩ :=
      (settled_of_limit inside enough).denote p s (.refl s) .empty j trivial
    exact same.symm.trans (ih .empty)

end

end Rewind.Expr
