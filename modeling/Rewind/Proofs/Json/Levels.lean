import Mathlib.Data.List.Forall2
import Rewind.Proofs.Json.Syntax

/-! # Values by how deep they nest

The grammar refers to itself where a container has members.  Cut off at a number of levels it does not,
and what is true of every number of levels can be proved by induction on that number, one level at a
time.  Every value nests less deeply than it is long, so nothing is lost. -/

namespace Rewind.Json.Syntax

/-! ## Lists with other elements

The elements of a list can be replaced one by one, and so can their characters, if the commas and the
white space between them stay what they are. -/

section

variable {α β : Type} {d : Dialect} {Element : Text → α → Prop} (R : α → β → Prop)
  (Other : Text → β → Prop) {f : Code → Code}

theorem Following.relate_map (comma : f 0x2C = 0x2C) (blank : ∀ t, Blank d t → Blank d (t.map f))
    {body : Text} {xs : List α} (following : Following d Element body xs)
    (each : ∀ t x, x ∈ xs → t.length ≤ body.length → Element t x → ∃ y, R x y ∧ Other (t.map f) y) :
    ∃ ys, List.Forall₂ R xs ys ∧ Following d Other (body.map f) ys := by
  induction following with
  | nil => exact ⟨[], .nil, .nil⟩
  | @cons before after t rest x xs ahead behind element _ ih =>
    simp only [List.length_append, List.length_cons] at each
    obtain ⟨y, related, other⟩ := each t x List.mem_cons_self (by omega) element
    obtain ⟨ys, others, following⟩ := ih fun u z member short =>
      each u z (List.mem_cons_of_mem _ member) (by omega)
    refine ⟨y :: ys, .cons related others, ?_⟩
    simp only [List.map_append, List.map_cons, comma]
    exact .cons (blank _ ahead) (blank _ behind) other following

theorem Separated.relate_map (comma : f 0x2C = 0x2C) (blank : ∀ t, Blank d t → Blank d (t.map f))
    {body : Text} {xs : List α} (separated : Separated d Element body xs)
    (each : ∀ t x, x ∈ xs → t.length ≤ body.length → Element t x → ∃ y, R x y ∧ Other (t.map f) y) :
    ∃ ys, List.Forall₂ R xs ys ∧ Separated d Other (body.map f) ys := by
  cases separated with
  | nil => exact ⟨[], .nil, .nil⟩
  | @cons t rest x xs element following =>
    simp only [List.length_append] at each
    obtain ⟨y, related, other⟩ := each t x List.mem_cons_self (by omega) element
    obtain ⟨ys, others, following⟩ := following.relate_map R Other comma blank fun u z member short =>
      each u z (List.mem_cons_of_mem _ member) (by omega)
    rw [List.map_append]
    exact ⟨y :: ys, .cons related others, .cons other following⟩

theorem Separated.relate {body : Text} {xs : List α} (separated : Separated d Element body xs)
    (each : ∀ t x, x ∈ xs → t.length ≤ body.length → Element t x → ∃ y, R x y ∧ Other t y) :
    ∃ ys, List.Forall₂ R xs ys ∧ Separated d Other body ys := by
  have related := separated.relate_map R Other (f := id) rfl
    (fun t blank => by rwa [List.map_id])
    fun t x member short element => by
      rw [List.map_id]
      exact each t x member short element
  rwa [List.map_id] at related

theorem Separated.imp {Other : Text → α → Prop} {body : Text} {xs : List α}
    (separated : Separated d Element body xs)
    (each : ∀ t x, t.length ≤ body.length → Element t x → Other t x) :
    Separated d Other body xs := by
  obtain ⟨ys, same, others⟩ := separated.relate Eq Other
    fun t x _ short element => ⟨x, rfl, each t x short element⟩
  rw [List.forall₂_eq_eq_eq] at same
  rwa [same]

end

/-! ## Levels -/

inductive ScalarText (d : Dialect) : Text → Json → Prop
  | string {t x : Text} : Quoted d t x → ScalarText d t (.string x)
  | true : ScalarText d (text "true") (.bool true)
  | false : ScalarText d (text "false") (.bool false)
  | null : ScalarText d (text "null") .null
  | number {t : Text} {n : Number} : NumberText d t n → ScalarText d t (.number n)

/-- A scalar, or a container whose values are `Element`s. -/
inductive ValueOver (d : Dialect) (Element : Text → Json → Prop) : Text → Json → Prop
  | object {before body after : Text} {members : List (Text × Json)} : Blank d before →
      Separated d (Member d Element) body members → Blank d after →
      ValueOver d Element (0x7B :: before ++ body ++ after ++ [0x7D]) (ofMembers members)
  | array {before body after : Text} {items : List Json} : Blank d before →
      Separated d Element body items → Blank d after →
      ValueOver d Element (0x5B :: before ++ body ++ after ++ [0x5D]) (.array items)
  | scalar {t : Text} {v : Json} : ScalarText d t v → ValueOver d Element t v

def ValueWithin (d : Dialect) : (levels : Nat) → Text → Json → Prop
  | 0 => fun _ _ => False
  | levels + 1 => ValueOver d (ValueWithin d levels)

theorem Member.imp {d : Dialect} {Element Other : Text → Json → Prop} {t : Text}
    {entry : Text × Json} (member : Member d Element t entry)
    (value : ∀ u v, u.length ≤ t.length → Element u v → Other u v) : Member d Other t entry := by
  cases member with
  | @intro key before after u k v quoted blank blank' element =>
    refine .intro quoted blank blank' (value u v ?_ element)
    simp only [List.length_append, List.length_cons]
    omega

/-- Every value nests less deeply than it is long. -/
theorem valueWithin_of_length {d : Dialect} {levels : Nat} {t : Text} {v : Json}
    (derived : Value d t v) (short : t.length ≤ levels) : ValueWithin d levels t v := by
  induction levels generalizing t v with
  | zero =>
    -- No value is empty.
    cases derived with
    | string quoted =>
      obtain ⟨_⟩ := quoted
      cases short
    | number number =>
      obtain ⟨⟨_, nonempty, _⟩, _, _, _⟩ := number
      simp only [List.length_append, Nat.le_zero, Nat.add_eq_zero_iff, List.length_eq_zero_iff] at short
      exact absurd short.1.1.2 nonempty
    | _ => cases short
  | succ levels ih =>
    -- Members are shorter than the value, by the characters around them.
    cases derived with
    | object blank separated blank' =>
      simp only [List.length_append, List.length_cons] at short
      refine ValueOver.object blank (separated.imp fun u entry bound member => ?_) blank'
      exact member.imp fun u v bound' value => ih value (by omega)
    | array blank separated blank' =>
      simp only [List.length_append, List.length_cons] at short
      exact ValueOver.array blank (separated.imp fun u v bound value => ih value (by omega)) blank'
    | string quoted => exact .scalar (.string quoted)
    | true => exact .scalar .true
    | false => exact .scalar .false
    | null => exact .scalar .null
    | number number => exact .scalar (.number number)

end Rewind.Json.Syntax
