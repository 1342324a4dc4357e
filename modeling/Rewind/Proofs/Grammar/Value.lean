import Mathlib.Data.List.Forall2
import Rewind.Grammar.Value

/-! # Values in correspondence

Two parsers may produce values of the same form that differ only in their leaves.  This module has the
function that replaces leaves, and says what a relation on values has to keep so that the JSON values
that are put together from related parts are related.  An object is the hard case: its entries are the
members after one another have been inserted. -/

namespace Rewind.Value

/-! ## JSON values as values -/

theorem ofItems_eq_map (items : List Json) : ofItems items = items.map ofJson := by
  induction items with
  | nil => rfl
  | cons item items ih => rw [ofItems, ih, List.map_cons]

theorem ofEntries_insert (key : Text) (value : Json) (entries : List (Text × Json)) :
    ofEntries (Json.insert key value entries) =
      Json.insert key (ofJson value) (ofEntries entries) := by
  induction entries with
  | nil => rfl
  | cons entry entries ih =>
    obtain ⟨k, v⟩ := entry
    rw [Json.insert, ofEntries, Json.insert]
    split
    · rfl
    · rw [ofEntries, ih]

theorem foldl_insert_ofEntries (members entries : List (Text × Json)) :
    (members.map fun member => (member.1, ofJson member.2)).foldl
        (fun entries (key, value) => Json.insert key value entries) (ofEntries entries) =
      ofEntries (members.foldl (fun entries (key, value) => Json.insert key value entries)
        entries) := by
  induction members generalizing entries with
  | nil => rfl
  | cons member members ih =>
    obtain ⟨key, value⟩ := member
    simp only [List.map_cons, List.foldl_cons]
    rw [← ofEntries_insert]
    exact ih _

/-! ## Leaves -/

mutual

def mapLeaves (f : Value → Value) : Value → Value
  | .list items => .list (mapItems f items)
  | .tuple items => .tuple (mapItems f items)
  | .dict entries => .dict (mapEntries f entries)
  | leaf => f leaf

def mapItems (f : Value → Value) : List Value → List Value
  | [] => []
  | item :: items => mapLeaves f item :: mapItems f items

def mapEntries (f : Value → Value) : List (Text × Value) → List (Text × Value)
  | [] => []
  | (key, value) :: entries => (key, mapLeaves f value) :: mapEntries f entries

end

theorem mapItems_eq_map (f : Value → Value) (items : List Value) :
    mapItems f items = items.map (mapLeaves f) := by
  induction items with
  | nil => rfl
  | cons item items ih => rw [mapItems, ih, List.map_cons]

/-! ## Relations between values of the same form -/

variable {U : Value → Value → Prop}

/-- `U` holds between values whose parts it relates. -/
structure Congruence (U : Value → Value → Prop) : Prop where
  refl : ∀ v, U v v
  list : ∀ {xs ys}, List.Forall₂ U xs ys → U (.list xs) (.list ys)
  tuple : ∀ {xs ys}, List.Forall₂ U xs ys → U (.tuple xs) (.tuple ys)
  dict : ∀ {xs ys}, List.Forall₂ (fun a b => a.1 = b.1 ∧ U a.2 b.2) xs ys → U (.dict xs) (.dict ys)

theorem congruence_eq : Congruence Eq := by
  have items {xs ys : List Value} (same : List.Forall₂ Eq xs ys) : xs = ys := by
    rwa [List.forall₂_eq_eq_eq] at same
  constructor
  case refl => exact fun _ => rfl
  case list => exact fun same => congrArg _ (items same)
  case tuple => exact fun same => congrArg _ (items same)
  case dict =>
    intro xs ys same
    have entries := same.imp fun _ _ both => Prod.ext both.1 both.2
    rw [List.forall₂_eq_eq_eq] at entries
    exact congrArg _ entries

/-- To be the same once `f` has replaced the leaves. -/
theorem congruence_mapLeaves (f : Value → Value) :
    Congruence fun v w => v.mapLeaves f = w.mapLeaves f := by
  have items {xs ys : List Value} (same : List.Forall₂ (fun v w => v.mapLeaves f = w.mapLeaves f) xs ys) :
      mapItems f xs = mapItems f ys := by
    induction same with
    | nil => rfl
    | cons head _ ih => rw [mapItems, head, ih, mapItems]
  constructor
  case refl => exact fun _ => rfl
  case list =>
    intro xs ys same
    rw [mapLeaves, items same, mapLeaves]
  case tuple =>
    intro xs ys same
    rw [mapLeaves, items same, mapLeaves]
  case dict =>
    intro xs ys same
    -- Entries are pairs of a key and a value, so this induction is not the one on items.
    suffices mapEntries f xs = mapEntries f ys by rw [mapLeaves, this, mapLeaves]
    induction same with
    | nil => rfl
    | @cons a b _ _ head _ ih =>
      obtain ⟨key, value⟩ := a
      obtain ⟨rfl, same⟩ := head
      rw [mapEntries, same, ih, mapEntries]

/-- An entry takes its place by its key alone. -/
theorem forall₂_insert {xs ys : List (Text × Value)}
    (same : List.Forall₂ (fun a b => a.1 = b.1 ∧ U a.2 b.2) xs ys) (key : Text) {v w : Value}
    (related : U v w) :
    List.Forall₂ (fun a b => a.1 = b.1 ∧ U a.2 b.2) (Json.insert key v xs) (Json.insert key w ys) := by
  induction same with
  | nil => exact .cons ⟨rfl, related⟩ .nil
  | @cons a b xs ys head tail ih =>
    obtain ⟨k, x⟩ := a
    obtain ⟨rfl, same⟩ := head
    rw [Json.insert, Json.insert]
    split
    · exact .cons ⟨rfl, related⟩ tail
    · exact .cons ⟨rfl, same⟩ ih

/-- Keys are inserted one after another. -/
theorem forall₂_foldl_insert {members members' : List (Text × Json)}
    (same : List.Forall₂ (fun a b => a.1 = b.1 ∧ U (ofJson a.2) (ofJson b.2)) members members')
    {xs ys : List (Text × Value)} (sofar : List.Forall₂ (fun a b => a.1 = b.1 ∧ U a.2 b.2) xs ys) :
    List.Forall₂ (fun a b => a.1 = b.1 ∧ U a.2 b.2)
      ((members.map fun member => (member.1, ofJson member.2)).foldl
        (fun entries (key, value) => Json.insert key value entries) xs)
      ((members'.map fun member => (member.1, ofJson member.2)).foldl
        (fun entries (key, value) => Json.insert key value entries) ys) := by
  induction same generalizing xs ys with
  | nil => exact sofar
  | @cons a b _ _ head _ ih =>
    obtain ⟨key, value⟩ := a
    obtain ⟨rfl, related⟩ := head
    exact ih (forall₂_insert sofar _ related)

namespace Congruence

variable (congruence : Congruence U)

include congruence

theorem array {xs ys : List Json} (same : List.Forall₂ (fun x y => U (ofJson x) (ofJson y)) xs ys) :
    U (ofJson (.array xs)) (ofJson (.array ys)) := by
  rw [ofJson, ofJson, ofItems_eq_map, ofItems_eq_map]
  refine congruence.list ?_
  rwa [List.forall₂_map_left_iff, List.forall₂_map_right_iff]

theorem ofMembers {xs ys : List (Text × Json)}
    (same : List.Forall₂ (fun a b => a.1 = b.1 ∧ U (ofJson a.2) (ofJson b.2)) xs ys) :
    U (ofJson (Json.ofMembers xs)) (ofJson (Json.ofMembers ys)) := by
  rw [Json.ofMembers, Json.ofMembers, ofJson, ofJson, ← foldl_insert_ofEntries,
    ← foldl_insert_ofEntries]
  refine congruence.dict ?_
  exact forall₂_foldl_insert same .nil

end Congruence

end Rewind.Value
