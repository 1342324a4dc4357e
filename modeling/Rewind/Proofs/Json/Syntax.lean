import Rewind.Json.Document
import Rewind.Proofs.Failure.Furthest

/-! # The grammar of documents

Which texts are documents, and what they denote, said without a parser: every form of the grammar
relates a text to its denotation.  Only the dialect's white space, its form of strings and its way to
put numbers together enter. -/

namespace Rewind.Json.Syntax

/-! ## Tokens -/

def Blank (d : Dialect) (t : Text) : Prop := ∀ c ∈ t, c ∈ d.whitespace

theorem blank_append {d : Dialect} {t u : Text} (first : Blank d t) (second : Blank d u) :
    Blank d (t ++ u) :=
  fun c member => (List.mem_append.1 member).elim (first c) (second c)

/-- A sign, possibly none, and digits, at least one. -/
inductive Numeral : Text → Literal → Prop
  | intro {sign digits : Text} : sign ∈ [text "", text "-", text "+"] → digits ≠ [] →
      (∀ c ∈ digits, CharClass.isDigit c) → Numeral (sign ++ digits) ⟨sign, digits⟩

/-- A part of a number that an introducer begins, or nothing. -/
inductive Part (introducers : Text) : Text → Option Literal → Prop
  | absent : Part introducers [] none
  | present {c : Code} {t : Text} {l : Literal} : c ∈ introducers → Numeral t l →
      Part introducers (c :: t) (some l)

inductive NumberText (d : Dialect) : Text → Number → Prop
  | intro {whole fraction exponent : Text} {w : Literal} {f e : Option Literal} {n : Number} :
      Numeral whole w → Part (text ".") fraction f → Part (text "eE") exponent e →
      Number.assemble d.exactFractions w f e = .ok n →
      NumberText d (whole ++ fraction ++ exponent) n

/-- One character of a string with escapes: itself, escaped by a letter, or by its number. -/
inductive Item : Text → Code → Prop
  | plain {c : Code} : c ≠ 0x22 → c ≠ 0x5C → Item [c] c
  | short {c x : Code} : (c, x) ∈ Token.escapes → Item [0x5C, c] x
  | numbered {digits : Text} : digits.length = 4 → (∀ c ∈ digits, CharClass.isHexDigit c) →
      Item (0x5C :: 0x75 :: digits) (Token.ofHex digits)

inductive Items : Text → Text → Prop
  | nil : Items [] []
  | cons {t rest : Text} {x : Code} {xs : Text} : Item t x → Items rest xs →
      Items (t ++ rest) (x :: xs)

/-- What stands between the quotes of a string: as written, or with escapes, in which two surrogates
may spell one character. -/
inductive Body (d : Dialect) : Text → Text → Prop
  | raw {t : Text} : d.decodeEscapes = false → (∀ c ∈ t, c ≠ 0x22) → Body d t t
  | escaped {t x : Text} : d.decodeEscapes = true → Items t x → Body d t (Surrogate.join x)

inductive Quoted (d : Dialect) : Text → Text → Prop
  | intro {body x : Text} : Body d body x → Quoted d (0x22 :: body ++ [0x22]) x

/-! ## Values -/

section

variable {α : Type} (d : Dialect) (Element : Text → α → Prop)

inductive Padded : Text → α → Prop
  | intro {before t after : Text} {x : α} : Blank d before → Element t x → Blank d after →
      Padded (before ++ t ++ after) x

/-- Further elements, each after a comma with white space around it. -/
inductive Following : Text → List α → Prop
  | nil : Following [] []
  | cons {before after t rest : Text} {x : α} {xs : List α} : Blank d before → Blank d after →
      Element t x → Following rest xs →
      Following (before ++ 0x2C :: after ++ t ++ rest) (x :: xs)

inductive Separated : Text → List α → Prop
  | nil : Separated [] []
  | cons {t rest : Text} {x : α} {xs : List α} : Element t x → Following d Element rest xs →
      Separated (t ++ rest) (x :: xs)

theorem padded_after {d : Dialect} {Element : Text → α → Prop} {t after : Text} {x : α}
    (derived : Element t x) (blank : Blank d after) : Padded d Element (t ++ after) x :=
  .intro (List.forall_mem_nil _ : Blank d []) derived blank

theorem padded_self {d : Dialect} {Element : Text → α → Prop} {t : Text} {x : α}
    (derived : Element t x) : Padded d Element t x := by
  have padded := padded_after derived (List.forall_mem_nil _ : Blank d [])
  rwa [List.append_nil] at padded

end

inductive Member (d : Dialect) (Value : Text → Json → Prop) : Text → Text × Json → Prop
  | intro {key before after t : Text} {k : Text} {v : Json} : Quoted d key k → Blank d before →
      Blank d after → Value t v → Member d Value (key ++ before ++ 0x3A :: after ++ t) (k, v)

inductive Value (d : Dialect) : Text → Json → Prop
  | object {before body after : Text} {members : List (Text × Json)} : Blank d before →
      Separated d (Member d (Value d)) body members → Blank d after →
      Value d (0x7B :: before ++ body ++ after ++ [0x7D]) (ofMembers members)
  | array {before body after : Text} {items : List Json} : Blank d before →
      Separated d (Value d) body items → Blank d after →
      Value d (0x5B :: before ++ body ++ after ++ [0x5D]) (.array items)
  | string {t x : Text} : Quoted d t x → Value d t (.string x)
  | true : Value d (text "true") (.bool true)
  | false : Value d (text "false") (.bool false)
  | null : Value d (text "null") .null
  | number {t : Text} {n : Number} : NumberText d t n → Value d t (.number n)

def Document (d : Dialect) : Text → Json → Prop := Padded d (Value d)

/-! ## Objects

What the members of an object come to. -/

theorem lookup_entry {α : Type} (key other : Text) (value : α) (entries : List (Text × α)) :
    ((key, value) :: entries).lookup other =
      if other = key then some value else entries.lookup other := by
  rw [List.lookup_cons]
  by_cases same : other = key
  · simp [same]
  · simp [same, beq_eq_false_iff_ne.2 same]

theorem lookup_insert {α : Type} (key other : Text) (value : α) (entries : List (Text × α)) :
    (insert key value entries).lookup other =
      if other = key then some value else entries.lookup other := by
  induction entries with
  | nil => exact lookup_entry key other value []
  | cons entry entries ih =>
    obtain ⟨k, v⟩ := entry
    rw [insert]
    by_cases here : k = key
    · subst here
      rw [if_pos (beq_self_eq_true k), lookup_entry, lookup_entry]
      by_cases same : other = k <;> simp [same]
    · rw [if_neg (by simpa using here), lookup_entry, lookup_entry, ih]
      by_cases same : other = k
      · simp [same, here]
      · simp [same]

theorem keys_insert {α : Type} (key : Text) (value : α) (entries : List (Text × α)) :
    (insert key value entries).map Prod.fst = Failure.union (entries.map Prod.fst) [key] := by
  rw [Failure.union_singleton]
  induction entries with
  | nil => rfl
  | cons entry entries ih =>
    obtain ⟨k, v⟩ := entry
    rw [insert]
    by_cases here : k = key
    · simp [here]
    · rw [if_neg (by simpa using here), List.map_cons, ih]
      simp only [List.map_cons, List.mem_cons, Ne.symm here, false_or]
      by_cases later : key ∈ entries.map Prod.fst
      · rw [if_pos later, if_pos later]
      · rw [if_neg later, if_neg later, List.cons_append]

/-- An object is a map: its keys are those of its members, each at its first place, and each has the
value of the last member with that key. -/
theorem ofMembers_eq (members : List (Text × Json)) :
    ∃ entries, ofMembers members = .object entries ∧
      entries.map Prod.fst = (members.map Prod.fst).eraseDups ∧
      ∀ key, entries.lookup key = members.reverse.lookup key := by
  refine ⟨_, rfl, ?_⟩
  induction members using List.reverseRecOn with
  | nil => exact ⟨rfl, fun _ => rfl⟩
  | append_singleton members member ih =>
    obtain ⟨key, value⟩ := member
    obtain ⟨keys, values⟩ := ih
    simp only [List.foldl_append, List.foldl_cons, List.foldl_nil]
    constructor
    · rw [keys_insert, keys, List.map_append, List.map_singleton, Failure.eraseDups_concat]
    · intro other
      rw [lookup_insert, values, List.reverse_append, List.reverse_singleton, List.singleton_append,
        lookup_entry]

end Rewind.Json.Syntax
