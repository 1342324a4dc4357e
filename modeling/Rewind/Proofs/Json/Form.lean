import Rewind.Proofs.Json.Completeness
import Rewind.Proofs.Number.Assembly

/-! # The form of documents

A text may have the form of a document and yet be none that can be read, because one of its numbers is
out of range.  Apart from that, form is derivation: with every digit replaced by a zero a text of this
form is a document, since zeros are never out of range and nothing else in the grammar tells one digit
from another. -/

namespace Rewind.Json.Syntax

/-! ## Forms -/

/-- The form of a number, whatever it comes to. -/
inductive NumberForm : Text → Prop
  | intro {whole fraction exponent : Text} {w : Literal} {f e : Option Literal} :
      Numeral whole w → Part (text ".") fraction f → Part (text "eE") exponent e →
      NumberForm (whole ++ fraction ++ exponent)

inductive Form (d : Dialect) : Text → Json → Prop
  | object {before body after : Text} {members : List (Text × Json)} : Blank d before →
      Separated d (Member d (Form d)) body members → Blank d after →
      Form d (0x7B :: before ++ body ++ after ++ [0x7D]) (ofMembers members)
  | array {before body after : Text} {items : List Json} : Blank d before →
      Separated d (Form d) body items → Blank d after →
      Form d (0x5B :: before ++ body ++ after ++ [0x5D]) (.array items)
  | string {t x : Text} : Quoted d t x → Form d t (.string x)
  | true : Form d (text "true") (.bool true)
  | false : Form d (text "false") (.bool false)
  | null : Form d (text "null") .null
  | number {t : Text} {n : Number} : NumberForm t → Form d t (.number n)

/-- The text can be continued to one that has the form of a document. -/
def Viable (d : Dialect) (t : Text) : Prop := ∃ u v, Padded d (Form d) (t ++ u) v

theorem Viable.of_append {d : Dialect} {t u : Text} (viable : Viable d (t ++ u)) : Viable d t := by
  obtain ⟨more, v, document⟩ := viable
  rw [List.append_assoc] at document
  exact ⟨u ++ more, v, document⟩

theorem NumberText.form {d : Dialect} {t : Text} {n : Number} (derived : NumberText d t n) :
    NumberForm t := by
  obtain ⟨numeral, part, part', _⟩ := derived
  exact .intro numeral part part'

theorem form_of_within {d : Dialect} {levels : Nat} {t : Text} {v : Json}
    (within : ValueWithin d levels t v) : Form d t v := by
  induction levels generalizing t v with
  | zero => exact within.elim
  | succ levels ih =>
    cases within with
    | object blank separated blank' =>
      refine .object blank (separated.imp fun u entry _ member => ?_) blank'
      exact member.imp fun u v _ value => ih value
    | array blank separated blank' =>
      exact .array blank (separated.imp fun u v _ value => ih value) blank'
    | scalar known =>
      cases known with
      | string quoted => exact .string quoted
      | true => exact .true
      | false => exact .false
      | null => exact .null
      | number number => exact .number number.form

/-- What is derived has the form. -/
theorem Value.form {d : Dialect} {t : Text} {v : Json} (derived : Value d t v) : Form d t v :=
  form_of_within (valueWithin_of_length derived (Nat.le_refl _))

/-! ## Zeros for digits -/

def zeroed (c : Nat) : Nat := if CharClass.isDigit c then 0x30 else c

theorem zeroed_of_not_digit {c : Nat} (other : CharClass.isDigit c = false) : zeroed c = c := by
  rw [zeroed, other]
  exact if_neg Bool.false_ne_true

theorem zeroed_of_digit {c : Nat} (digit : CharClass.isDigit c = true) : zeroed c = 0x30 :=
  if_pos digit

/-- A class that holds all digits or none does not tell a character from its zeroed form. -/
theorem zeroed_invariant {p : Nat → Bool} (level : ∀ c, CharClass.isDigit c = true → p c = p 0x30)
    (c : Nat) : p (zeroed c) = p c := by
  cases digit : CharClass.isDigit c with
  | true => rw [zeroed_of_digit digit, level c digit]
  | false => rw [zeroed_of_not_digit digit]

@[simp] theorem isHexDigit_zeroed (c : Nat) :
    CharClass.isHexDigit (zeroed c) = CharClass.isHexDigit c := by
  refine zeroed_invariant (p := CharClass.isHexDigit) (fun c digit => ?_) c
  rw [CharClass.isHexDigit, digit]
  rfl

/-- A character that is no digit is recognized in the zeroed form. -/
theorem zeroed_eq_iff {c x : Nat} (other : CharClass.isDigit x = false) : zeroed c = x ↔ c = x := by
  cases digit : CharClass.isDigit c with
  | true =>
    have zero : CharClass.isDigit 0x30 = true := rfl
    rw [zeroed_of_digit digit]
    constructor
    · rintro rfl
      cases zero.symm.trans other
    · rintro rfl
      cases digit.symm.trans other
  | false => rw [zeroed_of_not_digit digit]

theorem map_zeroed {t : Text} (free : ∀ c ∈ t, CharClass.isDigit c = false) : t.map zeroed = t :=
  (List.map_congr_left fun c member => zeroed_of_not_digit (free c member)).trans (List.map_id t)

/-! ## Zeroed documents -/

section

variable {d : Dialect}

theorem exists_numeral_zeroed {t : Text} {l : Literal} (numeral : Numeral t l) :
    ∃ l', Numeral (t.map zeroed) l' ∧ l'.value = 0 := by
  obtain @⟨sign, digits, listed, nonempty, all⟩ := numeral
  have kept : sign.map zeroed = sign := by
    simp only [List.mem_cons, List.not_mem_nil, or_false] at listed
    obtain rfl | rfl | rfl := listed <;> rfl
  have zeros : digits.map zeroed = List.replicate digits.length 0x30 :=
    List.map_eq_replicate_iff.2 fun c member => zeroed_of_digit (all c member)
  have nothing (n : Nat) : Literal.magnitude (List.replicate n 0x30) = 0 := by
    rw [Literal.magnitude]
    induction n with
    | zero => rfl
    | succ n ih => exact ih
  refine ⟨⟨sign, List.replicate digits.length 0x30⟩, ?_, ?_⟩
  · rw [List.map_append, kept, zeros]
    refine .intro listed ?_ ?_
    · simpa using nonempty
    · intro c member
      rw [List.eq_of_mem_replicate member]
      rfl
  · simp [Literal.value, nothing]

theorem exists_part_zeroed {introducers t : Text} {part : Option Literal}
    (free : ∀ c ∈ introducers, CharClass.isDigit c = false) (derived : Part introducers t part) :
    ∃ part', Part introducers (t.map zeroed) part' := by
  cases derived with
  | absent => exact ⟨none, .absent⟩
  | @present c t l listed numeral =>
    obtain ⟨l', numeral, _⟩ := exists_numeral_zeroed numeral
    rw [List.map_cons, zeroed_of_not_digit (free c listed)]
    exact ⟨some l', .present listed numeral⟩

theorem exists_numberText_zeroed (d : Dialect) {t : Text} (form : NumberForm t) :
    ∃ n, NumberText d (t.map zeroed) n := by
  obtain ⟨numeral, part, part'⟩ := form
  obtain ⟨w, numeral, zero⟩ := exists_numeral_zeroed numeral
  obtain ⟨f, part⟩ := exists_part_zeroed (by decide) part
  obtain ⟨e, part'⟩ := exists_part_zeroed (by decide) part'
  rw [List.map_append, List.map_append]
  cases made : Number.assemble d.exactFractions w f e with
  | ok n => exact ⟨n, .intro numeral part part' made⟩
  | error cause =>
    -- Nothing is nearer to the middle of the range than zero.
    have large := (Number.assemble_eq_error_iff.1 made).2.2
    rw [zero] at large
    exact absurd large (Nat.not_le.2 Number.floatLimit_pos)

theorem exists_item_zeroed {t : Text} {c : Code} (item : Item t c) :
    ∃ c', Item (t.map zeroed) c' := by
  have marks : zeroed 0x5C = 0x5C ∧ zeroed 0x75 = 0x75 := ⟨rfl, rfl⟩
  cases item with
  | @plain c notQuote notBackslash =>
    exact ⟨zeroed c, .plain (mt (zeroed_eq_iff rfl).1 notQuote) (mt (zeroed_eq_iff rfl).1 notBackslash)⟩
  | @short letter c listed =>
    have free : ∀ entry ∈ Token.escapes, zeroed entry.1 = entry.1 := by decide
    refine ⟨c, ?_⟩
    rw [List.map_cons, List.map_singleton, marks.1, free _ listed]
    exact .short listed
  | @numbered digits four hex =>
    refine ⟨Token.ofHex (digits.map zeroed), ?_⟩
    rw [List.map_cons, List.map_cons, marks.1, marks.2]
    refine .numbered (by rw [List.length_map, four]) fun c' found => ?_
    obtain ⟨c, member, rfl⟩ := List.mem_map.1 found
    rw [isHexDigit_zeroed]
    exact hex c member

theorem exists_quoted_zeroed {t x : Text} (quoted : Quoted d t x) :
    ∃ y, Quoted d (t.map zeroed) y := by
  obtain @⟨body, x, derived⟩ := quoted
  have quote : zeroed 0x22 = 0x22 := rfl
  have inside : ∃ y, Body d (body.map zeroed) y := by
    cases derived with
    | raw asWritten free =>
      refine ⟨_, .raw asWritten fun c' found => ?_⟩
      obtain ⟨c, member, rfl⟩ := List.mem_map.1 found
      exact mt (zeroed_eq_iff rfl).1 (free c member)
    | @escaped x decodes items =>
      suffices zeroedItems : ∃ y, Items (body.map zeroed) y by
        obtain ⟨y, items⟩ := zeroedItems
        exact ⟨_, .escaped decodes items⟩
      induction items with
      | nil => exact ⟨[], .nil⟩
      | cons item _ ih =>
        obtain ⟨c', item⟩ := exists_item_zeroed item
        obtain ⟨y, items⟩ := ih
        rw [List.map_append]
        exact ⟨c' :: y, .cons item items⟩
  obtain ⟨y, derived⟩ := inside
  refine ⟨y, ?_⟩
  rw [List.map_append, List.map_cons, List.map_singleton, quote]
  exact .intro derived

variable (standard : d.StandardSpace)

include standard

theorem blank_zeroed {t : Text} (blank : Blank d t) : t.map zeroed = t := by
  have free : ∀ c ∈ text " \t\n\r", CharClass.isDigit c = false := by decide
  exact map_zeroed fun c member => free c (standard c (blank c member))

/-- Zeroed, the form of a value is a value. -/
theorem exists_value_zeroed {t : Text} {v : Json} (form : Form d t v) :
    ∃ w, Value d (t.map zeroed) w := by
  have blank (t : Text) (blank : Blank d t) : Blank d (t.map zeroed) := by
    rwa [blank_zeroed standard blank]
  have comma : zeroed 0x2C = 0x2C := rfl
  cases form with
  | @object before body after members ahead separated behind =>
    -- Zeroed keys may coincide, so that nothing is kept of the entries but their form.
    obtain ⟨members', _, derived⟩ := separated.relate_map (fun _ _ => True)
      (Member d (Value d)) comma blank fun u entry _ short member => by
        obtain @⟨key, before', after', t, k, v, quoted, ahead', behind', value⟩ := member
        simp only [List.length_append, List.length_cons] at short
        obtain ⟨k', quoted⟩ := exists_quoted_zeroed quoted
        obtain ⟨w, value⟩ := exists_value_zeroed value
        refine ⟨(k', w), trivial, ?_⟩
        simp only [List.map_append, List.map_cons]
        exact .intro quoted (blank _ ahead') (blank _ behind') value
    refine ⟨ofMembers members', ?_⟩
    simp only [List.map_append, List.map_cons, List.map_nil]
    exact .object (blank _ ahead) derived (blank _ behind)
  | @array before body after items ahead separated behind =>
    obtain ⟨items', _, derived⟩ := separated.relate_map (fun _ _ => True) (Value d)
      comma blank fun u v _ short value => by
        obtain ⟨w, value⟩ := exists_value_zeroed value
        exact ⟨w, trivial, value⟩
    refine ⟨.array items', ?_⟩
    simp only [List.map_append, List.map_cons, List.map_nil]
    exact .array (blank _ ahead) derived (blank _ behind)
  | string quoted =>
    obtain ⟨y, quoted⟩ := exists_quoted_zeroed quoted
    exact ⟨.string y, .string quoted⟩
  | true => exact ⟨.bool true, .true⟩
  | false => exact ⟨.bool false, .false⟩
  | null => exact ⟨.null, .null⟩
  | number number =>
    obtain ⟨n, derived⟩ := exists_numberText_zeroed d number
    exact ⟨.number n, .number derived⟩
termination_by t.length
decreasing_by
  all_goals
    simp only [List.length_append, List.length_cons] at *
    omega

theorem exists_document_zeroed {t : Text} {v : Json} (form : Padded d (Form d) t v) :
    ∃ w, Document d (t.map zeroed) w := by
  obtain ⟨blank, form, blank'⟩ := form
  obtain ⟨w, derived⟩ := exists_value_zeroed standard form
  refine ⟨w, ?_⟩
  rw [List.map_append, List.map_append, blank_zeroed standard blank, blank_zeroed standard blank']
  exact .intro blank derived blank'

end

end Rewind.Json.Syntax
