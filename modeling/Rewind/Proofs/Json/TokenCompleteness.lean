import Rewind.Proofs.Json.Syntax
import Rewind.Proofs.Json.Token
import Rewind.Proofs.Parser.Accepts

/-! # Derived tokens match

On a token that the grammar derives, the rule that reads it does not fail, and it ends where the
token does.  The rules are greedy, so it matters what comes next: a number ends at a character that
cannot go on with it, and a run of characters in a string at an escape or the closing quote. -/

namespace Rewind.Json

open Rewind.Parser RunProperty Syntax

/-! ## Numbers -/

namespace Token

theorem accepts_verbatim {t : String} (nonempty : text t ≠ []) (tail : Text) :
    (verbatim t).Accepts (text t ++ tail) (.ofText (text t)) tail :=
  accepts_literal nonempty

theorem rejects_verbatim {t : String} {first : Code} {ahead : Text}
    (begins : (text t).head? = some first) (other : ahead.head? ≠ some first) :
    (verbatim t).Rejects ahead :=
  rejects_of_missesAt fun _ kind here => missesAt_verbatim kind begins (here.symm ▸ other)

theorem rejects_satisfy {c : CharClass} {ahead : Text}
    (other : ∀ x ∈ ahead.head?, c.accepts x = false) : (satisfy c).Rejects ahead :=
  rejects_of_missesAt fun _ _ here => missesAt_satisfy (here.symm ▸ other)

/-- The longest run of digits is taken. -/
theorem accepts_digits {digits tail : Text} (all : ∀ c ∈ digits, CharClass.isDigit c = true)
    (ends : ∀ c ∈ tail.head?, CharClass.isDigit c = false) :
    digit.zeroOrMore.Accepts (digits ++ tail) (digits.map fun c => .ofText [c]) tail := by
  induction digits with
  | nil => exact (rejects_satisfy ends).zeroOrMore
  | cons c digits ih =>
    have rest := ih fun c member => all c (List.mem_cons_of_mem _ member)
    exact (accepts_satisfy (all c List.mem_cons_self)).zeroOrMore (advances_satisfy _) rest

/-- At least one digit. -/
theorem accepts_run {digits tail : Text} (nonempty : digits ≠ [])
    (all : ∀ c ∈ digits, CharClass.isDigit c = true)
    (ends : ∀ c ∈ tail.head?, CharClass.isDigit c = false) :
    (digit.atLeastOne.map fun ds => ds.flatMap Buffer.codes).Accepts (digits ++ tail) digits tail := by
  obtain ⟨c, more, rfl⟩ := List.exists_cons_of_ne_nil nonempty
  have others := accepts_digits (fun c member => all c (List.mem_cons_of_mem _ member)) ends
  have first : digit.Accepts ((c :: more) ++ tail) (.ofText [c]) (more ++ tail) :=
    accepts_satisfy (all c List.mem_cons_self)
  have repeated := first.bind (f := fun x => digit.zeroOrMore.map (x :: ·)) (others.map _)
  have units : (Buffer.ofText [c] :: more.map fun c => Buffer.ofText [c]).flatMap Buffer.codes =
      c :: more := by
    rw [← List.map_cons (f := fun c => Buffer.ofText [c]), List.flatMap_map]
    simp
  have whole := repeated.map fun ds => ds.flatMap Buffer.codes
  rwa [units] at whole

def leadingSign : Text → Text
  | [] => []
  | c :: _ => if c ∈ text "-+" then [c] else []

theorem accepts_leadingSign (t : Text) : ∃ found, (found.map Buffer.codes).getD [] = leadingSign t ∧
    sign.optional.Accepts t found (t.drop (leadingSign t).length) := by
  by_cases signed : ∃ c ∈ t.head?, c ∈ text "-+"
  · obtain ⟨c, head, listed⟩ := signed
    obtain ⟨t, rfl⟩ := List.head?_eq_some_iff.1 head
    have whole : leadingSign (c :: t) = [c] := if_pos listed
    have marks : text "-+" = [0x2D, 0x2B] ∧ text "+" = [0x2B] := ⟨rfl, rfl⟩
    rw [whole]
    simp only [marks.1, List.mem_cons, List.not_mem_nil, or_false] at listed
    obtain rfl | rfl := listed
    · exact ⟨some _, rfl, ((accepts_verbatim (t := "-") (by decide) t).orElse).optional⟩
    · have minus : (text "-").head? = some 0x2D := rfl
      have plus := accepts_verbatim (t := "+") (by decide) t
      exact ⟨some _, rfl, ((rejects_verbatim minus (by simp [marks.2])).orElse_accepts plus).optional⟩
  · have unsigned : leadingSign t = [] := by
      cases t with
      | nil => rfl
      | cons c t => exact if_neg fun listed => signed ⟨c, rfl, listed⟩
    rw [unsigned]
    refine ⟨none, rfl, Rejects.optional (rejects_of_missesAt fun s kind here => ?_)⟩
    have other (c : Code) (listed : c ∈ text "-+") : s.rest.head? ≠ some c := fun head =>
      signed ⟨c, here ▸ head, listed⟩
    exact Dialect.missesAt_sign kind (other _ (by decide)) (other _ (by decide))

/-- A digit is no sign, so a numeral begins with the sign that it has. -/
theorem leadingSign_eq {sign digits : Text} (tail : Text)
    (listed : sign ∈ [text "", text "-", text "+"]) (nonempty : digits ≠ [])
    (all : ∀ c ∈ digits, CharClass.isDigit c = true) :
    leadingSign (sign ++ (digits ++ tail)) = sign := by
  simp only [List.mem_cons, List.not_mem_nil, or_false] at listed
  obtain rfl | rfl | rfl := listed
  · obtain ⟨c, more, rfl⟩ := List.exists_cons_of_ne_nil nonempty
    refine if_neg fun listed => ?_
    have digit := all c List.mem_cons_self
    have marks : text "-+" = [0x2D, 0x2B] := rfl
    simp only [marks, List.mem_cons, List.not_mem_nil, or_false] at listed
    obtain rfl | rfl := listed <;> exact absurd digit (by decide)
  · rfl
  · rfl

theorem accepts_integer {t tail : Text} {l : Literal} (numeral : Numeral t l)
    (ends : ∀ c ∈ tail.head?, CharClass.isDigit c = false) :
    integer.Accepts (t ++ tail) l tail := by
  obtain @⟨sign, digits, listed, nonempty, all⟩ := numeral
  obtain ⟨found, spelled, signed⟩ := accepts_leadingSign (sign ++ (digits ++ tail))
  rw [leadingSign_eq tail listed nonempty all] at spelled signed
  rw [List.drop_left] at signed
  have whole := (accepts_run nonempty all ends).map fun ds =>
    (⟨(found.map Buffer.codes).getD [], ds⟩ : Literal)
  rw [map_map] at whole
  rw [List.append_assoc, ← spelled]
  rw [← spelled] at signed
  exact signed.bind whole

/-- Without an introducer the part is absent. -/
theorem accepts_absent {introducers ahead : Text} (other : ∀ c ∈ ahead.head?, c ∉ introducers) :
    (introduced introducers).Accepts ahead none ahead := by
  refine (accepts_peek ahead).bind ?_
  cases ahead with
  | nil => exact accepts_pure none []
  | cons c ahead =>
    have unlisted : introducers.contains c = false := by simp [other c rfl]
    simp only [List.head?_cons, Option.map_some, Buffer.codes_ofText, List.all_cons, List.all_nil,
      unlisted, Bool.false_and, Bool.false_eq_true, if_false]
    exact accepts_pure none _

theorem accepts_introduced {introducers t tail : Text} {part : Option Literal}
    (derived : Part introducers t part) (other : ∀ c ∈ tail.head?, c ∉ introducers)
    (ends : ∀ c ∈ tail.head?, CharClass.isDigit c = false) :
    (introduced introducers).Accepts (t ++ tail) part tail := by
  cases derived with
  | absent => exact accepts_absent other
  | @present c t l listed numeral =>
    refine (accepts_peek _).bind ?_
    simp only [List.cons_append, List.head?_cons, Option.map_some, Buffer.codes_ofText,
      List.all_cons, List.all_nil, Bool.and_true, List.contains_iff_mem.2 listed, if_true]
    exact ((accepts_satisfy (CharClass.accepts_anyOf.2 listed)).right
      (accepts_integer numeral ends)).map _

/-- A part begins with its introducer, or it is absent and the text goes on after it. -/
theorem head_part {introducers t tail : Text} {part : Option Literal} {c : Code}
    (derived : Part introducers t part) (head : (t ++ tail).head? = some c) :
    c ∈ introducers ∨ tail.head? = some c := by
  cases derived with
  | absent => exact .inr head
  | present listed _ =>
    cases head
    exact .inl listed

/-! ## Strings

A chunk takes all characters up to the next escape or the end of the string at once, so the characters
of a derivation are matched in runs. -/

theorem items_span {t x : Text} (items : Items t x) :
    ∃ run rest y, t = run ++ rest ∧ x = run ++ y ∧ (∀ c ∈ run, isPlain c = true) ∧
      Items rest y ∧ ∀ c ∈ rest.head?, c = 0x5C := by
  induction items with
  | nil => exact ⟨[], [], [], rfl, rfl, nofun, .nil, nofun⟩
  | @cons _ rest c _ item others ih =>
    cases item with
    | plain notQuote notBackslash =>
      obtain ⟨run, rest, y, rfl, rfl, plain, more, head⟩ := ih
      refine ⟨c :: run, rest, y, rfl, rfl, ?_, more, head⟩
      rintro other (_ | ⟨_, member⟩)
      · simp [isPlain, notQuote, notBackslash]
      · exact plain other member
    | short listed =>
      exact ⟨[], _, _, rfl, rfl, nofun, .cons (.short listed) others, by rintro _ ⟨⟩; rfl⟩
    | numbered four hex =>
      exact ⟨[], _, _, rfl, rfl, nofun, .cons (.numbered four hex) others, by rintro _ ⟨⟩; rfl⟩

theorem accepts_chunk {run tail : Text} (nonempty : run ≠ [])
    (plain : ∀ c ∈ run, isPlain c = true) (ends : ∀ c ∈ tail.head?, isPlain c = false) :
    chunk.Accepts (run ++ tail) run tail := by
  -- The scanner stops where the run ends, neither before nor after.
  have longest : (run ++ tail).takeWhile isPlain = run ∧ (run ++ tail).dropWhile isPlain = tail := by
    rw [List.takeWhile_append_of_pos plain, List.dropWhile_append_of_pos plain]
    cases tail with
    | nil => simp
    | cons c tail => simp [ends c rfl]
  have taken := accepts_takeWhile isPlain (run ++ tail)
  rw [longest.1, longest.2] at taken
  refine taken.bind ?_
  have some : (Buffer.ofText run).isEmpty = false := by
    rw [Bool.eq_false_iff, Ne, Buffer.isEmpty_iff, Buffer.codes_ofText]
    exact nonempty
  simp only [some, Bool.false_eq_true, if_false, Buffer.codes_ofText]
  exact accepts_pure run tail

theorem rejects_chunk {ahead : Text} (ends : ∀ c ∈ ahead.head?, isPlain c = false) :
    chunk.Rejects ahead := by
  have empty : ahead.takeWhile isPlain = [] := by
    cases ahead with
    | nil => rfl
    | cons c tail => simp [ends c rfl]
  have taken := accepts_takeWhile isPlain ahead
  rw [empty] at taken
  refine taken.bind_rejects ?_
  exact fun s _ _ j => ⟨_, _, rfl⟩

theorem rejects_escape {ahead : Text} (other : ∀ c ∈ ahead.head?, c ≠ 0x5C) :
    escape.Rejects ahead := by
  refine Rejects.bind (rejects_satisfy fun c head => ?_) _
  have backslash : text "\\" = [0x5C] := rfl
  simpa [CharClass.only, backslash] using other c head

theorem accepts_short {c x : Code} {tail : Text} (listed : (c, x) ∈ escapes) :
    escape.Accepts ([0x5C, c] ++ tail) [x] tail := by
  -- The table has each letter once, so looking it up gives its pair.
  have value : unescape c = x := by
    simp only [escapes, List.mem_cons, Prod.mk.injEq, List.not_mem_nil, or_false] at listed
    rcases listed with ⟨rfl, rfl⟩ | ⟨rfl, rfl⟩ | ⟨rfl, rfl⟩ | ⟨rfl, rfl⟩ | ⟨rfl, rfl⟩ | ⟨rfl, rfl⟩ |
      ⟨rfl, rfl⟩ | ⟨rfl, rfl⟩ <;> rfl
  have letter : (CharClass.anyOf (escapes.map Prod.fst)).accepts c = true :=
    CharClass.accepts_anyOf.2 (List.mem_map_of_mem listed)
  have found : (anyOf (escapes.map Prod.fst)).Accepts (c :: tail) (.ofText [c]) tail :=
    accepts_satisfy letter
  have unescaped := found.map fun b => b.codes.map unescape
  rw [Buffer.codes_ofText, List.map_singleton, value] at unescaped
  exact (accepts_satisfy rfl).right unescaped.orElse

theorem accepts_count {c : CharClass} {units : Text} (tail : Text)
    (all : ∀ unit ∈ units, c.accepts unit = true) :
    (count units.length (satisfy c)).Accepts (units ++ tail)
      (units.map fun unit => .ofText [unit]) tail := by
  induction units with
  | nil => exact accepts_pure [] tail
  | cons unit units ih =>
    have rest := ih fun unit member => all unit (List.mem_cons_of_mem _ member)
    exact (accepts_satisfy (all unit List.mem_cons_self)).bind (rest.map _)

theorem accepts_numbered {digits tail : Text} (four : digits.length = 4)
    (hex : ∀ c ∈ digits, CharClass.isHexDigit c = true) :
    escape.Accepts (0x5C :: 0x75 :: digits ++ tail) [ofHex digits] tail := by
  have counted := (accepts_count (c := .hexDigit) tail hex).map fun ds =>
    [ofHex (ds.flatMap Buffer.codes)]
  have units : (digits.map fun c => Buffer.ofText [c]).flatMap Buffer.codes = digits := by
    rw [List.flatMap_map]
    simp
  rw [units, four] at counted
  have letter : (CharClass.anyOf (escapes.map Prod.fst)).accepts 0x75 = false := rfl
  refine (accepts_satisfy rfl).right (Rejects.orElse_accepts ?_ ((accepts_satisfy rfl).right counted))
  refine (rejects_satisfy ?_).map _
  rintro c ⟨⟩
  exact letter

theorem length_item {t : Text} {c : Code} (item : Item t c) : 0 < t.length := by
  cases item <;> exact Nat.succ_pos _

/-- All characters up to the closing quote are matched. -/
theorem accepts_items {t x : Text} (items : Items t x) (tail : Text) :
    ∃ parts : List Text, parts.flatten = x ∧
      (escape.orElse chunk).zeroOrMore.Accepts (t ++ 0x22 :: tail) parts (0x22 :: tail) := by
  obtain ⟨run, rest, y, whole, rfl, plain, more, head⟩ := items_span items
  have stops : ∀ c ∈ (rest ++ 0x22 :: tail).head?, isPlain c = false := by
    intro c first
    cases rest with
    | nil =>
      cases first
      rfl
    | cons =>
      cases first
      rw [head c rfl]
      rfl
  -- Either an escape comes next, or a run of plain characters that one chunk takes.
  by_cases empty : run = []
  · subst empty
    cases more with
    | nil =>
      subst whole
      refine ⟨[], rfl, Rejects.zeroOrMore (Rejects.orElse (rejects_escape ?_) (rejects_chunk stops))⟩
      rintro c ⟨⟩
      decide
    | @cons first others c y item more =>
      have shorter := length_item item
      obtain ⟨parts, flat, accepts⟩ := accepts_items more tail
      have escaped : escape.Accepts (first ++ (others ++ 0x22 :: tail)) [c]
          (others ++ 0x22 :: tail) := by
        cases item with
        | plain _ notBackslash => exact absurd (head c rfl) notBackslash
        | short listed => exact accepts_short listed
        | numbered four hex => exact accepts_numbered four hex
      refine ⟨[c] :: parts, by simp [flat], ?_⟩
      rw [whole, List.nil_append, List.append_assoc]
      exact escaped.orElse.zeroOrMore advances_item accepts
  · have shorter := List.length_pos_iff.2 empty
    obtain ⟨parts, flat, accepts⟩ := accepts_items more tail
    refine ⟨run :: parts, by simp [flat], ?_⟩
    rw [whole, List.append_assoc]
    refine Accepts.zeroOrMore (Rejects.orElse_accepts (rejects_escape ?_) ?_) advances_item accepts
    · intro c first
      obtain ⟨other, run, rfl⟩ := List.exists_cons_of_ne_nil empty
      cases first
      have kept := plain c List.mem_cons_self
      simp only [isPlain, Bool.and_eq_true, bne_iff_ne] at kept
      exact kept.2
    · exact accepts_chunk empty plain stops
termination_by t.length
decreasing_by
  all_goals
    simp only [whole, List.nil_append, List.length_append]
    omega

end Token

namespace Dialect

open Token

variable (d : Dialect)

theorem accepts_reported {α : Type} {p : Parser α} {ahead tail : Text} {x : α}
    (accepts : p.Accepts ahead x tail) (name : String) : (d.reported name p).Accepts ahead x tail := by
  simp only [reported]
  split
  · exact accepts.traced _
  · exact accepts

def endsNumber (c : Code) : Bool := !(text ".eE").contains c && !CharClass.isDigit c

theorem accepts_number {t tail : Text} {n : Number} (derived : NumberText d t n)
    (ends : ∀ c ∈ tail.head?, endsNumber c = true) : d.number.Accepts (t ++ tail) n tail := by
  obtain @⟨whole, fraction, exponent, w, f, e, _, numeral, part, part', assembles⟩ := derived
  have marks : text ".eE" = [0x2E, 0x65, 0x45] ∧ text "." = [0x2E] ∧ text "eE" = [0x65, 0x45] :=
    ⟨rfl, rfl, rfl⟩
  simp only [endsNumber, marks.1, Bool.and_eq_true, Bool.not_eq_true', List.contains_eq_mem,
    decide_eq_false_iff_not, List.mem_cons, List.not_mem_nil, or_false, not_or] at ends
  rw [marks.2.1] at part
  rw [marks.2.2] at part'
  -- What follows a part is the next part or, where that is absent, what comes after it.
  have afterExponent : ∀ c ∈ tail.head?, c ∉ [0x65, 0x45] ∧ CharClass.isDigit c = false := by
    intro c head
    have other := ends c head
    simp [other]
  have afterFraction : ∀ c ∈ (exponent ++ tail).head?,
      c ∉ [0x2E] ∧ CharClass.isDigit c = false := by
    intro c head
    obtain listed | head := head_part part' head
    · simp only [List.mem_cons, List.not_mem_nil, or_false] at listed
      obtain rfl | rfl := listed <;> decide
    · have other := ends c head
      simp [other]
  have afterWhole : ∀ c ∈ (fraction ++ (exponent ++ tail)).head?, CharClass.isDigit c = false := by
    intro c head
    obtain listed | head := head_part part head
    · simp only [List.mem_singleton] at listed
      subst listed
      rfl
    · exact (afterFraction c head).2
  rw [List.append_assoc, List.append_assoc]
  refine d.accepts_reported ((accepts_integer numeral afterWhole).bind ?_) _
  refine (accepts_introduced part (fun c head => (afterFraction c head).1)
    fun c head => (afterFraction c head).2).bind ?_
  refine (accepts_introduced part' (fun c head => (afterExponent c head).1)
    fun c head => (afterExponent c head).2).bind ?_
  simp only [assembled, assembles]
  exact accepts_pure _ _

theorem accepts_stringBody {t x tail : Text} (body : Body d t x) :
    d.stringBody.Accepts (t ++ 0x22 :: tail) x (0x22 :: tail) := by
  cases body with
  | raw asWritten free =>
    -- As written, a string ends at the first quote.
    have longest : (t ++ 0x22 :: tail).takeWhile (· != 0x22) = t ∧
        (t ++ 0x22 :: tail).dropWhile (· != 0x22) = 0x22 :: tail := by
      have kept : ∀ c ∈ t, (c != 0x22) = true := fun c member => bne_iff_ne.2 (free c member)
      rw [List.takeWhile_append_of_pos kept, List.dropWhile_append_of_pos kept]
      simp
    have taken := (accepts_takeWhile (· != 0x22) (t ++ 0x22 :: tail)).map Buffer.codes
    rw [longest.1, longest.2, Buffer.codes_ofText] at taken
    simp only [stringBody, asWritten, Bool.false_eq_true, if_false]
    exact taken
  | @escaped y decodes items =>
    obtain ⟨parts, rfl, accepts⟩ := accepts_items items tail
    simp only [stringBody, decodes, if_true]
    exact accepts.map _

theorem accepts_quotedString {t x tail : Text} (quoted : Quoted d t x) :
    d.quotedString.Accepts (t ++ tail) x tail := by
  obtain ⟨body⟩ := quoted
  refine d.accepts_reported ?_ _
  rw [List.append_assoc]
  refine (accepts_verbatim (t := "\"") (by decide) _).bind ?_
  refine (d.accepts_stringBody body).bind ?_
  exact (accepts_verbatim (t := "\"") (by decide) tail).map _

/-! ## Words -/

theorem accepts_null (tail : Text) : d.null.Accepts (text "null" ++ tail) () tail :=
  d.accepts_reported ((accepts_verbatim (by decide) tail).map _) _

theorem accepts_true (tail : Text) : d.boolean.Accepts (text "true" ++ tail) true tail := by
  refine d.accepts_reported ?_ _
  exact (accepts_verbatim (t := "true") (by decide) tail).orElse.map fun word =>
    word.codes == text "true"

theorem accepts_false (tail : Text) : d.boolean.Accepts (text "false" ++ tail) false tail := by
  refine d.accepts_reported ?_ _
  have initial : (text "true").head? = some 0x74 := rfl
  have word : text "false" = [0x66, 0x61, 0x6C, 0x73, 0x65] := rfl
  have other : (text "false" ++ tail).head? ≠ some 0x74 := by simp [word]
  exact ((rejects_verbatim initial other).orElse_accepts
    (accepts_verbatim (t := "false") (by decide) tail)).map fun word => word.codes == text "true"

end Dialect

end Rewind.Json
