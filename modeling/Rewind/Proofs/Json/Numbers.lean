import Rewind.Proofs.Json.Tidy
import Rewind.Proofs.Number.Literal
import Rewind.Proofs.Parser.Settles

/-! # Where numbers end

The number that a text begins with, by its characters: a sign and the longest run of digits, then the
same behind a point and behind an exponent mark, where there is one.  A run of digits must not be empty;
where one is, the text begins with no number, for after an introducer there is no way back.

The rule comes to just that, and its error lies where the first digit is missing.  What comes after a
number matters only as far as it could go on with it. -/

namespace Rewind.Json

open Rewind.Parser RunProperty

namespace Token

/-! ## Literals at the head of a text -/

/-- The longest run of digits that a text begins with, and what is left behind it.  There has to be one
digit, or else it is missing before all that is left. -/
def leadingDigits (t : Text) : Except Text (Text × Text) :=
  if t.takeWhile CharClass.isDigit = [] then .error t
  else .ok (t.takeWhile CharClass.isDigit, t.dropWhile CharClass.isDigit)

def leadingInteger (t : Text) : Except Text (Literal × Text) :=
  (leadingDigits (t.drop (leadingSign t).length)).map fun (digits, left) =>
    (⟨leadingSign t, digits⟩, left)

/-- The part of a number that a text begins with: nothing, unless there is an introducer, and then the
integer behind it, without which there is no number. -/
def leadingPart (introducers : Text) : Text → Except Text (Option Literal × Text)
  | [] => .ok (none, [])
  | c :: t =>
    if c ∈ introducers then (leadingInteger t).map fun (l, left) => (some l, left)
    else .ok (none, c :: t)

def leadingNumber (t : Text) : Except Text ((Literal × Option Literal × Option Literal) × Text) :=
  (leadingInteger t).bind fun (whole, t) =>
    (leadingPart (text ".") t).bind fun (fraction, t) =>
      (leadingPart (text "eE") t).map fun (exponent, t) => ((whole, fraction, exponent), t)

variable {t u left : Text} {w : Literal} {f e part : Option Literal}

theorem leadingDigits_eq_ok {digits : Text} :
    leadingDigits t = .ok (digits, left) ↔
      t = digits ++ left ∧ digits ≠ [] ∧ (∀ c ∈ digits, CharClass.isDigit c = true) ∧
        ∀ c ∈ left.head?, CharClass.isDigit c = false := by
  constructor
  · intro found
    rw [leadingDigits] at found
    split at found
    case isTrue => cases found
    case isFalse some =>
      cases found
      refine ⟨List.takeWhile_append_dropWhile.symm, some, List.all_eq_true.1 List.all_takeWhile, ?_⟩
      intro c head
      have stops := List.head?_dropWhile_not CharClass.isDigit t
      rw [Option.mem_def.1 head] at stops
      exact stops
  · rintro ⟨rfl, nonempty, all, ends⟩
    have none : left.takeWhile CharClass.isDigit = [] ∧ left.dropWhile CharClass.isDigit = left := by
      cases left with
      | nil => exact ⟨rfl, rfl⟩
      | cons c left => simp [ends c rfl]
    rw [leadingDigits, List.takeWhile_append_of_pos all, List.dropWhile_append_of_pos all, none.1,
      none.2, List.append_nil, if_neg nonempty]

theorem leadingDigits_eq_error (missing : leadingDigits t = .error left) :
    left = t ∧ ∀ c ∈ left.head?, CharClass.isDigit c = false := by
  rw [leadingDigits] at missing
  split at missing
  case isTrue none =>
    cases missing
    refine ⟨rfl, fun c head => ?_⟩
    obtain ⟨t, rfl⟩ := List.head?_eq_some_iff.1 head
    rw [← Bool.not_eq_true]
    intro digit
    rw [List.takeWhile_cons_of_pos digit] at none
    cases none
  case isFalse => cases missing

theorem leadingInteger_eq_ok :
    leadingInteger t = .ok (w, left) ↔
      leadingDigits (t.drop (leadingSign t).length) = .ok (w.digits, left) ∧
        w.sign = leadingSign t := by
  rw [leadingInteger]
  constructor
  · intro found
    cases read : leadingDigits (t.drop (leadingSign t).length) with
    | error missing =>
      rw [read] at found
      cases found
    | ok digits =>
      rw [read] at found
      cases found
      exact ⟨rfl, rfl⟩
  · rintro ⟨digits, sign⟩
    rw [digits, ← sign]
    rfl

/-- Without an introducer the part is absent. -/
theorem leadingPart_absent {introducers : Text} (other : ∀ c ∈ t.head?, c ∉ introducers) :
    leadingPart introducers t = .ok (none, t) := by
  cases t with
  | nil => rfl
  | cons c t => exact if_neg (other c rfl)

theorem leadingPart_present {introducers : Text} {c : Code} (listed : c ∈ introducers) (t : Text) :
    leadingPart introducers (c :: t) =
      (leadingInteger t).map fun found => (some found.1, found.2) := if_pos listed

theorem leadingNumber_eq_ok :
    leadingNumber t = .ok ((w, f, e), left) ↔
      ∃ mid stop, leadingInteger t = .ok (w, mid) ∧ leadingPart (text ".") mid = .ok (f, stop) ∧
        leadingPart (text "eE") stop = .ok (e, left) := by
  constructor
  · intro found
    rw [leadingNumber] at found
    -- The three stages of the scan, one inside the other.
    cases whole : leadingInteger t with
    | error missing =>
      rw [whole] at found
      cases found
    | ok read =>
      rw [whole] at found
      cases fraction : leadingPart (text ".") read.2 with
      | error missing =>
        simp only [Except.bind, fraction] at found
        cases found
      | ok read' =>
        simp only [Except.bind, fraction] at found
        cases exponent : leadingPart (text "eE") read'.2 with
        | error missing =>
          rw [exponent] at found
          cases found
        | ok read'' =>
          rw [exponent] at found
          cases found
          exact ⟨read.2, read'.2, rfl, fraction, exponent⟩
  · rintro ⟨mid, stop, whole, fraction, exponent⟩
    simp only [leadingNumber, whole, Except.bind, fraction, exponent, Except.map]

/-! ## What the digits denote -/

def denoted (l : Literal) : Int :=
  let n : Nat := Nat.ofDigits 10 (l.digits.reverse.map (· - 0x30))
  if l.sign = text "-" then -n else n

theorem value_of_leadingInteger (found : leadingInteger t = .ok (w, left)) :
    w.value = denoted w := by
  obtain ⟨_, _, all, _⟩ := leadingDigits_eq_ok.1 (leadingInteger_eq_ok.1 found).1
  exact Literal.value_eq all

/-! ## What follows a number

A digit could go on with any number, and a part could only begin behind all parts of its own kind.  What
comes after the first character behind a number does not matter. -/

theorem leadingSign_append (nonempty : t ≠ []) (u : Text) : leadingSign (t ++ u) = leadingSign t := by
  obtain ⟨c, t, rfl⟩ := List.exists_cons_of_ne_nil nonempty
  rfl

/-- What comes first behind `left`, if `left` is not all there is. -/
theorem head_append_of_ends {P : Code → Prop} (first : ∀ c ∈ left.head?, P c)
    (ends : left ≠ [] ∨ ∀ c ∈ u.head?, P c) : ∀ c ∈ (left ++ u).head?, P c := by
  cases left with
  | nil => exact ends.resolve_left (not_not_intro rfl)
  | cons c left => exact first

theorem leadingDigits_append {digits : Text} (found : leadingDigits t = .ok (digits, left))
    (ends : left ≠ [] ∨ ∀ c ∈ u.head?, CharClass.isDigit c = false) :
    leadingDigits (t ++ u) = .ok (digits, left ++ u) := by
  obtain ⟨rfl, nonempty, all, stops⟩ := leadingDigits_eq_ok.1 found
  exact leadingDigits_eq_ok.2
    ⟨List.append_assoc _ _ _, nonempty, all, head_append_of_ends stops ends⟩

theorem leadingInteger_append (found : leadingInteger t = .ok (w, left))
    (ends : left ≠ [] ∨ ∀ c ∈ u.head?, CharClass.isDigit c = false) :
    leadingInteger (t ++ u) = .ok (w, left ++ u) := by
  obtain ⟨digits, sign⟩ := leadingInteger_eq_ok.1 found
  -- The sign is that of the first character, and there is one, for there is a digit.
  have nonempty : t ≠ [] := by
    rintro rfl
    cases digits
  have inside : (leadingSign t).length ≤ t.length := by
    obtain ⟨c, t, rfl⟩ := List.exists_cons_of_ne_nil nonempty
    rw [leadingSign]
    split <;> simp
  have later := leadingDigits_append digits ends
  rw [← List.drop_append_of_le_length inside] at later
  rw [← leadingSign_append nonempty u] at later sign
  exact leadingInteger_eq_ok.2 ⟨later, sign⟩

theorem leadingPart_append {introducers : Text} (found : leadingPart introducers t = .ok (part, left))
    (ends : left ≠ [] ∨ ∀ c ∈ u.head?, c ∉ introducers ∧ CharClass.isDigit c = false) :
    leadingPart introducers (t ++ u) = .ok (part, left ++ u) := by
  by_cases introducer : ∃ c ∈ t.head?, c ∈ introducers
  · obtain ⟨c, head, listed⟩ := introducer
    obtain ⟨t, rfl⟩ := List.head?_eq_some_iff.1 head
    rw [leadingPart_present listed] at found
    cases read : leadingInteger t with
    | error missing =>
      rw [read] at found
      cases found
    | ok integer =>
      rw [read] at found
      cases found
      have later := leadingInteger_append read (ends.imp_right fun other c head => (other c head).2)
      rw [List.cons_append, leadingPart_present listed, later]
      rfl
  · have other : ∀ c ∈ t.head?, c ∉ introducers := fun c head listed => introducer ⟨c, head, listed⟩
    rw [leadingPart_absent other] at found
    cases found
    exact leadingPart_absent
      (head_append_of_ends other (ends.imp_right fun other c head => (other c head).1))

/-- Nothing is left behind a part that stands behind everything else. -/
theorem ne_nil_of_leadingPart {introducers : Text}
    (found : leadingPart introducers t = .ok (part, left)) (more : left ≠ []) : t ≠ [] := by
  rintro rfl
  cases found
  exact more rfl

theorem endsNumber_iff {c : Code} : Dialect.endsNumber c = true ↔
    c ∉ text "." ∧ c ∉ text "eE" ∧ CharClass.isDigit c = false := by
  have marks : text ".eE" = text "." ++ text "eE" := rfl
  simp only [Dialect.endsNumber, marks, Bool.and_eq_true, Bool.not_eq_true', List.contains_eq_mem,
    decide_eq_false_iff_not, List.mem_append, not_or, and_assoc]

theorem leadingNumber_append (found : leadingNumber t = .ok ((w, f, e), left))
    (ends : left ≠ [] ∨ ∀ c ∈ u.head?, Dialect.endsNumber c = true) :
    leadingNumber (t ++ u) = .ok ((w, f, e), left ++ u) := by
  obtain ⟨mid, stop, whole, fraction, exponent⟩ := leadingNumber_eq_ok.1 found
  -- If anything is left behind the last part, it was there behind the others as well.
  have beforeExponent : stop ≠ [] ∨ ∀ c ∈ u.head?, Dialect.endsNumber c = true :=
    ends.imp_left (ne_nil_of_leadingPart exponent)
  have beforeFraction : mid ≠ [] ∨ ∀ c ∈ u.head?, Dialect.endsNumber c = true :=
    beforeExponent.imp_left (ne_nil_of_leadingPart fraction)
  refine leadingNumber_eq_ok.2 ⟨mid ++ u, stop ++ u, leadingInteger_append whole ?_,
    leadingPart_append fraction ?_, leadingPart_append exponent ?_⟩
  · exact beforeFraction.imp_right fun other c head => (endsNumber_iff.1 (other c head)).2.2
  · refine beforeExponent.imp_right fun other c head => ?_
    exact ⟨(endsNumber_iff.1 (other c head)).1, (endsNumber_iff.1 (other c head)).2.2⟩
  · exact ends.imp_right fun other c head => (endsNumber_iff.1 (other c head)).2

/-! ## The rules find them -/

theorem settles_digits (t : Text) :
    (digit.atLeastOne.map fun ds => ds.flatMap Buffer.codes).Settles t (leadingDigits t) := by
  cases read : leadingDigits t with
  | error left =>
    obtain ⟨rfl, other⟩ := leadingDigits_eq_error read
    refine FailsBefore.map (FailsBefore.bind (failsBefore_of_missesAt fun s _ here => ?_) _) _
    exact missesAt_satisfy (here.symm ▸ other)
  | ok found =>
    obtain ⟨digits, left⟩ := found
    obtain ⟨rfl, nonempty, all, ends⟩ := leadingDigits_eq_ok.1 read
    exact accepts_run nonempty all ends

theorem settles_integer (t : Text) : integer.Settles t (leadingInteger t) := by
  obtain ⟨found, spelled, signed⟩ := accepts_leadingSign t
  have digits := (settles_digits (t.drop (leadingSign t).length)).map fun ds =>
    (⟨(found.map Buffer.codes).getD [], ds⟩ : Literal)
  have same : leadingInteger t = (leadingDigits (t.drop (leadingSign t).length)).map
      fun read => (⟨(found.map Buffer.codes).getD [], read.1⟩, read.2) := by
    rw [spelled]
    rfl
  rw [map_map, ← same] at digits
  have signs : (optional sign).FailsInPlace :=
    failsInPlace_optional (failsInPlace_orElse (failsInPlace_literal _) (failsInPlace_literal _))
  have steady := obeys_optional forward_compositional (obeys_sign forward_compositional)
  have onward := obeys_atLeastOne forward_compositional (obeys_satisfy forward_compositional .digit)
  exact .of_accepts signed (signs.tidyAt steady) steady (obeys_map onward _) digits

theorem settles_introduced (introducers t : Text) :
    (introduced introducers).Settles t (leadingPart introducers t) := by
  by_cases introducer : ∃ c ∈ t.head?, c ∈ introducers
  · obtain ⟨c, head, listed⟩ := introducer
    obtain ⟨t, rfl⟩ := List.head?_eq_some_iff.1 head
    have steady := obeys_satisfy forward_compositional (.anyOf introducers)
    have onward := obeys_integer forward_compositional
    rw [leadingPart_present listed]
    refine .of_accepts (accepts_peek _) tidyAt_peek (obeys_peek forward_compositional) ?_ ?_
    -- What was peeked at is an introducer, which leaves one way to go on.
    all_goals
      simp only [List.head?_cons, Option.map_some, Buffer.codes_ofText, List.all_cons, List.all_nil,
        Bool.and_true, List.contains_iff_mem.2 listed, if_true]
    · exact obeys_map (obeys_right forward_compositional steady onward) _
    · have first : (anyOf introducers).Accepts (c :: t) _ _ :=
        accepts_satisfy (CharClass.accepts_anyOf.2 listed)
      exact (Settles.of_accepts first (tidyAt_satisfy _) steady onward (settles_integer t)).map _
  · have other : ∀ c ∈ t.head?, c ∉ introducers := fun c head listed => introducer ⟨c, head, listed⟩
    rw [leadingPart_absent other]
    exact accepts_absent other

def literals : Parser (Literal × Option Literal × Option Literal) :=
  integer.bind fun whole =>
    (introduced (text ".")).bind fun fraction =>
      (introduced (text "eE")).map fun exponent => (whole, fraction, exponent)

theorem settles_literals (t : Text) : literals.Settles t (leadingNumber t) := by
  have steady := obeys_integer forward_compositional
  have part (introducers : Text) := obeys_introduced forward_compositional introducers
  have exponent (w : Literal) (f : Option Literal) (t : Text) :=
    (settles_introduced (text "eE") t).map fun e => (w, f, e)
  have fraction (w : Literal) (t : Text) :=
    (settles_introduced (text ".") t).bind (tidyAt_introduced _) (part _)
      (fun f => obeys_map (part _) _) (exponent w)
  exact (settles_integer t).bind tidyAt_integer steady
    (fun w => obeys_bind forward_compositional (part _) fun f => obeys_map (part _) _) fraction

end Token

namespace Dialect

open Token

variable (d : Dialect)

theorem number_eq : d.number =
    d.reported "number" (literals.bind fun l => d.assembled l.1 l.2.1 l.2.2) := by
  simp only [number, literals, bind_assoc, bind_map]

theorem failsBefore_reported {α : Type} {p : Parser α} {ahead left : Text}
    (fails : p.FailsBefore ahead left) (name : String) :
    (d.reported name p).FailsBefore ahead left := by
  simp only [reported]
  split
  · exact fails.traced _
  · exact fails

section

variable {d} {t left : Text} {w : Literal} {f e : Option Literal}

theorem accepts_number_of_leading (found : leadingNumber t = .ok ((w, f, e), left)) {n : Number}
    (made : Number.assemble d.exactFractions w f e = .ok n) : d.number.Accepts t n left := by
  have read := settles_literals t
  rw [found] at read
  rw [number_eq]
  refine d.accepts_reported (Accepts.bind read ?_) _
  simp only [assembled, made]
  exact accepts_pure n left

theorem failsBefore_number (missing : leadingNumber t = .error left) :
    d.number.FailsBefore t left := by
  have read := settles_literals t
  rw [missing] at read
  rw [number_eq]
  exact d.failsBefore_reported (FailsBefore.bind read _) _

theorem number_faults {s : State} (kind : s.input.kind = .text)
    (found : leadingNumber s.rest = .ok ((w, f, e), left)) {cause : Fault}
    (unmade : Number.assemble d.exactFractions w f e = .error cause) (j : Journal) :
    (d.number.run s j).1 = .fault cause := by
  have read := settles_literals s.rest
  rw [found] at read
  have faults (j : Journal) :
      ((literals.bind fun l => d.assembled l.1 l.2.1 l.2.2).run s j).1 = .fault cause := by
    obtain ⟨stop, ghost, k, ran, _⟩ := Accepts.run read kind rfl j
    rw [run_bind, Run.resume_matched ran]
    simp only [assembled, unmade]
    rfl
  rw [number_eq, reported]
  split
  · exact faults _
  · exact faults j

variable {s : State} {n : Number} {pos : Nat} {ghost : Option Failure} {j : Journal}

theorem end_of_number (inside : s.pos ≤ s.input.size)
    (replied : (d.number.run s j).1 = .matched n pos ghost) :
    pos + (s.input.rest pos).length = s.input.size := by
  have reached := Yields.precedes (d.obeys_number d.covers_forward.toReports)
    ⟨ghost, j, _, Prod.ext replied rfl⟩
  rw [Buffer.length_rest]
  exact Nat.add_sub_cancel' (reached.inside inside)

theorem leading_of_number (kind : s.input.kind = .text) (inside : s.pos ≤ s.input.size)
    (replied : (d.number.run s j).1 = .matched n pos ghost) :
    ∃ w f e, leadingNumber s.rest = .ok ((w, f, e), s.input.rest pos) ∧
      Number.assemble d.exactFractions w f e = .ok n := by
  cases leading : leadingNumber s.rest with
  | error left =>
    obtain ⟨error, failed, _⟩ := failsBefore_number leading s kind inside rfl j
    rw [failed] at replied
    cases replied
  | ok read =>
    obtain ⟨⟨w, f, e⟩, left⟩ := read
    cases made : Number.assemble d.exactFractions w f e with
    | error cause =>
      rw [number_faults kind leading made j] at replied
      cases replied
    | ok n' =>
      obtain ⟨stop, ghost', same, behind⟩ := accepts_number_of_leading leading made s kind rfl j
      rw [same] at replied
      cases replied
      exact ⟨w, f, e, behind ▸ rfl, made⟩

/-- A number stays what it is if something comes next that cannot go on with it, or if something else
already does. -/
theorem accepts_number_append {u : Text} (accepts : d.number.Accepts t n left)
    (ends : left ≠ [] ∨ ∀ c ∈ u.head?, endsNumber c = true) :
    d.number.Accepts (t ++ u) n (left ++ u) := by
  obtain ⟨pos, ghost, replied, rfl⟩ := accepts (.start (.ofText t)) rfl (State.rest_start t) .empty
  obtain ⟨w, f, e, found, made⟩ := leading_of_number rfl (Nat.zero_le _) replied
  rw [State.rest_start] at found
  exact accepts_number_of_leading (leadingNumber_append found ends) made

/-- The rule matches where a number stands whose parts can be put together, which gives the value, and
ends where the longest run of digits does.  Where no number stands it fails, at the place of the first
missing digit.  A number that is nothing but an integer is what its digits denote. -/
theorem number_reads_longest (kind : s.input.kind = .text) (inside : s.pos ≤ s.input.size)
    (j : Journal) :
    (∀ n pos, (∃ ghost, (d.number.run s j).1 = .matched n pos ghost) ↔
        ∃ w f e left, leadingNumber s.rest = .ok ((w, f, e), left) ∧
          Number.assemble d.exactFractions w f e = .ok n ∧ pos + left.length = s.input.size) ∧
      (∀ left, leadingNumber s.rest = .error left →
        ∃ error, (d.number.run s j).1 = .failed s.pos error ∧
          error.pos + left.length = s.input.size) ∧
      (∀ w f e left cause, leadingNumber s.rest = .ok ((w, f, e), left) →
        Number.assemble d.exactFractions w f e = .error cause →
        (d.number.run s j).1 = .fault cause) ∧
      ∀ w left, leadingNumber s.rest = .ok ((w, none, none), left) →
        ∃ pos ghost, (d.number.run s j).1 = .matched (.int (denoted w)) pos ghost := by
  refine ⟨fun n pos => ⟨?_, ?_⟩, fun left missing => failsBefore_number missing s kind inside rfl j,
    fun w f e left cause found unmade => number_faults kind found unmade j, ?_⟩
  · rintro ⟨ghost, replied⟩
    obtain ⟨w, f, e, found, made⟩ := leading_of_number kind inside replied
    exact ⟨w, f, e, _, found, made, end_of_number inside replied⟩
  · rintro ⟨w, f, e, left, found, made, ends⟩
    -- The parts are read at the cursor of the scan, so this is where the match ends.
    obtain ⟨stop, ghost, replied, behind⟩ := accepts_number_of_leading found made s kind rfl j
    have ends' := end_of_number inside replied
    rw [behind] at ends'
    obtain rfl : stop = pos := by omega
    exact ⟨ghost, replied⟩
  · intro w left found
    obtain ⟨mid, stop, whole, _⟩ := leadingNumber_eq_ok.1 found
    obtain ⟨pos, ghost, replied, _⟩ := accepts_number_of_leading found rfl s kind rfl j
    rw [value_of_leadingInteger whole] at replied
    exact ⟨pos, ghost, replied⟩

/-- The exponent has a sign and no digits. -/
theorem number_reads_longest_in_array :
    ∃ error, (Dialect.strict.number.run ⟨.ofText (text "[-12.5e+]"), 1⟩ .empty).1 =
      .failed 1 error ∧ error.pos = 8 := by
  have reads := @number_reads_longest .strict ⟨.ofText (text "[-12.5e+]"), 1⟩ rfl (by decide) .empty
  obtain ⟨error, failed, ends⟩ := reads.2.1 (text "]") rfl
  exact ⟨error, failed, Nat.add_right_cancel ends⟩

end

end Dialect

end Rewind.Json
