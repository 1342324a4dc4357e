import Mathlib.Data.List.DropRight
import Rewind.Proofs.Json.Levels
import Rewind.Proofs.Json.Nesting
import Rewind.Proofs.Json.TokenCompleteness

/-! # Derived values match

On a value that the grammar derives, no rule fails that should match, as long as what comes next closes
the value.  A rule may already have skipped white space that the derivation gives to its neighbour, so
what a rule leaves is compared without the white space in front of it. -/

namespace Rewind.Json

open Rewind.Parser RunProperty Syntax Token

/-- Text that closes a value: its end, or a character that comes after an element of a list. -/
def Closes (t : Text) : Prop := ∀ c ∈ t.head?, c ∈ text ",]\x7d"

theorem closes_cons {c : Code} (closer : c = 0x5D ∨ c = 0x7D) (more : Text) :
    Closes (c :: more) := by
  rintro _ ⟨⟩
  rcases closer with rfl | rfl <;> decide

namespace Dialect

variable (d : Dialect)

def StandardSpace : Prop := ∀ c ∈ d.whitespace, c ∈ text " \t\n\r"

instance : Decidable d.StandardSpace :=
  inferInstanceAs (Decidable (∀ c ∈ d.whitespace, c ∈ text " \t\n\r"))

def skip (t : Text) : Text := t.dropWhile d.whitespace.contains

section

variable {d}

theorem skip_append {w : Text} (blank : Blank d w) (t : Text) : d.skip (w ++ t) = d.skip t :=
  List.dropWhile_append_of_pos fun c member => List.contains_iff_mem.2 (blank c member)

theorem skip_append_eq (t u : Text) :
    d.skip (t ++ u) = if d.skip t = [] then d.skip u else d.skip t ++ u := by
  rw [skip, List.dropWhile_append]
  simp only [List.isEmpty_iff]
  rfl

theorem skip_cons {c : Code} (solid : c ∉ d.whitespace) (t : Text) : d.skip (c :: t) = c :: t :=
  List.dropWhile_cons_of_neg (by simpa using solid)

theorem skip_skip (t : Text) : d.skip (d.skip t) = d.skip t :=
  List.dropWhile_idempotent _ _

theorem StandardSpace.solid (standard : d.StandardSpace) {c : Code} (other : c ∉ text " \t\n\r") :
    c ∉ d.whitespace :=
  fun member => other (standard c member)

/-- Where white space or the end of a value comes next, a number ends. -/
theorem endsNumber_of_closes (standard : d.StandardSpace) {tail : Text}
    (closes : Closes (d.skip tail)) : ∀ c ∈ tail.head?, endsNumber c = true := by
  intro c head
  obtain ⟨rest, rfl⟩ := List.head?_eq_some_iff.1 head
  by_cases blank : c ∈ d.whitespace
  · have listed := standard c blank
    have spaces : text " \t\n\r" = [0x20, 0x09, 0x0A, 0x0D] := rfl
    simp only [spaces, List.mem_cons, List.not_mem_nil, or_false] at listed
    rcases listed with rfl | rfl | rfl | rfl <;> rfl
  · rw [skip_cons blank] at closes
    have listed := closes c rfl
    have closers : text ",]\x7d" = [0x2C, 0x5D, 0x7D] := rfl
    simp only [closers, List.mem_cons, List.not_mem_nil, or_false] at listed
    rcases listed with rfl | rfl | rfl <;> rfl

end

/-! ## Punctuation -/

theorem accepts_whiteSpace (ahead : Text) : ∃ b, d.whiteSpace.Accepts ahead b (d.skip ahead) :=
  ⟨_, accepts_takeWhile _ _⟩

theorem accepts_mark {t : String} {c : Code} (spelled : text t = [c]) {ahead mid : Text}
    (next : d.skip ahead = c :: mid) :
    ∃ b, ((d.whiteSpace.right (verbatim t)).left d.whiteSpace).Accepts ahead b (d.skip mid) := by
  obtain ⟨b, space⟩ := d.accepts_whiteSpace ahead
  obtain ⟨b', space'⟩ := d.accepts_whiteSpace mid
  have mark : (verbatim t).Accepts ([c] ++ mid) _ mid :=
    spelled ▸ accepts_verbatim (by simp [spelled]) mid
  rw [next] at space
  exact ⟨_, (space.right mark).left space'⟩

theorem rejects_mark {t : String} {c : Code} (spelled : text t = [c]) {ahead : Text}
    (other : (d.skip ahead).head? ≠ some c) :
    ((d.whiteSpace.right (verbatim t)).left d.whiteSpace).Rejects ahead := by
  obtain ⟨b, space⟩ := d.accepts_whiteSpace ahead
  have begins : (text t).head? = some c := by rw [spelled]; rfl
  exact (space.bind_rejects (rejects_verbatim begins other)).bind _

/-! ## Lists -/

section

variable {d} {α : Type} {Element : Text → α → Prop} {element : Parser α}

/-- `p` matches every element, and leaves what comes after it. -/
def Takes (d : Dialect) (p : Parser α) (Element : Text → α → Prop) : Prop :=
  ∀ t x tail, Element t x → Closes (d.skip tail) →
    ∃ left, p.Accepts (t ++ tail) x left ∧ d.skip left = d.skip tail

def Solid (d : Dialect) (Element : Text → α → Prop) : Prop :=
  ∀ t x, Element t x → ∃ c rest, t = c :: rest ∧ c ∉ d.whitespace

theorem Solid.skip_append (solid : Solid d Element) {t : Text} {x : α} (derived : Element t x)
    (tail : Text) : d.skip (t ++ tail) = t ++ tail := by
  obtain ⟨c, rest, rfl, other⟩ := solid t x derived
  exact skip_cons other _

variable (standard : d.StandardSpace) (solid : Solid d Element) (takes : Takes d element Element)
  (advances : element.Advances)

include standard

omit solid takes advances in
theorem following_closes {body tail : Text} {xs : List α} (following : Following d Element body xs)
    (closes : Closes (d.skip tail)) : Closes (d.skip (body ++ tail)) := by
  cases following with
  | nil => exact closes
  | @cons before after t rest x xs blank _ _ _ =>
    have comma : (0x2C : Code) ∉ d.whitespace := standard.solid (by decide)
    simp only [List.append_assoc, List.cons_append]
    rw [skip_append blank, skip_cons comma]
    rintro c ⟨⟩
    decide

include solid takes advances

theorem accepts_following {body : Text} {xs : List α} (following : Following d Element body xs)
    {ahead tail more : Text} {close : Code} (next : d.skip ahead = d.skip (body ++ tail))
    (closed : d.skip tail = close :: more)
    (closer : close = 0x5D ∨ close = 0x7D) :
    ∃ left, (rounds (d.comma.right element) (d.comma.right element)).Accepts ahead xs left ∧
      d.skip left = d.skip tail := by
  induction following generalizing ahead with
  | nil =>
    -- No comma comes next, so the loop ends.
    have other : (d.skip ahead).head? ≠ some 0x2C := by
      rw [next, List.nil_append, closed]
      rcases closer with rfl | rfl <;> simp
    exact ⟨ahead, Rejects.rounds ((d.rejects_mark rfl other).bind _) _, next⟩
  | @cons before after t rest x xs blank blank' derived following ih =>
    have comma : (0x2C : Code) ∉ d.whitespace := standard.solid (by decide)
    have closes : Closes (d.skip tail) := closed ▸ closes_cons closer more
    -- A comma comes next, possibly after white space that the element before it has skipped.
    simp only [List.append_assoc, List.cons_append] at next
    rw [skip_append blank, skip_cons comma] at next
    obtain ⟨b, separator⟩ := d.accepts_mark (t := ",") rfl next
    rw [skip_append blank', solid.skip_append derived] at separator
    -- The element ends at the next comma or where the list is closed.
    obtain ⟨left, first, same⟩ := takes t x (rest ++ tail) derived
      (following_closes standard following closes)
    obtain ⟨last, others, ended⟩ := ih same
    refine ⟨last, (separator.right first).rounds ?_ others, ended⟩
    exact advances_bind_rest (d.obeys_comma forward_compositional) fun _ => advances

theorem accepts_separated {body : Text} {xs : List α} (separated : Separated d Element body xs)
    {tail more : Text} {close : Code}
    (closed : d.skip tail = close :: more) (closer : close = 0x5D ∨ close = 0x7D)
    (rejects : element.Rejects (close :: more)) :
    ∃ left, (rounds element (d.comma.right element)).Accepts (d.skip (body ++ tail)) xs left ∧
      d.skip left = d.skip tail := by
  cases separated with
  | nil =>
    have other : close ∉ d.whitespace := by
      rcases closer with rfl | rfl <;> exact standard.solid (by decide)
    refine ⟨close :: more, ?_, ?_⟩
    · rw [List.nil_append, closed]
      exact rejects.rounds _
    · rw [skip_cons other, closed]
  | @cons t rest x xs derived following =>
    have closes : Closes (d.skip tail) := closed ▸ closes_cons closer more
    obtain ⟨left, first, same⟩ := takes t x (rest ++ tail) derived
      (following_closes standard following closes)
    obtain ⟨last, others, ended⟩ := accepts_following standard solid takes advances following same
      closed closer
    refine ⟨last, ?_, ended⟩
    rw [List.append_assoc, solid.skip_append derived]
    exact first.rounds advances others

end

/-! ## Where values begin -/

section

variable {d} (standard : d.StandardSpace)

include standard

theorem solid_member {Element : Text → Json → Prop} : Solid d (Member d Element) := by
  rintro t entry ⟨⟨body⟩, _, _, _⟩
  exact ⟨_, _, rfl, standard.solid (by decide)⟩

omit standard in
/-- A number begins with a sign or a digit. -/
theorem head_numeral {t : Text} {l : Literal} (numeral : Numeral t l) :
    ∃ c rest, t = c :: rest ∧ (c = 0x2D ∨ c = 0x2B ∨ CharClass.isDigit c = true) := by
  obtain @⟨sign, digits, listed, nonempty, all⟩ := numeral
  obtain ⟨c, more, rfl⟩ := List.exists_cons_of_ne_nil nonempty
  simp only [List.mem_cons, List.not_mem_nil, or_false] at listed
  obtain rfl | rfl | rfl := listed
  · exact ⟨c, more, rfl, .inr (.inr (all c List.mem_cons_self))⟩
  · exact ⟨0x2D, c :: more, rfl, .inl rfl⟩
  · exact ⟨0x2B, c :: more, rfl, .inr (.inl rfl)⟩

omit standard in
theorem head_number {t : Text} {n : Number} (derived : NumberText d t n) :
    ∃ c rest, t = c :: rest ∧ (c = 0x2D ∨ c = 0x2B ∨ CharClass.isDigit c = true) := by
  obtain ⟨numeral, _, _, _⟩ := derived
  obtain ⟨c, rest, rfl, begins⟩ := head_numeral numeral
  exact ⟨c, _, rfl, begins⟩

theorem solid_scalar : Solid d (ScalarText d) := by
  intro t v scalar
  cases scalar with
  | string quoted =>
    obtain ⟨body⟩ := quoted
    exact ⟨_, _, rfl, standard.solid (by decide)⟩
  | true => exact ⟨_, _, rfl, standard.solid (by decide)⟩
  | false => exact ⟨_, _, rfl, standard.solid (by decide)⟩
  | null => exact ⟨_, _, rfl, standard.solid (by decide)⟩
  | number derived =>
    obtain ⟨c, rest, rfl, begins⟩ := head_number derived
    refine ⟨c, rest, rfl, standard.solid fun blank => ?_⟩
    have spaces : text " \t\n\r" = [0x20, 0x09, 0x0A, 0x0D] := rfl
    simp only [spaces, List.mem_cons, List.not_mem_nil, or_false] at blank
    rcases blank with rfl | rfl | rfl | rfl <;> revert begins <;> decide

/-- A value begins with a character that is no white space, and that announces which form it has. -/
theorem solid_valueOver (Element : Text → Json → Prop) : Solid d (ValueOver d Element) := by
  intro t v derived
  cases derived with
  | object => exact ⟨_, _, rfl, standard.solid (by decide)⟩
  | array => exact ⟨_, _, rfl, standard.solid (by decide)⟩
  | scalar known => exact solid_scalar standard t v known

theorem solid_valueWithin (levels : Nat) : Solid d (ValueWithin d levels) := by
  cases levels with
  | zero => nofun
  | succ levels => exact solid_valueOver standard _

theorem solid_value : Solid d (Syntax.Value d) := fun t v derived =>
  solid_valueWithin standard t.length t v (valueWithin_of_length derived (Nat.le_refl _))

end

/-! ## Scalars -/

theorem rejects_quotedString {ahead : Text} (other : ahead.head? ≠ some 0x22) :
    d.quotedString.Rejects ahead :=
  rejects_of_missesAt fun _ kind here => d.missesAt_quotedString kind (here.symm ▸ other)

theorem rejects_boolean {ahead : Text} (notTrue : ahead.head? ≠ some 0x74)
    (notFalse : ahead.head? ≠ some 0x66) : d.boolean.Rejects ahead :=
  rejects_of_missesAt fun _ kind here =>
    d.missesAt_boolean kind (here.symm ▸ notTrue) (here.symm ▸ notFalse)

theorem rejects_null {ahead : Text} (other : ahead.head? ≠ some 0x6E) : d.null.Rejects ahead :=
  rejects_of_missesAt fun _ kind here => d.missesAt_null kind (here.symm ▸ other)

/-- What comes next may only matter to a number. -/
theorem accepts_scalar {t tail : Text} {v : Json} (scalar : ScalarText d t v)
    (reads : ∀ n, v = .number n → d.number.Accepts (t ++ tail) n tail) :
    d.scalar.Accepts (t ++ tail) v tail ∧
      ∃ c rest, t = c :: rest ∧ c ≠ 0x7B ∧ c ≠ 0x5B := by
  cases scalar with
  | string quoted =>
    refine ⟨((d.accepts_quotedString quoted).map _).oneOf _, ?_⟩
    obtain ⟨body⟩ := quoted
    exact ⟨_, _, rfl, by decide, by decide⟩
  | true =>
    refine ⟨Rejects.oneOf_accepts ?_ (((d.accepts_true tail).map _).oneOf _),
      _, _, rfl, by decide, by decide⟩
    exact (d.rejects_quotedString (by simp [text])).map _
  | false =>
    refine ⟨Rejects.oneOf_accepts ?_ (((d.accepts_false tail).map _).oneOf _),
      _, _, rfl, by decide, by decide⟩
    exact (d.rejects_quotedString (by simp [text])).map _
  | null =>
    refine ⟨Rejects.oneOf_accepts ?_ (Rejects.oneOf_accepts ?_
      (((d.accepts_null tail).map _).oneOf _)), _, _, rfl, by decide, by decide⟩
    · exact (d.rejects_quotedString (by simp [text])).map _
    · exact (d.rejects_boolean (by simp [text]) (by simp [text])).map _
  | number derived =>
    have accepts := (reads _ rfl).map Json.number
    obtain ⟨c, rest, rfl, begins⟩ := head_number derived
    -- No other scalar begins with a sign or a digit.
    have differs : c ≠ 0x22 ∧ c ≠ 0x74 ∧ c ≠ 0x66 ∧ c ≠ 0x6E ∧ c ≠ 0x7B ∧ c ≠ 0x5B := by
      refine ⟨?_, ?_, ?_, ?_, ?_, ?_⟩
      all_goals
        rintro rfl
        revert begins
        decide
    obtain ⟨quote, yes, no, null, brace, bracket⟩ := differs
    refine ⟨Rejects.oneOf_accepts ?_ (Rejects.oneOf_accepts ?_ (Rejects.oneOf_accepts ?_
      (accepts.oneOf _))), c, rest, rfl, brace, bracket⟩
    · exact (d.rejects_quotedString (by simpa using quote)).map _
    · exact (d.rejects_boolean (by simpa using yes) (by simpa using no)).map _
    · exact (d.rejects_null (by simpa using null)).map _

/-! ## Containers -/

section

variable {d} {member : Parser Json} {Element : Text → Json → Prop} (standard : d.StandardSpace)
  (solid : Solid d Element) (takes : Takes d member Element)

include standard solid takes

theorem takes_entry : Takes d (d.entry member) (Member d Element) := by
  rintro _ _ tail @⟨key, before, after, t, k, v, quoted, blank, blank', derived⟩ closes
  obtain ⟨left, accepts, same⟩ := takes t v tail derived closes
  have colon : (0x3A : Code) ∉ d.whitespace := standard.solid (by decide)
  have next : d.skip (before ++ 0x3A :: (after ++ (t ++ tail))) = 0x3A :: (after ++ (t ++ tail)) := by
    rw [skip_append blank, skip_cons colon]
  obtain ⟨b, mark⟩ := d.accepts_mark (t := ":") rfl next
  rw [skip_append blank', solid.skip_append derived] at mark
  refine ⟨left, ?_, same⟩
  simp only [List.append_assoc, List.cons_append]
  exact (d.accepts_quotedString quoted).bind (mark.bind (accepts.map _))

variable (steady : member.Obeys forward)

include steady

theorem accepts_braced {before body after tail : Text} {members : List (Text × Json)}
    (blank : Blank d before) (separated : Separated d (Member d Element) body members)
    (blank' : Blank d after) :
    (d.braced member).Accepts (0x7B :: before ++ body ++ after ++ [0x7D] ++ tail)
      (ofMembers members) tail := by
  have brace : (0x7D : Code) ∉ d.whitespace := standard.solid (by decide)
  have closed : d.skip (after ++ 0x7D :: tail) = 0x7D :: tail := by
    rw [skip_append blank', skip_cons brace]
  -- Where the object is empty, the attempt at a first member has to fail.
  have rejects : (d.entry member).Rejects (0x7D :: tail) :=
    Rejects.bind (d.rejects_quotedString (by simp)) _
  obtain ⟨left, loop, same⟩ := accepts_separated standard (solid_member standard)
    (takes_entry standard solid takes) (d.advances_entry steady) separated closed (.inr rfl) rejects
  have opening := d.accepts_opening (t := "\x7b") (by decide)
    (before ++ (body ++ (after ++ 0x7D :: tail)))
  change Accepts _ _ _ (d.skip _) at opening
  rw [skip_append blank] at opening
  obtain ⟨b, space⟩ := d.accepts_whiteSpace left
  rw [same, closed] at space
  have closing := space.right (accepts_verbatim (t := "\x7d") (by decide) tail)
  have begins : text "\x7b" = [0x7B] := rfl
  have whole : (d.braced member).Accepts _ (ofMembers members) tail :=
    opening.right (loop.bind (closing.map _))
  rw [begins] at whole
  simpa only [List.append_assoc, List.cons_append, List.nil_append] using whole

variable (advances : member.Advances)

include advances

omit steady in
theorem accepts_bracketed {before body after tail : Text} {items : List Json}
    (blank : Blank d before) (separated : Separated d Element body items) (blank' : Blank d after)
    (rejects : member.Rejects (0x5D :: tail)) :
    (d.bracketed member).Accepts (0x5B :: before ++ body ++ after ++ [0x5D] ++ tail)
      (.array items) (d.skip tail) := by
  have bracket : (0x5D : Code) ∉ d.whitespace := standard.solid (by decide)
  have closed : d.skip (after ++ 0x5D :: tail) = 0x5D :: tail := by
    rw [skip_append blank', skip_cons bracket]
  obtain ⟨left, loop, same⟩ := accepts_separated standard solid takes advances separated closed
    (.inl rfl) rejects
  have opening := d.accepts_opening (t := "[") (by decide)
    (before ++ (body ++ (after ++ 0x5D :: tail)))
  change Accepts _ _ _ (d.skip _) at opening
  rw [skip_append blank] at opening
  obtain ⟨b, space⟩ := d.accepts_whiteSpace left
  -- Unlike an object, an array skips the white space after it.
  obtain ⟨b', space'⟩ := d.accepts_whiteSpace tail
  rw [same, closed] at space
  have closing := (space.right (accepts_verbatim (t := "]") (by decide) tail)).left space'
  have begins : text "[" = [0x5B] := rfl
  have whole : (d.bracketed member).Accepts _ (.array items) (d.skip tail) :=
    opening.right (loop.bind (closing.map _))
  rw [begins] at whole
  simpa only [List.append_assoc, List.cons_append, List.nil_append] using whole

end

/-! ## Values -/

section

variable {d} {member : Parser Json}

theorem accepts_container {p : Parser Json} {ahead tail : Text} {v : Json}
    (accepts : p.Accepts ahead v tail) (name : String) :
    (d.container name p).Accepts ahead v tail := by
  apply Accepts.marking
  split
  · exact accepts.concluded _
  · exact accepts

theorem rejects_container {p : Parser Json} {ahead : Text} (rejects : p.Rejects ahead)
    (name : String) : (d.container name p).Rejects ahead := by
  apply Rejects.marking
  split
  · exact rejects.concluded _
  · exact rejects

/-- After the white space, the value is the one that the next character announces. -/
theorem accepts_valueOver_of {ahead mid left : Text} {c : Code} {v : Json}
    (next : d.skip ahead = c :: mid)
    (accepts : (d.announced member (some (.ofText [c]))).Accepts (c :: mid) v left) :
    (d.valueOver member).Accepts ahead v left := by
  obtain ⟨b, space⟩ := d.accepts_whiteSpace ahead
  rw [next] at space
  rw [valueOver_eq]
  exact (space.right ((accepts_peek _).bind accepts)).marking _

theorem announced_other {c : Code} (brace : c ≠ 0x7B) (bracket : c ≠ 0x5B) :
    d.announced member (some (.ofText [c])) =
      passing [quoted (text "\x7b"), quoted (text "[")] d.scalar := by
  have braces : text "\x7b" = [0x7B] ∧ text "[" = [0x5B] := ⟨rfl, rfl⟩
  simp [announced, braces, Buffer.ofText, brace, bracket]

theorem rejects_valueOver (standard : d.StandardSpace) (tail : Text) :
    (d.valueOver member).Rejects (0x5D :: tail) := by
  have solid : (0x5D : Code) ∉ d.whitespace := standard.solid (by decide)
  obtain ⟨b, space⟩ := d.accepts_whiteSpace (0x5D :: tail)
  rw [skip_cons solid] at space
  have rejects (s : State) (kind : s.input.kind = .text) (here : s.rest = 0x5D :: tail) :=
    d.missesAt_of_head kind (show s.rest.head? = some 0x5D by rw [here]; rfl) rfl
  have scalar : d.scalar.Rejects (0x5D :: tail) := by
    refine Rejects.oneOf_cons ?_ (Rejects.oneOf_cons ?_ (Rejects.oneOf_cons ?_
      (Rejects.oneOf_singleton ?_)))
    · exact (rejects_of_missesAt fun s kind here => (rejects s kind here).1).map _
    · exact (rejects_of_missesAt fun s kind here => (rejects s kind here).2.1).map _
    · exact (rejects_of_missesAt fun s kind here => (rejects s kind here).2.2.1).map _
    · exact (rejects_of_missesAt fun s kind here => (rejects s kind here).2.2.2).map _
  rw [valueOver_eq]
  refine (space.bind_rejects ((accepts_peek _).bind_rejects ?_)).marking _
  rw [List.head?_cons, Option.map_some, announced_other (by decide) (by decide)]
  exact scalar.passing _

/-- What is left behind a value that `tail` comes after: an array takes the white space with it. -/
def behind (d : Dialect) (v : Json) (tail : Text) : Text :=
  match v with
  | .array _ => d.skip tail
  | _ => tail

theorem skip_behind (v : Json) (tail : Text) : d.skip (d.behind v tail) = d.skip tail := by
  cases v with
  | array items => exact skip_skip tail
  | _ => rfl

/-- What the members take, a value takes that has them as members. -/
theorem accepts_valueOver {Element : Text → Json → Prop} (standard : d.StandardSpace)
    (solid : Solid d Element) (takes : Takes d member Element) (steady : member.Obeys forward)
    (advances : member.Advances) (rejects : ∀ tail, member.Rejects (0x5D :: tail))
    {ahead t tail : Text} {v : Json} (derived : ValueOver d Element t v)
    (next : d.skip ahead = t ++ tail)
    (reads : ∀ n, v = .number n → d.number.Accepts (t ++ tail) n tail) :
    (d.valueOver member).Accepts ahead v (d.behind v tail) := by
  cases derived with
  | @object before body after members blank separated blank' =>
    have accepts : (d.braced member).Accepts _ (ofMembers members) tail :=
      accepts_braced standard solid takes steady blank separated blank'
    exact accepts_valueOver_of next (accepts_container accepts _)
  | @array before body after items blank separated blank' =>
    have accepts := accepts_bracketed standard solid takes advances blank separated blank'
      (rejects tail)
    exact accepts_valueOver_of next (accepts_container (accepts.passing _) _)
  | scalar known =>
    have same : d.behind v tail = tail := by
      cases known <;> rfl
    obtain ⟨accepts, c, rest, rfl, brace, bracket⟩ := d.accepts_scalar known reads
    rw [same]
    refine accepts_valueOver_of next ?_
    rw [announced_other brace bracket]
    exact accepts.passing _

/-- A number ends where the values around it go on. -/
theorem accepts_number_of_closes (standard : d.StandardSpace) {levels : Nat} {t tail : Text} {v : Json}
    (derived : ValueWithin d levels t v) (closes : Closes (d.skip tail)) (n : Number)
    (number : v = .number n) : d.number.Accepts (t ++ tail) n tail := by
  subst number
  cases levels with
  | zero => exact derived.elim
  | succ levels =>
    cases derived with
    | scalar known =>
      cases known with
      | number derived => exact d.accepts_number derived (endsNumber_of_closes standard closes)

/-- A value that does not nest deeper than the levels is matched, if nothing that comes next goes on
with it. -/
theorem accepts_nested (standard : d.StandardSpace) {levels : Nat} {ahead t tail : Text} {v : Json}
    (derived : ValueWithin d levels t v) (next : d.skip ahead = t ++ tail)
    (reads : ∀ n, v = .number n → d.number.Accepts (t ++ tail) n tail) :
    (d.nested levels).Accepts ahead v (d.behind v tail) := by
  induction levels generalizing ahead t tail v with
  | zero => exact derived.elim
  | succ levels ih =>
    have solid := solid_valueWithin standard levels
    rw [nested_succ]
    refine accepts_valueOver standard solid ?_ (d.obeys_nested d.covers_forward levels)
      (d.advances_nested levels) ?_ derived next reads
    · intro u w rest inner closes
      have member := ih inner (solid.skip_append inner rest)
        (accepts_number_of_closes standard inner closes)
      exact ⟨_, member, skip_behind w rest⟩
    · intro rest
      -- Where an array is empty, its first member fails, at the limit as well.
      cases levels with
      | zero => exact fun s _ _ j => ⟨_, _, rfl⟩
      | succ levels =>
        rw [nested_succ]
        exact rejects_valueOver standard rest

end

end Dialect

end Rewind.Json
