import Rewind.Proofs.Json.Completeness
import Rewind.Proofs.Json.Soundness
import Rewind.Proofs.Parser.Tidy

/-! # JSON matches leave no failure ahead

The first character of every token tells which token it is, so an alternative that got further than the
one that matched has never been tried.  A list is the exception: it ends with an attempt to read one
more element.  What stands there after the white space is the mark that closes the list, with which no
element begins, and so that attempt has not got past the mark. -/

namespace Rewind.Json

open Rewind.Parser RunProperty Token

/-! ## Tokens -/

namespace Token

variable {s : State}

theorem tidyAt_verbatim (t : String) (s : State) : (verbatim t).TidyAt s :=
  (failsInPlace_literal _).tidyAt (obeys_verbatim forward_compositional t) s

theorem tidyAt_satisfy (c : CharClass) (s : State) : (satisfy c).TidyAt s :=
  (failsInPlace_satisfy c).tidyAt (obeys_satisfy forward_compositional c) s

theorem head_of_yields_verbatim {t : String} {c : Code} {x : Buffer} {pos : Nat}
    (begins : (text t).head? = some c) (yields : (verbatim t).Yields s x pos) :
    s.rest.head? = some c := by
  have ahead : s.rest = text t ++ s.input.rest pos := (yields_verbatim yields).2
  rw [ahead, List.head?_append, begins, Option.some_or]

/-! ### Parts of strings -/

theorem missesAt_escape (other : s.rest.head? ≠ some 0x5C) : escape.MissesAt s := by
  refine (missesAt_satisfy fun x head => ?_).bind _
  rw [← Bool.not_eq_true, CharClass.accepts_only]
  intro backslash
  obtain rfl : x = 0x5C := by simpa [text] using backslash
  exact other head

theorem missesAt_chunk (ends : ∀ c ∈ s.rest.head?, isPlain c = false) : chunk.MissesAt s := by
  have stays : s.input.runEnd isPlain s.pos = s.pos := by
    rw [Buffer.runEnd_eq, ← State.rest]
    cases ahead : s.rest with
    | nil => rfl
    | cons c rest =>
      rw [ahead] at ends
      simp [ends c rfl]
  have empty : (s.input.slice s.pos s.pos).isEmpty = true := by
    rw [Buffer.isEmpty_iff, Buffer.codes_slice, Nat.sub_self, List.take_zero]
  refine ⟨⟨s.pos, [text "string character"], s.upcoming 1⟩, rfl, fun j => ?_⟩
  have ran : (takeWhile isPlain).run s j = (.matched (s.input.slice s.pos s.pos) s.pos none, j) := by
    simp only [takeWhile, stays]
  rw [chunk, run_bind, Run.resume_matched ran, if_pos empty]
  rfl

theorem missesAt_item (quote : s.rest.head? = some 0x22) : (escape.orElse chunk).MissesAt s := by
  refine (missesAt_escape ?_).orElse (missesAt_chunk ?_)
  · rw [quote]
    decide
  · rw [quote]
    rintro _ ⟨⟩
    rfl

theorem tidyAt_escape (s : State) : escape.TidyAt s := by
  have codes : unicodeEscape.Obeys forward := obeys_unicodeEscape forward_compositional
  have hex := obeys_satisfy forward_compositional CharClass.hexDigit
  refine (tidyAt_satisfy _ s).right ?_ fun _ mid _ => TidyAt.orElse ?_ ?_ codes (.inl ?_)
  · exact obeys_orElse forward_compositional (obeys_map (obeys_satisfy forward_compositional _) _) codes
  · exact (tidyAt_satisfy _ _).map _
  · exact (tidyAt_satisfy _ _).right (obeys_map (obeys_count forward_compositional hex 4) _)
      fun _ _ _ => (TidyAt.count (tidyAt_satisfy _) hex 4 _).map _
  · exact failsInPlace_map (failsInPlace_satisfy _) _ _

/-- A chunk fails only if it is empty, and then the cursor has not moved. -/
theorem failsInPlace_chunk : chunk.FailsInPlace := by
  intro s
  refine RepliesAt.bind (fun _ => Reply.carriesOnly_none) fun run mid yields => ?_
  split
  case isTrue empty =>
    obtain ⟨ghost, j, k, ran⟩ := yields
    simp only [takeWhile, Prod.mk.injEq, Reply.matched.injEq] at ran
    obtain ⟨⟨rfl, rfl, -⟩, -⟩ := ran
    rw [Buffer.isEmpty_iff, codes_slice_runEnd] at empty
    have stays : s.input.runEnd isPlain s.pos = s.pos := by
      rw [Buffer.runEnd_eq, ← State.rest, empty]
      rfl
    rw [stays]
    exact failsInPlace_fail _ _
  case isFalse => exact fun _ => Reply.carriesOnly_none

theorem tidyAt_item (s : State) : (escape.orElse chunk).TidyAt s := by
  have chunks := obeys_chunk forward_compositional
  refine (tidyAt_escape s).orElse (failsInPlace_chunk.tidyAt chunks s) chunks ?_
  by_cases backslash : s.rest.head? = some 0x5C
  · refine .inr (missesAt_chunk ?_)
    rw [backslash]
    rintro _ ⟨⟩
    rfl
  · exact .inl ((missesAt_escape backslash).repliesAt rfl)

/-! ### Parts of numbers -/

theorem tidyAt_integer (s : State) : integer.TidyAt s := by
  have digits := obeys_satisfy forward_compositional CharClass.digit
  have signs : (optional sign).FailsInPlace :=
    failsInPlace_optional (failsInPlace_orElse (failsInPlace_literal _) (failsInPlace_literal _))
  refine TidyAt.bind (signs.tidyAt ?_ s) (fun _ => ?_) fun _ mid _ => TidyAt.map ?_ _
  · exact obeys_optional forward_compositional (obeys_sign forward_compositional)
  · exact obeys_map (obeys_atLeastOne forward_compositional digits) _
  · refine (tidyAt_satisfy _ _).bind (fun _ => ?_) fun _ stop _ => TidyAt.map ?_ _
    · exact obeys_map (obeys_zeroOrMore forward_compositional digits) _
    · exact (failsInPlace_satisfy _).tidyAt_zeroOrMore (advances_satisfy _) (scripted_satisfy _)
        digits _

theorem tidyAt_introduced (introducers : Text) (s : State) : (introduced introducers).TidyAt s := by
  refine (tidyAt_peek s).bind ?_ ?_
  · rintro (_ | c)
    · exact obeys_pure forward_compositional _
    · dsimp only
      split
      · exact obeys_map (obeys_right forward_compositional (obeys_satisfy forward_compositional _)
          (obeys_integer forward_compositional)) _
      · exact obeys_pure forward_compositional _
  · rintro (_ | c) mid _
    · exact tidyAt_pure _ _
    · dsimp only
      split
      · exact ((tidyAt_satisfy _ _).right (obeys_integer forward_compositional) fun _ _ _ =>
          tidyAt_integer _).map _
      · exact tidyAt_pure _ _

end Token

namespace Dialect

variable (d : Dialect) {s : State}

theorem tidyAt_reported {α : Type} {p : Parser α} (tidy : p.TidyAt s) (name : String) :
    (d.reported name p).TidyAt s := by
  simp only [reported]
  split
  · exact tidy.traced _
  · exact tidy

theorem tidyAt_whiteSpace (s : State) : d.whiteSpace.TidyAt s :=
  tidyAt_takeWhile _ s

theorem tidyAt_opening (t : String) (s : State) : ((verbatim t).left d.whiteSpace).TidyAt s :=
  (tidyAt_verbatim t s).left (d.obeys_whiteSpace forward_compositional) d.tidyAt_whiteSpace

theorem tidyAt_mark (t : String) (s : State) : (d.whiteSpace.right (verbatim t)).TidyAt s :=
  (d.tidyAt_whiteSpace s).right (obeys_verbatim forward_compositional t) fun _ _ _ =>
    tidyAt_verbatim t _

theorem tidyAt_spacedMark (t : String) (s : State) :
    ((d.whiteSpace.right (verbatim t)).left d.whiteSpace).TidyAt s :=
  (d.tidyAt_mark t s).left (d.obeys_whiteSpace forward_compositional) d.tidyAt_whiteSpace

/-- The body of a string ends where there is no item, and what closes the string is a quote. -/
theorem tidyAt_quotedString (s : State) : d.quotedString.TidyAt s := by
  have quote (x : Text) : ((verbatim "\"").map fun _ => x).Obeys forward :=
    obeys_map (obeys_verbatim forward_compositional _) _
  refine d.tidyAt_reported (TidyAt.bind (tidyAt_verbatim _ s) (fun _ => ?_) fun _ mid _ => ?_) _
  · exact obeys_bind forward_compositional (d.obeys_stringBody forward_compositional) quote
  simp only [stringBody]
  split
  · rw [bind_map]
    refine tidyAt_zeroOrMore_bind advances_item (scripted_orElse scripted_escape scripted_chunk)
      (fun _ => tidyAt_item _) (fun _ => quote _) (fun _ _ => (tidyAt_verbatim _ _).map _) ?_
    intro xs pos y stop yields start e failed
    obtain ⟨_, _, closed⟩ := yields_map yields
    have misses := missesAt_item (head_of_yields_verbatim rfl closed)
    have here : e.pos = pos := (misses.repliesAt (P := (· = pos)) rfl).gives failed e rfl
    exact Nat.le_trans (Nat.le_of_eq here) (yields.precedes (quote _)).pos_le
  · exact ((tidyAt_takeWhile _ _).map _).bind quote fun _ _ _ => (tidyAt_verbatim _ _).map _

theorem tidyAt_number (s : State) : d.number.TidyAt s := by
  have made (w : Literal) (f e : Option Literal) := d.obeys_assembled forward_compositional w f e
  have part (introducers : Text) := obeys_introduced forward_compositional introducers
  refine d.tidyAt_reported ((tidyAt_integer s).bind (fun w => ?_) fun w mid _ => ?_) _
  · exact obeys_bind forward_compositional (part _) fun _ =>
      obeys_bind forward_compositional (part _) fun _ => made _ _ _
  refine (tidyAt_introduced _ _).bind (fun f => ?_) fun f stop _ => ?_
  · exact obeys_bind forward_compositional (part _) fun _ => made _ _ _
  refine (tidyAt_introduced _ _).bind (fun e => made _ _ _) fun e last _ => ?_
  refine tidyAt_of_inPlace (fun j => ?_) (made _ _ _)
  simp only [assembled]
  split
  · exact Reply.carriesOnly_none
  · exact Reply.carriesOnly_fault

theorem failsInPlace_reported {α : Type} {p : Parser α} (inPlace : p.FailsInPlace) (name : String) :
    (d.reported name p).FailsInPlace := by
  simp only [reported]
  split
  · exact fun s => (inPlace s).traced _
  · exact inPlace

theorem failsInPlace_boolean : d.boolean.FailsInPlace :=
  d.failsInPlace_reported
    (failsInPlace_map (failsInPlace_orElse (failsInPlace_literal _) (failsInPlace_literal _)) _) _

theorem failsInPlace_null : d.null.FailsInPlace :=
  d.failsInPlace_reported (failsInPlace_map (failsInPlace_literal _) _) _

def unquoted : List (Parser Json) :=
  [d.boolean.map .bool, d.null.map fun _ => .null, d.number.map .number]

theorem obeys_unquoted : ∀ p ∈ d.unquoted, p.Obeys forward := by
  have quiet := d.covers_forward
  simp only [unquoted, List.mem_cons, List.not_mem_nil, or_false]
  rintro p (rfl | rfl | rfl)
  · exact obeys_map (d.obeys_boolean quiet.toReports) _
  · exact obeys_map (d.obeys_null quiet.toReports) _
  · exact obeys_map (d.obeys_number quiet.toReports) _

theorem tidyAt_unquoted (s : State) : (oneOf d.unquoted).TidyAt s := by
  have steady := d.obeys_unquoted
  simp only [unquoted, List.forall_mem_cons] at steady
  obtain ⟨boolean, null, number, -⟩ := steady
  have boolean' := failsInPlace_map d.failsInPlace_boolean Json.bool
  have null' := failsInPlace_map d.failsInPlace_null fun _ => Json.null
  refine .oneOf_cons (boolean'.tidyAt boolean s) ?_ ?_ (.inl (boolean' s))
  · refine .oneOf_cons (null'.tidyAt null s) ?_ ?_ (.inl (null' s))
    · refine .oneOf_cons ((d.tidyAt_number s).map _) ?_ (List.forall_mem_nil _)
        (.inr (List.forall_mem_nil _))
      exact (failsInPlace_fail _).tidyAt (obeys_fail forward_compositional _) s
    · exact List.forall_mem_cons.2 ⟨number, List.forall_mem_nil _⟩
  · exact List.forall_mem_cons.2 ⟨null, List.forall_mem_cons.2 ⟨number, List.forall_mem_nil _⟩⟩

/-- A string fails in place, or nothing but a string begins there. -/
theorem quotedString_or_unquoted (kind : s.input.kind = .text) :
    d.quotedString.RepliesAt (Reply.CarriesOnly (· = s.pos)) s ∨ ∀ p ∈ d.unquoted, p.MissesAt s := by
  by_cases quote : s.rest.head? = some 0x22
  · have other {c : Code} (different : c ≠ 0x22) : s.rest.head? ≠ some c := by
      rw [quote]
      exact fun same => different (Option.some.inj same).symm
    have digit : ∀ x ∈ s.rest.head?, CharClass.isDigit x = false := by
      rw [quote]
      rintro _ ⟨⟩
      rfl
    refine .inr ?_
    simp only [unquoted, List.mem_cons, List.not_mem_nil, or_false]
    rintro p (rfl | rfl | rfl)
    · exact (d.missesAt_boolean kind (other (by decide)) (other (by decide))).map _
    · exact (d.missesAt_null kind (other (by decide))).map _
    · exact (d.missesAt_number kind (other (by decide)) (other (by decide)) digit).map _
  · exact .inl ((d.missesAt_quotedString kind quote).repliesAt rfl)

theorem tidyAt_scalar (kind : s.input.kind = .text) : d.scalar.TidyAt s :=
  .oneOf_cons ((d.tidyAt_quotedString s).map _) (d.tidyAt_unquoted s) d.obeys_unquoted
    ((d.quotedString_or_unquoted kind).imp_left fun inPlace => inPlace.map _)

/-! ## Where the white space ends -/

/-- The cursor after the white space. -/
def landing (s : State) : State := s.goto (s.input.runEnd d.whitespace.contains s.pos)

theorem pos_le_landing (s : State) : s.pos ≤ (d.landing s).pos := by
  rw [landing, State.pos_goto, Buffer.runEnd_eq]
  exact Nat.le_add_right _ _

theorem rest_landing (s : State) : (d.landing s).rest = d.skip s.rest := by
  rw [landing, State.rest, State.input_goto, State.pos_goto, Buffer.runEnd_eq, Buffer.rest_add]
  show s.rest.drop _ = s.rest.dropWhile _
  conv_lhs =>
    arg 2
    rw [← List.takeWhile_append_dropWhile (p := d.whitespace.contains) (l := s.rest)]
  exact List.drop_left

theorem landing_landing (s : State) : d.landing (d.landing s) = d.landing s := by
  have nothing : ((d.landing s).rest.takeWhile d.whitespace.contains).length = 0 := by
    have whole := congrArg List.length (List.takeWhile_append_dropWhile
      (p := d.whitespace.contains) (l := (d.landing s).rest))
    rw [List.length_append, ← skip, d.rest_landing, skip_skip] at whole
    rw [d.rest_landing]
    omega
  rw [landing, Buffer.runEnd_eq, ← State.rest, nothing]
  rfl

theorem landing_of_solid {c : Code} (head : s.rest.head? = some c) (solid : c ∉ d.whitespace) :
    d.landing s = s := by
  obtain ⟨tail, ahead⟩ := List.head?_eq_some_iff.1 head
  rw [landing, Buffer.runEnd_eq, ← State.rest, ahead]
  simp [solid]

theorem whiteSpace_run (j : Journal) :
    d.whiteSpace.run s j = (.matched (s.input.slice s.pos (d.landing s).pos) (d.landing s).pos none, j) :=
  rfl

theorem precedes_landing (s : State) : s.Precedes (d.landing s) :=
  Yields.precedes (d.obeys_whiteSpace forward_compositional)
    ⟨none, .empty, .empty, d.whiteSpace_run .empty⟩

theorem yields_whiteSpace {x : Buffer} {pos : Nat} (yields : d.whiteSpace.Yields s x pos) :
    s.goto pos = d.landing s := by
  obtain ⟨ghost, j, k, ran⟩ := yields
  cases ran
  rfl

/-- The character after the white space announces the value. -/
theorem valueOver_run (member : Parser Json) (j : Journal) :
    (d.valueOver member).run s j =
      Run.after s.pos none ((d.announced member ((d.landing s).upcoming 1)).run (d.landing s))
        (j.record (.marked valueMark s.pos)) := by
  rw [valueOver_eq]
  simp only [marking, Parser.right, run_bind, Run.resume, whiteSpace_run, peek, Run.after,
    Reply.after_after]
  rfl

theorem landed_of_yields_opening {t : String} {x : Buffer} {mid : Nat}
    (yields : ((verbatim t).left d.whiteSpace).Yields s x mid) :
    d.landing (s.goto mid) = s.goto mid := by
  obtain ⟨_, stop, _, space⟩ := yields_left yields
  have landed : s.goto mid = d.landing (s.goto stop) := d.yields_whiteSpace space
  rw [landed, landing_landing]

/-- What fails after the white space fails with it as well. -/
theorem failsAt_spaced {α : Type} {p : Parser α} {error : Failure}
    (fails : p.FailsAt (d.landing s) error) : (d.whiteSpace.right p).FailsAt s error :=
  FailsAt.bind_of_matched (fun _ => rfl) fails

/-- A mark fails after the white space in front of it, -/
theorem mark_repliesAt (t : String) (s : State) :
    (d.whiteSpace.right (verbatim t)).RepliesAt (Reply.CarriesOnly (· = (d.landing s).pos)) s := by
  refine RepliesAt.right (fun _ => Reply.carriesOnly_none) fun _ mid space => ?_
  rw [d.yields_whiteSpace space]
  exact failsInPlace_literal _ _

/-- and matches only if it stands there. -/
theorem head_of_yields_mark {t : String} {c : Code} {x : Buffer} {stop : Nat}
    (begins : (text t).head? = some c) (yields : (d.whiteSpace.right (verbatim t)).Yields s x stop) :
    (d.landing s).rest.head? = some c ∧ (d.landing s).pos < stop := by
  obtain ⟨_, mid, space, found⟩ := yields_right yields
  rw [d.yields_whiteSpace space] at found
  obtain ⟨_, spelled⟩ := List.head?_eq_some_iff.1 begins
  have nonempty : 0 < (text t).length := by
    rw [spelled]
    exact Nat.succ_pos _
  exact ⟨head_of_yields_verbatim begins found, (advances_verbatim nonempty _ _ _ found).1⟩

theorem head_of_yields_spacedMark {t : String} {c : Code} {x : Buffer} {stop : Nat}
    (begins : (text t).head? = some c)
    (yields : ((d.whiteSpace.right (verbatim t)).left d.whiteSpace).Yields s x stop) :
    (d.landing s).rest.head? = some c ∧ (d.landing s).pos < stop := by
  obtain ⟨_, mid, closed, trail⟩ := yields_left yields
  obtain ⟨head, reached⟩ := d.head_of_yields_mark begins closed
  have later := trail.precedes (d.obeys_whiteSpace forward_compositional)
  exact ⟨head, Nat.lt_of_lt_of_le reached later.pos_le⟩

/-- A further element lies behind the white space in front of its comma. -/
theorem further_behind {α : Type} {p : Parser α} (steady : p.Obeys forward) (s : State) :
    (d.comma.right p).RepliesAt (Reply.CarriesOnly ((d.landing s).pos ≤ ·)) s := by
  refine RepliesAt.right (RepliesAt.left ?_ fun _ _ _ _ => Reply.carriesOnly_none) fun x pos yields => ?_
  · exact (d.mark_repliesAt "," s).mono fun r only e carried => Nat.le_of_eq (only e carried).symm
  · have behind := Nat.le_of_lt (d.head_of_yields_spacedMark rfl yields).2
    exact (steady.repliesAt (s.goto pos)).mono fun r only e carried =>
      Nat.le_trans behind (only e carried)

/-! ## What cannot begin with a closing mark -/

def StopsAt {α : Type} (c : Code) (p : Parser α) : Prop :=
  ∀ s : State, s.input.kind = .text → (d.landing s).rest.head? = some c →
    p.RepliesAt (Reply.CarriesOnly (· ≤ (d.landing s).pos)) s

theorem stopsAt_of_fails {α : Type} {c : Code} {p : Parser α}
    (fails : ∀ s : State, s.input.kind = .text → (d.landing s).rest.head? = some c →
      ∃ e, p.FailsAt s e ∧ e.pos ≤ (d.landing s).pos) : d.StopsAt c p := by
  intro s kind head j
  obtain ⟨e, failing, before⟩ := fails s kind head
  rw [failing j]
  exact Reply.carriesOnly_failed before

section

variable (kind : s.input.kind = .text)

include kind

theorem fails_mark {t : String} {c : Code} (begins : (text t).head? = some c)
    (other : (d.landing s).rest.head? ≠ some c) :
    ∃ e, (d.whiteSpace.right (verbatim t)).FailsAt s e ∧ e.pos = (d.landing s).pos := by
  obtain ⟨e, here, fails⟩ := missesAt_verbatim (s := d.landing s) kind begins other
  exact ⟨e, d.failsAt_spaced fails, here⟩

theorem fails_further {α : Type} {c : Code} (head : (d.landing s).rest.head? = some c)
    (other : c ≠ 0x2C) (p : Parser α) :
    ∃ e, (d.comma.right p).FailsAt s e ∧ e.pos = (d.landing s).pos := by
  obtain ⟨e, fails, there⟩ := d.fails_mark kind (t := ",") rfl (by rwa [head, ne_eq, Option.some_inj])
  exact ⟨e, (fails.bind _).bind _, there⟩

theorem missesAt_scalar {c : Code} (head : s.rest.head? = some c) (other : beginsScalar c = false) :
    d.scalar.MissesAt s := by
  obtain ⟨string, boolean, null, number⟩ := d.missesAt_of_head kind head other
  refine MissesAt.oneOf (string.map _) ?_
  simp only [List.mem_cons, List.not_mem_nil, or_false]
  rintro p (rfl | rfl | rfl)
  · exact boolean.map _
  · exact null.map _
  · exact number.map _

theorem fails_nested (head : (d.landing s).rest.head? = some 0x5D) (levels : Nat) :
    ∃ e, (d.nested levels).FailsAt s e ∧ e.pos ≤ (d.landing s).pos := by
  cases levels with
  | zero => exact ⟨_, FailsAt.marking (p := fail _) (fun _ => rfl) _, d.pos_le_landing s⟩
  | succ levels =>
    have other {x : Code} (different : x ≠ 0x5D) : (d.landing s).rest.head? ≠ some x := by
      rw [head]
      exact fun same => different (Option.some.inj same).symm
    have announced : d.announced (d.nested levels) ((d.landing s).upcoming 1) =
        passing [quoted (text "\x7b"), quoted (text "[")] d.scalar :=
      d.announced_scalar (s := d.landing s) kind (other (by decide)) (other (by decide))
    have misses := d.missesAt_scalar (s := d.landing s) kind head rfl
    obtain ⟨e, here, fails⟩ := misses.passing [quoted (text "\x7b"), quoted (text "[")]
    rw [← announced] at fails
    have looked : (peek.bind (d.announced (d.nested levels))).FailsAt (d.landing s) e :=
      FailsAt.bind_of_matched (fun _ => rfl) fails
    exact ⟨e, (d.failsAt_spaced looked).marking _, Nat.le_of_eq here⟩

end

theorem stopsAt_further {α : Type} {c : Code} (other : c ≠ 0x2C) (p : Parser α) :
    d.StopsAt c (d.comma.right p) := by
  refine d.stopsAt_of_fails fun s kind head => ?_
  obtain ⟨e, fails, there⟩ := d.fails_further kind head other p
  exact ⟨e, fails, Nat.le_of_eq there⟩

theorem stopsAt_entry (standard : d.StandardSpace) (member : Parser Json) :
    d.StopsAt 0x7D (d.entry member) := by
  intro s kind head
  have other : s.rest.head? ≠ some 0x22 := by
    intro quote
    rw [d.landing_of_solid quote (standard.solid (by decide)), quote] at head
    exact absurd (Option.some.inj head) (by decide)
  exact ((d.missesAt_quotedString kind other).bind _).repliesAt (d.pos_le_landing s)

theorem stopsAt_nested (levels : Nat) : d.StopsAt 0x5D (d.nested levels) :=
  d.stopsAt_of_fails fun _ kind head => d.fails_nested kind head levels

/-! ## Containers, given that their members are tidy -/

section

variable (kind : s.input.kind = .text)

include kind

/-- A list, and the mark that closes it. -/
theorem tidyAt_list {α : Type} {element : Parser α} {closing : Parser Buffer} {c : Code}
    {make : List α → Json} (advances : element.Advances) (steady : element.Obeys forward)
    (tidy : ∀ t : State, t.input.kind = .text → element.TidyAt t) (stops : d.StopsAt c element)
    (other : c ≠ 0x2C) (last : closing.Obeys forward) (tidy' : ∀ t, closing.TidyAt t)
    (closes : ∀ t y stop, closing.Yields t y stop →
      (d.landing t).rest.head? = some c ∧ (d.landing t).pos < stop) :
    ((rounds element (d.comma.right element)).bind fun xs =>
      closing.map fun _ => make xs).TidyAt s := by
  have further : (d.comma.right element).Advances :=
    advances_bind_rest (d.obeys_comma forward_compositional) fun _ => advances
  refine tidyAt_rounds_bind advances further (tidy s kind) (fun mid => ?_)
    (fun _ => obeys_map last _) (fun _ _ => (tidy' _).map _) ?_
  · exact (d.tidyAt_spacedMark "," _).right steady fun _ _ _ => tidy _ kind
  · intro xs pos y stop yields r member start e failed
    obtain ⟨_, _, closed⟩ := yields_map yields
    obtain ⟨head, reached⟩ := closes _ _ _ closed
    have stops' : d.StopsAt c r := by
      simp only [List.mem_cons, List.not_mem_nil, or_false] at member
      obtain rfl | rfl := member
      · exact stops
      · exact d.stopsAt_further other _
    exact Nat.le_trans ((stops' (s.goto pos) kind head).gives failed e rfl) (Nat.le_of_lt reached)

variable {member : Parser Json} (steady : member.Obeys forward)
  (tidy : ∀ t : State, t.input.kind = .text → member.TidyAt t)

include steady tidy

theorem tidyAt_entry : (d.entry member).TidyAt s := by
  refine (d.tidyAt_quotedString s).bind (fun _ => ?_) fun _ mid _ => ?_
  · exact obeys_bind forward_compositional (d.obeys_colon forward_compositional) fun _ =>
      obeys_map steady _
  · exact (d.tidyAt_spacedMark ":" _).bind (fun _ => obeys_map steady _) fun _ stop _ =>
      (tidy (s.goto stop) kind).map _

theorem tidyAt_braced (standard : d.StandardSpace) : (d.braced member).TidyAt s := by
  refine (d.tidyAt_opening _ s).right (d.steady_members steady) fun _ mid _ => ?_
  exact d.tidyAt_list (s := s.goto mid) (c := 0x7D) kind (d.advances_entry steady)
    (d.obeys_entry d.covers_forward steady)
    (fun t kind => d.tidyAt_entry kind steady tidy) (d.stopsAt_entry standard member) (by decide)
    (d.obeys_mark forward_compositional _) (d.tidyAt_mark _)
    fun t y stop yields => d.head_of_yields_mark (by rfl) yields

theorem tidyAt_bracketed (advances : member.Advances) (stops : d.StopsAt 0x5D member) :
    (d.bracketed member).TidyAt s := by
  refine (d.tidyAt_opening _ s).right (d.steady_items steady) fun _ mid _ => ?_
  exact d.tidyAt_list (s := s.goto mid) (c := 0x5D) kind advances steady tidy stops (by decide)
    (d.obeys_spacedMark forward_compositional _) (d.tidyAt_spacedMark _)
    fun t y stop yields => d.head_of_yields_spacedMark (by rfl) yields

omit kind steady tidy in
theorem tidyAt_container {p : Parser Json} (tidy : p.TidyAt s) (name : String) :
    (d.container name p).TidyAt s := by
  apply TidyAt.marking
  split
  · exact tidy.concluded _
  · exact tidy

theorem tidyAt_announced (standard : d.StandardSpace) (advances : member.Advances)
    (stops : d.StopsAt 0x5D member) (c : Option Buffer) : (d.announced member c).TidyAt s := by
  have quiet := d.covers_forward
  simp only [announced]
  split
  · exact d.tidyAt_container (d.tidyAt_braced kind steady tidy standard) _
  · split
    · refine d.tidyAt_container (TidyAt.passing ?_ (d.obeys_bracketed quiet steady) _) _
      exact d.tidyAt_bracketed kind steady tidy advances stops
    · exact (d.tidyAt_scalar kind).passing (d.obeys_scalar quiet.toReports) _

end

theorem tidyAt_nested (standard : d.StandardSpace) (levels : Nat) (kind : s.input.kind = .text) :
    (d.nested levels).TidyAt s := by
  induction levels generalizing s with
  | zero => exact ((failsInPlace_fail _).tidyAt (obeys_fail forward_compositional _) s).marking _
  | succ levels ih =>
    have steady : (d.nested levels).Obeys forward := d.obeys_nested d.covers_forward levels
    rw [nested_succ, valueOver_eq]
    refine ((d.tidyAt_whiteSpace s).right ?_ fun _ mid _ => ?_).marking _
    · exact obeys_bind forward_compositional (obeys_peek forward_compositional)
        (d.steady_announced steady)
    · refine (tidyAt_peek _).bind (d.steady_announced steady) ?_
      exact fun c stop _ => d.tidyAt_announced (s := s.goto stop) kind steady (fun _ kind => ih kind)
        standard (d.advances_nested levels) (d.stopsAt_nested levels) c

end Dialect

end Rewind.Json
