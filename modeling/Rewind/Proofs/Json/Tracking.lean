import Rewind.Proofs.Json.Tidy
import Rewind.Proofs.Parser.Tracking

/-! # JSON values that keep track

Two dialects that differ only in whether escapes are decoded, each with its own limit on the nesting.  If
their strings and scalars keep track of each other, so do all their rules.  For lists that is because an
element that fails does so where the mark that closes the list stands, or further on. -/

namespace Rewind.Json

open Rewind.Run Rewind.Parser RunProperty Token

def Dialect.escaping (d : Dialect) (decode : Bool) : Dialect := { d with decodeEscapes := decode }

theorem Dialect.escaping_self (d : Dialect) : d.escaping d.decodeEscapes = d := rfl

/-- The limits `levels` and `more` make no difference at `pos`: they are the same, or what is left of the
text cannot nest as deep as the second, nor as deep as the first, unless that is excused. -/
def Limits (τ : Tolerance) (levels more pos : Nat) : Prop :=
  levels = more ∨ (⟨τ.input, pos⟩ : State).remaining < more ∧
    ((⟨τ.input, pos⟩ : State).remaining < levels ∨ ∀ e, text "shallower nesting" ∈ e.expected → τ.excused e)

namespace Limits

variable {τ : Tolerance} {levels more pos mid : Nat}

theorem later (limits : Limits τ levels more pos) (reached : pos ≤ mid) :
    Limits τ levels more mid := by
  have left : (⟨τ.input, mid⟩ : State).remaining ≤ (⟨τ.input, pos⟩ : State).remaining :=
    Nat.sub_le_sub_left reached _
  exact limits.imp_right fun short => ⟨Nat.lt_of_le_of_lt left short.1,
    short.2.imp_left (Nat.lt_of_le_of_lt left)⟩

/-- A level down, at least one character is left behind. -/
theorem inner (limits : Limits τ (levels + 1) (more + 1) pos) (ahead : pos < mid)
    (inside : mid ≤ τ.input.size) : Limits τ levels more mid := by
  have left : (⟨τ.input, mid⟩ : State).remaining < (⟨τ.input, pos⟩ : State).remaining :=
    Nat.sub_lt_sub_left (Nat.lt_of_lt_of_le ahead inside) ahead
  obtain same | ⟨short, first⟩ := limits
  · exact .inl (Nat.succ.inj same)
  · refine .inr ⟨Nat.lt_of_lt_of_le left (Nat.le_of_lt_succ short), first.imp_left fun short => ?_⟩
    exact Nat.lt_of_lt_of_le left (Nat.le_of_lt_succ short)

end Limits

/-! ## What closes a list -/

namespace Dialect

structure ClosesWith (d : Dialect) (c : Code) (closing : Parser Buffer) : Prop
    extends Tolerance.Closing closing where
  found : ∀ s x stop, closing.Yields s x stop →
    (d.landing s).rest.head? = some c ∧ (d.landing s).pos < stop
  missed : ∀ s, closing.RepliesAt (Reply.CarriesOnly (· = (d.landing s).pos)) s

variable (d : Dialect)

theorem closesWith_mark {t : String} {c : Code} (begins : (text t).head? = some c) :
    d.ClosesWith c (d.whiteSpace.right (verbatim t)) where
  oblivious := (d.scripted_mark t).oblivious
  faultless := d.faultless_mark t
  steady := d.obeys_mark forward_compositional t
  ghostless := ghostless_right (ghostless_takeWhile _) (ghostless_literal _)
  found _ _ _ yields := d.head_of_yields_mark begins yields
  missed := d.mark_repliesAt t

theorem closesWith_spacedMark {t : String} {c : Code} (begins : (text t).head? = some c) :
    d.ClosesWith c ((d.whiteSpace.right (verbatim t)).left d.whiteSpace) where
  oblivious := (d.scripted_spacedMark t).oblivious
  faultless := d.faultless_spacedMark t
  steady := d.obeys_spacedMark forward_compositional t
  ghostless := ghostless_left (d.closesWith_mark begins).ghostless (ghostless_takeWhile _)
  found _ _ _ yields := d.head_of_yields_spacedMark begins yields
  missed s := (d.mark_repliesAt t s).left fun _ _ _ _ => Reply.carriesOnly_none

/-- With `c` at a cursor where the white space has been read, `p` fails there. -/
def NeverBegins {α : Type} (c : Code) (p : Parser α) : Prop :=
  ∀ s : State, s.input.kind = .text → d.landing s = s → s.rest.head? = some c →
    ∃ e, p.FailsAt s e ∧ e.pos ≤ s.pos

theorem neverBegins_entry (member : Parser Json) : d.NeverBegins 0x7D (d.entry member) := by
  intro s kind _ head
  have other : s.rest.head? ≠ some 0x22 := by
    rw [head]
    decide
  obtain ⟨e, here, fails⟩ := d.missesAt_quotedString kind other
  exact ⟨e, fails.bind _, Nat.le_of_eq here⟩

theorem neverBegins_nested (levels : Nat) : d.NeverBegins 0x5D (d.nested levels) := by
  intro s kind landed head
  have fails := d.fails_nested (s := s) kind (landed.symm ▸ head) levels
  rwa [landed] at fails

/-! ## Lists -/

variable {d} {τ : Tolerance}

section

variable {α : Type} {element element' : Parser α} {closing : Parser Buffer} {c : Code} {mid : Nat}
  (closes : d.ClosesWith c closing) (tracks : τ.Tracks element element' mid)
  (steady : element.Obeys forward)

include closes tracks steady

/-- The first element of a list, after the white space. -/
theorem elements_first (landed : d.landing ⟨τ.input, mid⟩ = ⟨τ.input, mid⟩)
    (never : ∀ r ∈ [element, element'], d.NeverBegins c r) :
    τ.Elements closing element element' mid where
  tracks := tracks
  closed y stop yields r member := by
    obtain ⟨head, reached⟩ := closes.found _ y stop yields
    rw [landed] at head reached
    obtain ⟨e, fails, before⟩ := never r member _ τ.kind landed head
    exact ⟨e, fails, Nat.lt_of_le_of_lt before reached⟩
  behind start e start' e' failed missed := by
    have there := (closes.missed _).gives missed e' rfl
    rw [landed] at there
    exact Nat.le_trans (Nat.le_of_eq there) ((steady.repliesAt _).gives failed e rfl)

omit tracks in
/-- An element after a comma. -/
theorem elements_further (steady' : element'.Obeys forward) (other : c ≠ 0x2C)
    (tracks : ∀ stop, mid ≤ stop → stop ≤ τ.input.size → τ.Tracks element element' stop)
    (inside : mid ≤ τ.input.size) :
    τ.Elements closing (d.comma.right element) (d.comma.right element') mid where
  tracks := by
    have comma : τ.Tracks d.comma d.comma mid := .self d.scripted_comma (d.tidyAt_spacedMark "," _)
    refine comma.right steady steady' fun _ stop yields => ?_
    have reached := yields.precedes (d.obeys_comma forward_compositional)
    exact tracks stop reached.pos_le (reached.inside inside)
  closed y stop yields := by
    obtain ⟨head, reached⟩ := closes.found _ y stop yields
    have fails {β : Type} (p : Parser β) :
        ∃ e, (d.comma.right p).FailsAt ⟨τ.input, mid⟩ e ∧ e.pos < stop := by
      obtain ⟨e, fails, there⟩ := d.fails_further (s := ⟨τ.input, mid⟩) τ.kind head other p
      exact ⟨e, fails, there ▸ reached⟩
    simp only [List.mem_cons, List.not_mem_nil, or_false]
    rintro r (rfl | rfl)
    · exact fails element
    · exact fails element'
  behind start e start' e' failed missed := by
    have there := (closes.missed _).gives missed e' rfl
    exact Nat.le_trans (Nat.le_of_eq there) ((d.further_behind steady _).gives failed e rfl)

end

/-- A list whose elements keep track, and the mark that closes it. -/
theorem tracks_list {α : Type} {element element' : Parser α} {closing : Parser Buffer} {c : Code}
    {make : List α → Json} {pos : Nat} (closes : d.ClosesWith c closing) (other : c ≠ 0x2C)
    (landed : d.landing ⟨τ.input, pos⟩ = ⟨τ.input, pos⟩) (inside : pos ≤ τ.input.size)
    (steady : element.Obeys forward) (steady' : element'.Obeys forward)
    (never : ∀ r ∈ [element, element'], d.NeverBegins c r)
    (tracks : ∀ mid, pos ≤ mid → mid ≤ τ.input.size → τ.Tracks element element' mid) :
    τ.Tracks ((rounds element (d.comma.right element)).bind fun xs => closing.map fun _ => make xs)
      ((rounds element' (d.comma.right element')).bind fun xs => closing.map fun _ => make xs)
      pos := by
  have comma := d.obeys_comma forward_compositional
  refine .list closes.toClosing (obeys_right forward_compositional comma steady)
    (obeys_right forward_compositional comma steady') ?_ fun mid ahead inside => ?_
  · exact elements_first closes (tracks pos (Nat.le_refl pos) inside) steady landed never
  · refine elements_further closes steady steady' other (fun stop reached => ?_) inside
    exact tracks stop (Nat.le_trans (Nat.le_of_lt ahead) reached)

/-! ## Containers, given that their members keep track -/

theorem tracks_reported {α : Type} {p q : Parser α} {pos : Nat} (tracks : τ.Tracks p q pos)
    (name : String) : τ.Tracks (d.reported name p) (d.reported name q) pos := by
  simp only [reported]
  split
  · exact tracks.traced _
  · exact tracks

theorem tracks_container {p q : Parser Json} {pos : Nat} (tracks : τ.Tracks p q pos)
    (name : String) : τ.Tracks (d.container name p) (d.container name q) pos := by
  refine Tolerance.Tracks.marking ?_ _
  split
  · exact tracks.concluded _
  · exact tracks

theorem tracks_whiteSpace (pos : Nat) : τ.Tracks d.whiteSpace d.whiteSpace pos :=
  .self d.scripted_whiteSpace (d.tidyAt_whiteSpace _)

/-- The strings and the scalars of the dialect keep track, whether escapes are decoded or not. -/
structure Tracked (τ : Tolerance) (d : Dialect) (decode : Bool) : Prop where
  strings : ∀ pos, τ.Tracks d.quotedString (d.escaping decode).quotedString pos
  scalars : ∀ pos, τ.Tracks d.scalar (d.escaping decode).scalar pos

theorem tracked_self (τ : Tolerance) (d : Dialect) : d.Tracked τ d.decodeEscapes where
  strings _ := .self d.scripted_quotedString (d.tidyAt_quotedString _)
  scalars _ := .self d.scripted_scalar (d.tidyAt_scalar τ.kind)

namespace Tracked

variable {decode : Bool} (tracked : d.Tracked τ decode) {member member' : Parser Json} {pos : Nat}

section

variable (steady : member.Obeys forward) (steady' : member'.Obeys forward)
  (members : ∀ mid, pos < mid → mid ≤ τ.input.size → τ.Tracks member member' mid)

include tracked steady steady' members

theorem entry : τ.Tracks (d.entry member) ((d.escaping decode).entry member') pos := by
  have colon := d.obeys_colon forward_compositional
  refine (tracked.strings pos).bind (fun _ => ?_) (fun _ => ?_) fun key mid yields => ?_
  · exact obeys_bind forward_compositional colon fun _ => obeys_map steady _
  · exact obeys_bind forward_compositional colon fun _ => obeys_map steady' _
  obtain ⟨ahead, inside⟩ := d.advances_quotedString _ _ _ yields
  have spaced : τ.Tracks d.colon d.colon mid := .self d.scripted_colon (d.tidyAt_spacedMark ":" _)
  refine spaced.bind (fun _ => obeys_map steady _) (fun _ => obeys_map steady' _) fun _ stop found => ?_
  have reached := found.precedes colon
  exact (members stop (Nat.lt_of_lt_of_le ahead reached.pos_le) (reached.inside inside)).map _

theorem braced : τ.Tracks (d.braced member) ((d.escaping decode).braced member') pos := by
  have entry := d.obeys_entry d.covers_forward steady
  have entry' := (d.escaping decode).obeys_entry (d.escaping decode).covers_forward steady'
  have opening : τ.Tracks ((verbatim "\x7b").left d.whiteSpace) ((verbatim "\x7b").left d.whiteSpace)
      pos := .self (d.scripted_opening _) (d.tidyAt_opening _ _)
  refine opening.right (d.steady_members steady) ((d.escaping decode).steady_members steady')
    fun _ mid yields => ?_
  obtain ⟨ahead, inside⟩ := d.advances_opening (by decide) _ _ _ yields
  refine tracks_list (d.closesWith_mark (c := 0x7D) rfl) (by decide)
    (d.landed_of_yields_opening yields) inside entry entry' ?_ fun stop reached _ => ?_
  · simp only [List.mem_cons, List.not_mem_nil, or_false]
    rintro r (rfl | rfl)
    · exact d.neverBegins_entry member
    · exact (d.escaping decode).neverBegins_entry member'
  · exact tracked.entry steady steady' fun last beyond =>
      members last (Nat.lt_trans (Nat.lt_of_lt_of_le ahead reached) beyond)

omit tracked in
theorem bracketed (never : ∀ r ∈ [member, member'], d.NeverBegins 0x5D r) :
    τ.Tracks (d.bracketed member) ((d.escaping decode).bracketed member') pos := by
  have opening : τ.Tracks ((verbatim "[").left d.whiteSpace) ((verbatim "[").left d.whiteSpace) pos :=
    .self (d.scripted_opening _) (d.tidyAt_opening _ _)
  refine opening.right (d.steady_items steady) ((d.escaping decode).steady_items steady')
    fun _ mid yields => ?_
  obtain ⟨ahead, inside⟩ := d.advances_opening (by decide) _ _ _ yields
  refine tracks_list (d.closesWith_spacedMark (c := 0x5D) rfl) (by decide)
    (d.landed_of_yields_opening yields) inside steady steady' never fun stop reached => ?_
  exact members stop (Nat.lt_of_lt_of_le ahead reached)

theorem announced (never : ∀ r ∈ [member, member'], d.NeverBegins 0x5D r) (c : Option Buffer) :
    τ.Tracks (d.announced member c) ((d.escaping decode).announced member' c) pos := by
  have quiet := d.covers_forward
  have quiet' := (d.escaping decode).covers_forward
  simp only [Dialect.announced]
  split
  · exact tracks_container (tracked.braced steady steady' members) _
  · split
    · refine tracks_container (Tolerance.Tracks.passing ?_ (d.obeys_bracketed quiet steady)
        ((d.escaping decode).obeys_bracketed quiet' steady') _) _
      exact bracketed steady steady' members never
    · exact (tracked.scalars pos).passing (d.obeys_scalar quiet.toReports)
        ((d.escaping decode).obeys_scalar quiet'.toReports) _

theorem valueOver (never : ∀ r ∈ [member, member'], d.NeverBegins 0x5D r) :
    τ.Tracks (d.valueOver member) ((d.escaping decode).valueOver member') pos := by
  have announced := d.steady_announced steady
  have announced' := (d.escaping decode).steady_announced steady'
  have peeking := obeys_peek forward_compositional
  refine Tolerance.Tracks.marking ((tracks_whiteSpace pos).right
    (obeys_bind forward_compositional peeking announced)
    (obeys_bind forward_compositional peeking announced') fun _ mid yields => ?_) _
  have reached := yields.precedes (d.obeys_whiteSpace forward_compositional)
  have looked : τ.Tracks peek peek mid := .self scripted_peek (tidyAt_peek _)
  refine looked.bind announced announced' fun c stop yields' => ?_
  have reached' := reached.trans (yields'.precedes peeking)
  exact tracked.announced steady steady'
    (fun last ahead => members last (Nat.lt_of_le_of_lt reached'.pos_le ahead)) never c

end

include tracked

/-! ## Nesting -/

theorem nested {levels more pos : Nat} (limits : Limits τ levels more pos) :
    τ.Tracks (d.nested levels) ((d.escaping decode).nested more) pos := by
  have tooDeep (pos : Nat) : τ.Tracks tooDeep tooDeep pos :=
    Tolerance.Tracks.marking (.self (scripted_fail _)
      ((failsInPlace_fail _).tidyAt (obeys_fail forward_compositional _) _)) _
  induction levels generalizing more pos with
  | zero =>
    -- With no level left the limits are the same, or the first is lower and its failure is excused.
    obtain rfl | ⟨_, empty | excuses⟩ := limits
    · exact tooDeep pos
    · exact absurd empty (Nat.not_lt_zero _)
    · exact fun j k => .excused (excuses _ (List.mem_singleton.2 rfl))
  | succ levels ih =>
    cases more with
    | zero =>
      obtain same | ⟨empty, _⟩ := limits
      · exact absurd same (Nat.succ_ne_zero _)
      · exact absurd empty (Nat.not_lt_zero _)
    | succ more =>
      have steady : (d.nested levels).Obeys forward := d.obeys_nested d.covers_forward levels
      have steady' : ((d.escaping decode).nested more).Obeys forward :=
        (d.escaping decode).obeys_nested (d.escaping decode).covers_forward more
      rw [nested_succ, nested_succ]
      refine tracked.valueOver steady steady' (fun mid ahead inside => ?_) ?_
      · exact ih (limits.inner ahead inside)
      · simp only [List.mem_cons, List.not_mem_nil, or_false]
        rintro r (rfl | rfl)
        · exact d.neverBegins_nested levels
        · exact (d.escaping decode).neverBegins_nested more

/-! ## Rules -/

section

variable {levels more pos : Nat} (limits : Limits τ levels more pos)

include limits

theorem openedBy (opening : String) :
    τ.Tracks (d.openedBy levels opening) ((d.escaping decode).openedBy more opening) pos := by
  have looked : τ.Tracks peek peek pos := .self scripted_peek (tidyAt_peek _)
  have steady (d : Dialect) (levels : Nat) (c : Option Buffer) :
      (if c = some (.ofText (text opening)) then d.nested levels
        else fail (quoted (text opening))).Obeys forward := by
    split
    · exact d.obeys_nested d.covers_forward levels
    · exact obeys_fail forward_compositional _
  refine looked.bind (steady d levels) (steady (d.escaping decode) more) fun c mid yields => ?_
  split
  · exact tracked.nested (limits.later (yields.precedes (obeys_peek forward_compositional)).pos_le)
  · exact .self (scripted_fail _)
      ((failsInPlace_fail _).tidyAt (obeys_fail forward_compositional _) _)

theorem value : τ.Tracks (d.value levels) ((d.escaping decode).value more) pos :=
  tracks_reported (tracked.nested limits) _

theorem document : τ.Tracks (d.document levels) ((d.escaping decode).document more) pos := by
  have value := tracked.value limits
  have ends (mid : Nat) : τ.Tracks eof eof mid :=
    .self scripted_eof (failsInPlace_eof.tidyAt (obeys_eof forward_compositional) _)
  have requireEnd : (d.escaping decode).requireEnd = d.requireEnd := rfl
  simp only [Dialect.document, requireEnd]
  split
  · exact (value.left (d.obeys_whiteSpace forward_compositional) tracks_whiteSpace).left
      (obeys_eof forward_compositional) ends
  · exact value

/-- All rules keep track. -/
theorem rule (rule : Rule) :
    τ.Tracks (rule.parser d levels) (rule.parser (d.escaping decode) more) pos := by
  have literals : sign.FailsInPlace :=
    failsInPlace_orElse (failsInPlace_literal _) (failsInPlace_literal _)
  have separator (t : String) := d.tidyAt_spacedMark t ⟨τ.input, pos⟩
  have quiet := d.covers_forward
  cases rule with
  | value => exact (tracked.value limits).map _
  | document => exact (tracked.document limits).map _
  | object => exact (tracked.openedBy limits _).map _
  | array => exact (tracked.openedBy limits _).map _
  | quotedString => exact (tracked.strings pos).map _
  | boolean =>
    exact (Tolerance.Tracks.self d.scripted_boolean
      (d.failsInPlace_boolean.tidyAt (d.obeys_boolean quiet.toReports) _)).map _
  | null =>
    exact (Tolerance.Tracks.self d.scripted_null
      (d.failsInPlace_null.tidyAt (d.obeys_null quiet.toReports) _)).map _
  | number => exact (Tolerance.Tracks.self d.scripted_number (d.tidyAt_number _)).map _
  | integer => exact (Tolerance.Tracks.self scripted_integer (tidyAt_integer _)).map _
  | sign =>
    exact (Tolerance.Tracks.self scripted_sign
      (literals.tidyAt (obeys_sign forward_compositional) _)).map _
  -- A value stands behind its key, where no more levels are asked for.
  | keyValuePair =>
    have steady : (d.value levels).Obeys forward := d.obeys_value quiet levels
    have steady' : ((d.escaping decode).value more).Obeys forward :=
      (d.escaping decode).obeys_value (d.escaping decode).covers_forward more
    refine (tracked.entry steady steady' fun mid ahead _ => ?_).map _
    exact tracked.value (limits.later (Nat.le_of_lt ahead))
  | whiteSpace => exact (tracks_whiteSpace pos).map _
  | comma => exact (Tolerance.Tracks.self d.scripted_comma (separator ",")).map _
  | colon => exact (Tolerance.Tracks.self d.scripted_colon (separator ":")).map _

end

end Tracked

end Dialect

end Rewind.Json
