import Rewind.Grammar.Expr
import Rewind.Proofs.Grammar.Value
import Rewind.Proofs.Json.Nesting

/-! # The plain grammar of values

Values could be read by a grammar that only puts together what this library offers anyway: a choice
between six alternatives that are tried in their order, and lists in brackets whose items are separated
by commas.  The rules for values, objects and arrays read containers in place instead, told apart by
their first character.  This module shows that nobody can tell the difference: replies are the same in
all respects, down to the order in which a failure lists what was expected. -/

namespace Rewind

/-! ## Dictionaries -/

namespace Value

def entry? : Value → Option (Text × Value)
  | .tuple [key, value] => some (key.characters, value)
  | _ => none

def toDict : Value → Value
  | .list pairs => .dict
      ((pairs.filterMap entry?).foldl (fun entries (key, value) => Json.insert key value entries) [])
  | other => other

def ofMember (member : Text × Json) : Value := .tuple [ofText member.1, ofJson member.2]

theorem filterMap_entry?_ofMember (members : List (Text × Json)) :
    (members.map ofMember).filterMap entry? =
      members.map fun member => (member.1, ofJson member.2) := by
  rw [List.filterMap_map, ← List.filterMap_eq_map]
  refine List.filterMap_congr fun member _ => ?_
  simp [ofMember, entry?, ofText, characters]

/-- The dictionary of the members of an object is the object. -/
theorem toDict_ofMembers (members : List (Text × Json)) :
    toDict (.list (members.map ofMember)) = ofJson (Json.ofMembers members) := by
  rw [toDict, filterMap_entry?_ofMember, Json.ofMembers, ofJson]
  exact congrArg Value.dict (foldl_insert_ofEntries members [])

end Value

namespace Json

/-! ## The grammar -/

def plainName : Text := text "value"

namespace Dialect

open Rewind.Parser RunProperty Token

variable (d : Dialect)

def leaf (rule : Rule) : Expr := .json rule d 0

def plainMember : Expr :=
  (d.leaf .quotedString).bind fun key => (d.leaf .colon).bind fun _ =>
    (Expr.ref plainName).map fun value => .tuple [key, value]

def plainObject : Expr :=
  (Expr.between ((Expr.literal (.ofText (text "\x7b"))).left (d.leaf .whiteSpace))
    ((d.leaf .whiteSpace).right (.literal (.ofText (text "\x7d"))))
    ((d.leaf .comma).sepBy d.plainMember)).map .toDict

def plainArray : Expr :=
  (Expr.between ((Expr.literal (.ofText (text "["))).left (d.leaf .whiteSpace))
    ((d.leaf .whiteSpace).right (.literal (.ofText (text "]"))))
    ((d.leaf .comma).sepBy (.ref plainName))).left (d.leaf .whiteSpace)

def plainValue : Expr :=
  (d.leaf .whiteSpace).right
    (.oneOf [d.plainObject, d.plainArray, d.leaf .quotedString, d.leaf .boolean, d.leaf .null,
      d.leaf .number])

def plainGrammar : Grammar := [(plainName, d.plainValue)]

/-! ## Containers in place

The rules that read containers, with their parts in the order of the plain grammar. -/

theorem braced_eq (member : Parser Json) :
    d.braced member =
      (Parser.between ((verbatim "\x7b").left d.whiteSpace)
        (d.whiteSpace.right (verbatim "\x7d"))
        (rounds (d.entry member) (d.comma.right (d.entry member)))).map ofMembers := by
  simp only [braced, Parser.between, Parser.right, map_bind, map_map]

theorem bracketed_eq (member : Parser Json) :
    d.bracketed member =
      ((Parser.between ((verbatim "[").left d.whiteSpace) (d.whiteSpace.right (verbatim "]"))
        (rounds member (d.comma.right member))).left d.whiteSpace).map .array := by
  simp only [bracketed, Parser.between, Parser.right, Parser.left, map_bind, bind_map, map_map,
    bind_assoc]

variable {ok : Event → Prop} {member : Parser Json} {refs : Text → Parser Value} {s : State}

theorem agreeAt_opening (t : String) :
    AgreeAt ok Value.piece ((verbatim t).left d.whiteSpace)
      (((Expr.literal (.ofText (text t))).left (d.leaf .whiteSpace)).denote refs) s := by
  rw [Expr.denote_left]
  exact ((scripted_verbatim t).oblivious.map_right ok _ s).left fun _ _ _ =>
    d.scripted_whiteSpace.oblivious.map_right ok _ _

theorem agreeAt_closing (t : String) :
    AgreeAt ok Value.piece (d.whiteSpace.right (verbatim t))
      (((d.leaf .whiteSpace).right (.literal (.ofText (text t)))).denote refs) s := by
  rw [Expr.denote_right]
  exact (d.scripted_whiteSpace.oblivious.map_right ok Value.piece s).right fun _ _ _ =>
    (scripted_verbatim t).oblivious.map_right ok _ _

theorem agreeAt_entry
    (members : ∀ t, s.Precedes t → AgreeAt ok Value.ofJson member (refs plainName) t) :
    AgreeAt ok Value.ofMember (d.entry member) (d.plainMember.denote refs) s := by
  simp only [plainMember, Expr.denote_bind, Expr.denote_map]
  refine (d.scripted_quotedString.oblivious.map_right ok Value.ofText s).bind fun key pos keyed => ?_
  refine (d.scripted_colon.oblivious.map_right ok Value.piece _).bind fun _ stop parted => ?_
  have reached := keyed.precedes (d.obeys_quotedString d.covers_forward.toReports)
  have further := parted.precedes (d.obeys_colon forward_compositional)
  exact (members _ (reached.trans further)).map fun _ => rfl

section

variable (steady : member.Obeys forward) (advances : member.Advances)
  (members : ∀ t, s.Precedes t → s.pos < t.pos → AgreeAt ok Value.ofJson member (refs plainName) t)

include steady members

theorem agreeAt_braced : AgreeAt ok Value.ofJson (d.braced member) (d.plainObject.denote refs) s := by
  rw [braced_eq, plainObject, Expr.denote_map, Expr.denote_between]
  refine AgreeAt.map (f := Value.list ∘ List.map Value.ofMember) ?_ Value.toDict_ofMembers
  refine (d.agreeAt_opening _).between (fun x pos opened => ?_) fun t => d.agreeAt_closing _
  obtain ⟨further, inside⟩ := d.advances_opening (by decide) s x pos opened
  have later : s.Precedes (s.goto pos) := .goto (Nat.le_of_lt further) inside
  refine AgreeAt.map_right (AgreeAt.rounds_sepBy (g := Value.piece) ?_
    (d.obeys_comma forward_compositional) ?_ ?_)
  · exact d.advances_entry steady
  · intro t reached
    refine d.agreeAt_entry fun u beyond => members u (later.trans (reached.trans beyond)) ?_
    exact Nat.lt_of_lt_of_le further (Nat.le_trans reached.pos_le beyond.pos_le)
  · intro t _
    exact d.scripted_comma.oblivious.map_right ok _ t

include advances in
omit steady in
theorem agreeAt_bracketed :
    AgreeAt ok Value.ofJson (d.bracketed member) (d.plainArray.denote refs) s := by
  rw [bracketed_eq, plainArray, Expr.denote_left, Expr.denote_between]
  refine AgreeAt.map_left (f := Json.array) ?_
  have items : Value.ofJson ∘ Json.array = Value.list ∘ List.map Value.ofJson := by
    funext items
    exact congrArg Value.list (Value.ofItems_eq_map items)
  rw [items]
  refine AgreeAt.left (g := Value.piece) ?_ fun _ _ _ => d.scripted_whiteSpace.oblivious.map_right ok _ _
  refine (d.agreeAt_opening _).between (fun x pos opened => ?_) fun t => d.agreeAt_closing _
  obtain ⟨further, inside⟩ := d.advances_opening (by decide) s x pos opened
  have later : s.Precedes (s.goto pos) := .goto (Nat.le_of_lt further) inside
  refine AgreeAt.map_right (AgreeAt.rounds_sepBy (g := Value.piece) advances
    (d.obeys_comma forward_compositional) ?_ ?_)
  · intro t reached
    exact members t (later.trans reached) (Nat.lt_of_lt_of_le further reached.pos_le)
  · intro t _
    exact d.scripted_comma.oblivious.map_right ok _ t

end

/-! ## Values -/

theorem failsAt_plainObject (kind : s.input.kind = .text) (other : s.rest.head? ≠ some 0x7B) :
    (d.plainObject.denote refs).FailsAt s ⟨s.pos, [quoted (text "\x7b")], s.upcoming 1⟩ := by
  rw [plainObject, Expr.denote_map, Expr.denote_between, Expr.denote_left]
  exact ((((failsAt_verbatim kind rfl other).map _).bind _).bind _).map _

theorem failsAt_plainArray (kind : s.input.kind = .text) (other : s.rest.head? ≠ some 0x5B) :
    (d.plainArray.denote refs).FailsAt s ⟨s.pos, [quoted (text "[")], s.upcoming 1⟩ := by
  rw [plainArray, Expr.denote_left, Expr.denote_between, Expr.denote_left]
  exact ((((failsAt_verbatim kind rfl other).map _).bind _).bind _).bind _

def plainScalars : List Expr :=
  [d.leaf .quotedString, d.leaf .boolean, d.leaf .null, d.leaf .number]

theorem missesAt_plainScalars {c : Code} (kind : s.input.kind = .text)
    (head : s.rest.head? = some c) (other : beginsScalar c = false) :
    ∀ p ∈ Expr.denoteAll refs d.plainScalars, p.MissesAt s := by
  obtain ⟨string, word, null, number⟩ := d.missesAt_of_head kind head other
  simp only [plainScalars, Expr.denoteAll_cons, List.mem_cons]
  rintro p (rfl | rfl | rfl | rfl | none)
  · exact string.map _
  · exact word.map _
  · exact null.map _
  · exact number.map _
  · cases none

theorem agreeAt_scalar :
    AgreeAt ok Value.ofJson d.scalar (oneOf (Expr.denoteAll refs d.plainScalars)) s := by
  have each {α : Type} {p : Parser α} (scripted : p.Scripted) (h : α → Json) (h' : α → Value)
      (same : ∀ x, h' x = Value.ofJson (h x)) : AgreeAt ok Value.ofJson (p.map h) (p.map h') s :=
    (scripted.oblivious ok s).map same
  refine (each d.scripted_quotedString _ _ fun _ => rfl).oneOf (.cons ?_ (.cons ?_ (.cons ?_ .nil)))
  · exact each d.scripted_boolean _ _ fun _ => rfl
  · exact each d.scripted_null _ _ fun _ => rfl
  · exact each d.scripted_number _ _ fun _ => rfl

theorem agreeAt_container {p : Parser Json} {q : Parser Value}
    (agree : AgreeAt ok Value.ofJson p q s) (name : String) :
    AgreeAt ok Value.ofJson (d.container name p) q s := by
  apply AgreeAt.marking_left
  split
  · exact agree.concluded_left _
  · exact agree

section

variable (kind : s.input.kind = .text) (steady : member.Obeys forward)
  (advances : member.Advances)
  (members : ∀ t, s.Precedes t → s.pos < t.pos → AgreeAt ok Value.ofJson member (refs plainName) t)

include kind steady advances members

/-- The value that the upcoming character announces is the one that a choice between all six
alternatives would have found, and its failures are those that the choice would have collected. -/
theorem agreeAt_announced :
    AgreeAt ok Value.ofJson (d.announced member (s.upcoming 1))
      (oneOf (Expr.denoteAll refs (d.plainObject :: d.plainArray :: d.plainScalars))) s := by
  by_cases brace : s.rest.head? = some 0x7B
  · rw [d.announced_brace kind brace]
    apply agreeAt_container
    -- An object: all other alternatives fail at the brace, and its own failures lie past it.
    refine (d.agreeAt_braced steady members).oneOf_head (d.beyond_braced steady kind brace) ?_
    rintro p (_ | ⟨_, member⟩)
    · refine (d.failsAt_plainArray kind ?_).missesAt rfl
      rw [brace]
      decide
    · exact d.missesAt_plainScalars kind brace rfl p member
  · have noObject : (d.plainObject.denote refs).FailsAt s _ := d.failsAt_plainObject kind brace
    by_cases bracket : s.rest.head? = some 0x5B
    · rw [d.announced_bracket kind bracket]
      apply agreeAt_container
      -- An array: the object has failed before it, the others fail at the bracket.
      refine agree_oneOf_of_failsAt noObject ?_
      rw [Expr.denoteAllWith, tryRest_cons]
      refine Run.Agree.after ((d.agreeAt_bracketed advances members).oneOf_head
        (d.beyond_bracketed steady kind bracket) ?_) _ _
      exact d.missesAt_plainScalars kind bracket rfl
    · have noArray : (d.plainArray.denote refs).FailsAt s _ := d.failsAt_plainArray kind bracket
      rw [d.announced_scalar kind brace bracket]
      -- Neither: both have failed, and what they expected is passed on to the scalars.
      refine agree_oneOf_of_failsAt noObject (agree_tryRest_of_failsAt noArray ?_)
      have both : Failure.merge ⟨s.pos, [quoted (text "\x7b")], s.upcoming 1⟩
          ⟨s.pos, [quoted (text "[")], s.upcoming 1⟩ =
          ⟨s.pos, [quoted (text "\x7b"), quoted (text "[")], s.upcoming 1⟩ := by
        have distinct : quoted (text "[") ∉ [quoted (text "\x7b")] := by decide +kernel
        simp [Failure.merge, Failure.union_singleton, distinct]
      rw [both, plainScalars, Expr.denoteAllWith, tryRest_cons]
      exact Run.Agree.after d.agreeAt_scalar _ _

theorem agreeAt_valueOver :
    AgreeAt ok Value.ofJson (d.valueOver member) (d.plainValue.denote refs) s := by
  rw [valueOver_eq, plainValue, Expr.denote_right]
  apply AgreeAt.marking_left
  refine (d.scripted_whiteSpace.oblivious.map_right ok Value.piece s).right fun space pos skipped => ?_
  have reached := skipped.precedes (d.obeys_whiteSpace forward_compositional)
  refine AgreeAt.skip_left (fun _ => rfl) (d.steady_announced steady _) ?_
  refine d.agreeAt_announced kind steady advances fun t beyond further => ?_
  exact members t (reached.trans beyond) (Nat.lt_of_le_of_lt reached.pos_le further)

end

/-! ## Nesting

A run that reaches the limit on the nesting is left out of the comparison.  In all others a reference
to the rule for values is followed at most once for each cursor, so the plain grammar does not run out
of references. -/

theorem resolve_plain (references : Nat) :
    Expr.resolve d.plainGrammar (references + 1) plainName =
      d.plainValue.denote (Expr.resolve d.plainGrammar references) := by
  simp [Expr.resolve, plainGrammar]

theorem agreeAt_nested (levels : Nat) {references : Nat} (kind : s.input.kind = .text)
    (inside : s.pos ≤ s.input.size) (enough : s.remaining < references) :
    AgreeAt Within Value.ofJson (d.nested levels)
      (Expr.resolve d.plainGrammar references plainName) s := by
  induction levels generalizing references s with
  | zero => exact agreeAt_tooDeep
  | succ levels ih =>
    obtain _ | references := references
    · exact absurd enough (Nat.not_lt_zero _)
    · rw [nested_succ, resolve_plain]
      -- One reference is followed, and members lie further on, so those left are enough.
      refine d.agreeAt_valueOver kind (d.obeys_nested d.covers_forward levels)
        (d.advances_nested levels) fun t reached further => ih ?_ ?_ ?_
      · rw [reached.input_eq]
        exact kind
      · rw [reached.input_eq]
        exact reached.inside inside
      · have ends := reached.inside inside
        rw [State.remaining, reached.input_eq]
        simp only [State.remaining] at enough
        omega

/-! ## Rules -/

/-- The counterpart in the plain grammar of a rule that nests.  Objects and arrays are only compared
where white space does not swallow their opening character. -/
inductive Plain : Rule → Expr → Prop
  | value : Plain .value d.plainValue
  | object : 0x7B ∉ d.whitespace → Plain .object d.plainObject
  | array : 0x5B ∉ d.whitespace → Plain .array d.plainArray

variable {levels references : Nat}

/-- No white space is skipped in front of a character that is none. -/
theorem whiteSpace_run_of_head {c : Code} (head : s.rest.head? = some c)
    (unskipped : c ∉ d.whitespace) (j : Journal) :
    d.whiteSpace.run s j = (.matched (s.input.slice s.pos s.pos) s.pos none, j) := by
  obtain ⟨tail, ahead⟩ := List.head?_eq_some_iff.1 head
  have stays : s.input.runEnd d.whitespace.contains s.pos = s.pos := by
    rw [Buffer.runEnd_eq, ← State.rest, ahead]
    simp [unskipped]
  simp only [whiteSpace, spaces, takeWhile, stays]

/-- A rule with a fixed opening character goes on to the value that this character announces. -/
theorem agreeAt_openedBy {opening : String} {c : Code} {q : Parser Value}
    (spelled : text opening = [c]) (unskipped : c ∉ d.whitespace) (kind : s.input.kind = .text)
    (fails : s.rest.head? ≠ some c →
      q.FailsAt s ⟨s.pos, [quoted (text opening)], s.upcoming 1⟩)
    (agree : s.rest.head? = some c → ∀ levels,
      AgreeAt Within Value.ofJson (d.announced (d.nested levels) (s.upcoming 1)) q s) :
    AgreeAt Within Value.ofJson (d.openedBy levels opening) q s := by
  have steady (levels : Nat) : (d.nested levels).Obeys forward := d.obeys_nested d.covers_forward levels
  refine AgreeAt.skip_left (x := s.upcoming 1) (fun _ => rfl) ?_ ?_
  · split
    · exact steady levels
    · exact obeys_fail forward_compositional _
  · simp only [spelled, upcoming_eq_iff kind]
    split
    case isTrue head =>
      obtain _ | levels := levels
      · exact agreeAt_tooDeep
      · rw [nested_succ, valueOver_eq]
        apply AgreeAt.marking_left
        -- The value skips white space and looks again, but the opening character is next.
        have rest (c : Option Buffer) := d.steady_announced (steady levels) c
        refine AgreeAt.skip_left (d.whiteSpace_run_of_head head unskipped) ?_ ?_
        · exact obeys_bind forward_compositional (obeys_peek forward_compositional) rest
        · exact AgreeAt.skip_left (fun _ => rfl) (rest _) (agree head levels)
    case isFalse other =>
      intro j
      refine ⟨List.suffix_cons _ _, fun _ k => ?_⟩
      rw [fails other k, ← spelled]
      rfl

theorem agreeAt_rule {rule : Rule} {p : Expr} (plain : d.Plain rule p)
    (kind : s.input.kind = .text) (inside : s.pos ≤ s.input.size)
    (enough : s.remaining ≤ references) :
    AgreeAt Within id (rule.parser d levels)
      (p.denote (Expr.resolve d.plainGrammar references)) s := by
  have members (levels : Nat) (t : State) (reached : s.Precedes t) (further : s.pos < t.pos) :
      AgreeAt Within Value.ofJson (d.nested levels)
        (Expr.resolve d.plainGrammar references plainName) t := by
    have ends := reached.inside inside
    refine d.agreeAt_nested levels ?_ ?_ ?_
    · rw [reached.input_eq]
      exact kind
    · rw [reached.input_eq]
      exact ends
    · rw [State.remaining, reached.input_eq]
      simp only [State.remaining] at enough
      omega
  have steady (levels : Nat) : (d.nested levels).Obeys forward := d.obeys_nested d.covers_forward levels
  cases plain with
  | value =>
    apply AgreeAt.map_left
    have agree : AgreeAt Within Value.ofJson (d.nested levels)
        (d.plainValue.denote (Expr.resolve d.plainGrammar references)) s := by
      obtain _ | levels := levels
      · exact agreeAt_tooDeep
      · rw [nested_succ]
        exact d.agreeAt_valueOver kind (steady levels) (d.advances_nested levels) (members levels)
    simp only [value, reported]
    split
    · exact agree.traced_left _
    · exact agree
  | object unskipped =>
    apply AgreeAt.map_left
    refine d.agreeAt_openedBy rfl unskipped kind (d.failsAt_plainObject kind) ?_
    intro head levels
    rw [d.announced_brace kind head]
    exact d.agreeAt_container (d.agreeAt_braced (steady levels) (members levels)) _
  | array unskipped =>
    apply AgreeAt.map_left
    refine d.agreeAt_openedBy rfl unskipped kind (d.failsAt_plainArray kind) ?_
    intro head levels
    rw [d.announced_bracket kind head]
    apply agreeAt_container
    -- On its own the plain rule tries no object first, and the failure passed on leaves no trace.
    rw [AgreeAt, passing_run_of_beyond (d.beyond_bracketed (steady levels) kind head)]
    exact d.agreeAt_bracketed (d.advances_nested levels) (members levels)

end Dialect

/-- The rules that read containers in place reply as the plain grammar does: in every run within the
limit on the nesting, success or failure, the value, the cursor and the failure that is carried are the
same, whatever either journal says. -/
theorem Rule.run_eq_plain {d : Dialect} {levels : Nat} {rule : Rule} {p : Expr}
    (plain : d.Plain rule p) {s : State} (kind : s.input.kind = .text)
    (inside : s.pos ≤ s.input.size) (j k : Journal)
    (within : WithinLimit ((rule.parser d levels).run s j).2) :
    ((p.parser d.plainGrammar).run s k).1 = ((rule.parser d levels).run s j).1 := by
  have enough : s.remaining ≤ Expr.referenceLimit d.plainGrammar s := by
    simp only [Expr.referenceLimit, Dialect.plainGrammar, List.length_singleton]
    omega
  exact ((d.agreeAt_rule plain kind inside enough j).2 within k).trans (Reply.map_id _)

/-- An object that breaks off in its second member: all that was expected there is listed. -/
theorem Rule.run_eq_plain_in_object :
    ((Dialect.strict.plainValue.parser Dialect.strict.plainGrammar).run
        ⟨.ofText (text " \x7b\"a\": [1, null], \"b\" 2"), 0⟩ .empty).1 =
      ((Rule.value.parser .strict 3).run
        ⟨.ofText (text " \x7b\"a\": [1, null], \"b\" 2"), 0⟩ .empty).1 :=
  Rule.run_eq_plain .value rfl (by decide) _ _ (by decide +kernel)

end Json

end Rewind
