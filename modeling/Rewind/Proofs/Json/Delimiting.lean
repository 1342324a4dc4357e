import Rewind.Proofs.Json.Numbers

/-! # Values end where they end

What comes after a complete value does not change it.  A brace, a bracket, a quote or the last letter of
a word ends a value, so all failing attempts on the way were made inside it; only a number is ended by
what comes next, and only an array goes on to take the white space behind it.

What a match has read is found first, down to the values inside, from which the same match follows
wherever that text stands. -/

namespace Rewind.Json

open Rewind.Parser RunProperty Syntax Token

namespace Dialect

variable {d : Dialect} {s : State} {t u tail : Text} {v : Json} {pos : Nat}

/-- The text begins with the value, and `tail` is what comes after it.  A number is the longest one. -/
structure Begins (d : Dialect) (t : Text) (v : Json) (tail : Text) : Prop where
  spelled : ∃ w, t = w ++ tail ∧ Syntax.Value d w v
  longest : ∀ n, v = .number n → d.number.Accepts t n tail

/-- A value at the cursor ends at `pos`, but for the white space behind an array. -/
def EndsAt (d : Dialect) (s : State) (v : Json) (pos : Nat) : Prop :=
  ∃ tail, Begins d s.rest v tail ∧ s.input.rest pos = d.behind v tail

/-! ## What a match has read -/

section

variable {member : Parser Json} (reads : member.Reads (Padded d (Syntax.Value d)))

include reads

theorem endsAt_of_braced (yields : (d.braced member).Yields s v pos) : EndsAt d s v pos := by
  obtain ⟨w, derived, spans⟩ := d.reads_braced reads _ _ _ yields
  obtain ⟨_, mid, _, rest⟩ := yields_right yields
  obtain ⟨members, stop, _, closing⟩ := yields_bind rest
  obtain ⟨_, rfl, _⟩ := yields_map closing
  exact ⟨_, ⟨⟨w, spans, derived⟩, nofun⟩, rfl⟩

theorem endsAt_of_bracketed (standard : d.StandardSpace) (solid : d.skip s.rest = s.rest)
    (yields : (d.bracketed member).Yields s v pos) : EndsAt d s v pos := by
  obtain ⟨_, @⟨lead, w, trail, _, leading, derived, trailing⟩, spans⟩ :=
    d.reads_bracketed reads _ _ _ yields
  obtain ⟨_, mid, _, rest⟩ := yields_right yields
  obtain ⟨items, stop, _, closing⟩ := yields_bind rest
  obtain ⟨_, rfl, closed⟩ := yields_map closing
  obtain ⟨_, last, _, space⟩ := yields_left closed
  have whole : s.rest = w ++ (trail ++ s.input.rest pos) := by
    have padded : s.rest = lead ++ w ++ trail ++ s.input.rest pos := spans
    rw [List.append_assoc, List.append_assoc] at padded
    rw [← solid, padded, skip_append leading]
    exact (solid_value standard).skip_append derived _
  refine ⟨trail ++ s.input.rest pos, ⟨⟨w, whole, derived⟩, nofun⟩, ?_⟩
  -- Nothing is left of the white space that the array has skipped at its end.
  have skipped := congrArg State.rest (d.yields_whiteSpace space)
  rw [rest_landing] at skipped
  have here : s.input.rest pos = d.skip _ := skipped
  show _ = d.skip _
  rw [skip_append trailing, here, skip_skip]

omit reads in
theorem endsAt_of_scalar (kind : s.input.kind = .text) (inside : s.pos ≤ s.input.size)
    (yields : d.scalar.Yields s v pos) : EndsAt d s v pos := by
  obtain ⟨w, derived, spans⟩ := d.reads_scalar _ _ _ yields
  obtain ⟨p, listed, found⟩ := yields_oneOf yields
  simp only [List.mem_cons, List.not_mem_nil, or_false] at listed
  rcases listed with rfl | rfl | rfl | rfl
  · obtain ⟨x, rfl, _⟩ := yields_map found
    exact ⟨_, ⟨⟨w, spans, derived⟩, by rintro _ ⟨⟩⟩, rfl⟩
  · obtain ⟨b, rfl, _⟩ := yields_map found
    exact ⟨_, ⟨⟨w, spans, derived⟩, by rintro _ ⟨⟩⟩, rfl⟩
  · obtain ⟨_, rfl, _⟩ := yields_map found
    exact ⟨_, ⟨⟨w, spans, derived⟩, by rintro _ ⟨⟩⟩, rfl⟩
  · obtain ⟨n, rfl, ghost, j, k, ran⟩ := yields_map found
    obtain ⟨_, _, _, leading, made⟩ := leading_of_number kind inside (congrArg Prod.fst ran)
    refine ⟨_, ⟨⟨w, spans, derived⟩, ?_⟩, rfl⟩
    rintro _ ⟨⟩
    exact accepts_number_of_leading leading made

theorem endsAt_of_announced (standard : d.StandardSpace) (kind : s.input.kind = .text)
    (inside : s.pos ≤ s.input.size) (solid : d.skip s.rest = s.rest) {c : Option Buffer}
    (yields : (d.announced member c).Yields s v pos) : EndsAt d s v pos := by
  simp only [announced] at yields
  split at yields
  · exact endsAt_of_braced reads (d.yields_container yields)
  · split at yields
    · exact endsAt_of_bracketed reads standard solid (yields_passing (d.yields_container yields))
    · exact endsAt_of_scalar kind inside (yields_passing yields)

end

theorem endsAt_of_nested (standard : d.StandardSpace) (kind : s.input.kind = .text)
    (inside : s.pos ≤ s.input.size) {levels : Nat} (yields : (d.nested levels).Yields s v pos) :
    EndsAt d (d.landing s) v pos := by
  cases levels with
  | zero => exact absurd (yields_marking yields) yields_fail
  | succ levels =>
    rw [nested_succ, valueOver_eq] at yields
    obtain ⟨_, mid, space, rest⟩ := yields_right (yields_marking yields)
    obtain ⟨c, stop, looked, found⟩ := yields_bind rest
    obtain ⟨_, rfl⟩ := yields_peek looked
    have reached := space.precedes (d.obeys_whiteSpace forward_compositional)
    have landed := d.yields_whiteSpace space
    -- The value begins behind all white space.
    have solid : d.skip (d.landing s).rest = (d.landing s).rest := by
      rw [rest_landing, skip_skip]
    rw [← landed] at solid ⊢
    exact endsAt_of_announced (d.reads_nested levels) standard kind (reached.inside inside) solid found

/-! ## Where a value is matched -/

theorem Begins.append (begins : Begins d t v tail)
    (ends : ∀ n, v = .number n → tail ≠ [] ∨ ∀ c ∈ u.head?, endsNumber c = true) :
    Begins d (t ++ u) v (tail ++ u) where
  spelled := by
    obtain ⟨w, rfl, derived⟩ := begins.spelled
    exact ⟨w, List.append_assoc _ _ _, derived⟩
  longest n number := accepts_number_append (begins.longest n number) (ends n number)

/-- What comes after the text does not reach the white space before the value. -/
theorem Begins.append_skip (standard : d.StandardSpace) (begins : Begins d (d.skip t) v tail)
    (ends : ∀ n, v = .number n → tail ≠ [] ∨ ∀ c ∈ u.head?, endsNumber c = true) :
    Begins d (d.skip (t ++ u)) v (tail ++ u) := by
  obtain ⟨w, spelled, derived⟩ := begins.spelled
  have more : d.skip t ≠ [] := by
    obtain ⟨_, _, rfl, _⟩ := solid_value standard w v derived
    rw [spelled]
    exact List.cons_ne_nil _ _
  rw [skip_append_eq, if_neg more]
  exact begins.append ends

theorem Begins.accepts (standard : d.StandardSpace) (begins : Begins d (d.skip t) v tail)
    {levels : Nat} (enough : (d.skip t).length ≤ levels) :
    (d.value levels).Accepts t v (d.behind v tail) := by
  obtain ⟨w, next, derived⟩ := begins.spelled
  have short : w.length ≤ levels := by
    rw [next, List.length_append] at enough
    omega
  have reads := begins.longest
  rw [next] at reads
  exact d.accepts_reported (accepts_nested standard (valueWithin_of_length derived short) next reads) _

theorem end_of_value {levels : Nat} (yields : (d.value levels).Yields (.start (.ofText t)) v pos) :
    pos + ((Buffer.ofText t).rest pos).length = t.length := by
  have reached := yields.precedes (d.obeys_value d.covers_forward levels)
  have inside : pos ≤ (Buffer.ofText t).size := reached.inside (Nat.zero_le _)
  rw [Buffer.length_rest, Nat.add_sub_cancel' inside, Buffer.size_ofText]

/-- Within the limit, fewer levels do the same as more. -/
theorem matches_of_accepts {levels more : Nat} (deeper : levels ≤ more) {left : Text}
    (accepts : (d.value more).Accepts t v left)
    (within : WithinLimit ((d.value levels).parse (.ofText t)).2) :
    ∃ pos ghost, ((d.value levels).parse (.ofText t)).1 = .matched v pos ghost ∧
      pos + left.length = t.length := by
  obtain ⟨pos, ghost, replied, behind⟩ := accepts (.start (.ofText t)) rfl (State.rest_start t) .empty
  have agree : AgreeAt Within id (d.value levels) (d.value more) (.start (.ofText t)) :=
    d.agree_reported (d.agree_nested deeper _) "value"
  have same := (agree .empty).2 within .empty
  rw [Reply.map_id] at same
  refine ⟨pos, ghost, same.symm.trans replied, ?_⟩
  rw [← behind]
  exact end_of_value ⟨ghost, .empty, _, Prod.ext replied rfl⟩

/-- How much of the text that comes next belongs to a value that all text so far belongs to. -/
def trailing (d : Dialect) (v : Json) (u : Text) : Nat :=
  match v with
  | .array _ => (u.takeWhile d.whitespace.contains).length
  | _ => 0

theorem length_behind_append (d : Dialect) (v : Json) (tail u : Text) :
    (d.behind v (tail ++ u)).length + (if d.behind v tail = [] then d.trailing v u else 0) =
      (d.behind v tail).length + u.length := by
  cases v with
  | array items =>
    show (d.skip (tail ++ u)).length + (if d.skip tail = [] then _ else 0) =
      (d.skip tail).length + u.length
    rw [skip_append_eq]
    split
    case isTrue nothing =>
      have split := congrArg List.length
        (List.takeWhile_append_dropWhile (p := d.whitespace.contains) (l := u))
      rw [List.length_append] at split
      rw [nothing, skip, trailing, List.length_nil]
      omega
    case isFalse => exact List.length_append
  | _ =>
    show (tail ++ u).length + (if tail = [] then 0 else 0) = tail.length + u.length
    rw [ite_self, List.length_append, Nat.add_zero]

/-- A value that is matched is matched before any other text as well, and ends at the same place, except
that an array takes the white space that comes next.  A number must not be the last of the text before
something that could go on with it. -/
theorem value_delimits_itself (standard : d.StandardSpace) {c levels levels' : Nat}
    {ghost : Option Failure}
    (matched : ((d.value levels).parse (.ofText t)).1 = .matched v c ghost)
    (within : WithinLimit ((d.value levels').parse (.ofText (t ++ u))).2)
    (ends : (∃ n, v = .number n) → c < t.length ∨ ∀ x ∈ u.head?, endsNumber x = true) :
    ∃ ghost', ((d.value levels').parse (.ofText (t ++ u))).1 =
      .matched v (if c = t.length then c + d.trailing v u else c) ghost' := by
  have yields : (d.value levels).Yields (.start (.ofText t)) v c :=
    ⟨ghost, .empty, _, Prod.ext matched rfl⟩
  obtain ⟨tail, begins, behind⟩ :=
    endsAt_of_nested (s := .start (.ofText t)) standard rfl (Nat.zero_le _) (d.yields_reported yields)
  have ended := end_of_value yields
  have rest : (Buffer.ofText t).rest c = d.behind v tail := behind
  rw [rest] at ended
  rw [rest_landing, State.rest_start] at begins
  have longer : Begins d (d.skip (t ++ u)) v (tail ++ u) := by
    refine begins.append_skip standard ?_
    rintro n rfl
    refine (ends ⟨n, rfl⟩).imp_left fun before => ?_
    rintro rfl
    exact absurd ended (Nat.ne_of_lt before)
  -- With enough levels for the whole text the match is certain, and the limit was not reached with fewer.
  have accepts := longer.accepts standard (Nat.le_max_right levels' _)
  obtain ⟨c', ghost', replied, ended'⟩ := matches_of_accepts (Nat.le_max_left _ _) accepts within
  have lengths := length_behind_append d v tail u
  rw [List.length_append] at ended'
  have same : c' = if c = t.length then c + d.trailing v u else c := by
    by_cases nothing : d.behind v tail = []
    · rw [nothing, List.length_nil, Nat.add_zero] at ended
      rw [if_pos nothing, nothing, List.length_nil] at lengths
      rw [if_pos ended]
      omega
    · have more := List.length_pos_iff.2 nothing
      rw [if_neg nothing] at lengths
      rw [if_neg (by omega)]
      omega
  exact ⟨ghost', same ▸ replied⟩

/-- The text after the array begins with white space. -/
theorem value_delimits_itself_in_array :
    ∃ ghost, ((Dialect.strict.value 3).parse (.ofText (text " [1]" ++ text "\t ]2"))).1 =
      .matched (.array [.number (.int 1)]) 6 ghost := by
  have matched : ((Dialect.strict.value 2).parse (.ofText (text " [1]"))).1 =
      .matched (.array [.number (.int 1)]) 4
        (some ⟨3, [text "digit", quoted (text ",")], some (.ofText (text "]"))⟩) := by decide +kernel
  exact value_delimits_itself (by decide) matched (by decide +kernel) fun ⟨_, number⟩ => nomatch number

end Dialect

end Rewind.Json
