import Rewind.Proofs.Json.Tracking

/-! # The guard on the nesting

A member that would be nested too deep fails, and to the list around it that is an ordinary failure: it
looks for the mark that closes the list.  An empty list still closes at the limit.  Everywhere else the
mark is missing too, since no member can begin with it, and so the failure at the limit is part of what
the whole reports.

The grammar without a guard would have no end to its definition.  But every level of nesting takes a
character, so that limits which the text is too short to come to are no limits. -/

namespace Rewind.Json

open Rewind.Run Rewind.Parser RunProperty

/-! ## Without a limit -/

def Dialect.boundless (d : Dialect) : Parser Json where
  run s j := (d.nested (s.remaining + 1)).run s j

def Rule.unlimited (d : Dialect) (rule : Rule) : Parser Value where
  run s j := (rule.parser d (s.remaining + 1)).run s j

/-- The limits `levels` and `more` at the same cursor, in one dialect. -/
theorem Rule.tracks_limits {τ : Tolerance} {levels more pos : Nat} (d : Dialect) (rule : Rule)
    (limits : Limits τ levels more pos) : τ.Tracks (rule.parser d levels) (rule.parser d more) pos := by
  have tracks := (d.tracked_self τ).rule limits rule
  rwa [d.escaping_self] at tracks

theorem Dialect.boundless_run (d : Dialect) (s : State) :
    d.boundless.run s = (d.nested (s.remaining + 1)).run s := by rw [boundless]

theorem Rule.unlimited_run (d : Dialect) (rule : Rule) (s : State) :
    (rule.unlimited d).run s = (rule.parser d (s.remaining + 1)).run s := by rw [unlimited]

namespace Dialect

variable (d : Dialect)

theorem steady_boundless : d.boundless.Obeys forward := by
  intro s
  have steady : (d.nested (s.remaining + 1)).Obeys forward := d.obeys_nested d.covers_forward _
  exact steady s

theorem neverBegins_boundless : d.NeverBegins 0x5D d.boundless := by
  intro s kind landed head
  obtain ⟨e, fails, before⟩ := d.neverBegins_nested (s.remaining + 1) s kind landed head
  refine ⟨e, fun j => ?_, before⟩
  rw [boundless_run]
  exact fails j

theorem tracks_boundless {τ : Tolerance} {levels pos : Nat}
    (limits : Limits τ levels ((⟨τ.input, pos⟩ : State).remaining + 1) pos) :
    τ.Tracks (d.nested levels) d.boundless pos := by
  have tracks := (d.tracked_self τ).nested limits
  rw [d.escaping_self] at tracks
  rw [Tolerance.Tracks, boundless_run]
  exact tracks

/-- The members of a value without a limit are values without a limit: nothing guards them. -/
theorem run_boundless {s : State} (kind : s.input.kind = .text) (j k : Journal) :
    (d.boundless.run s j).1 = ((d.valueOver d.boundless).run s k).1 := by
  let τ : Tolerance := .exact s.input kind
  have steady : (d.nested s.remaining).Obeys forward := d.obeys_nested d.covers_forward s.remaining
  have never : ∀ r ∈ [d.nested s.remaining, d.boundless], d.NeverBegins 0x5D r := by
    simp only [List.mem_cons, List.not_mem_nil, or_false]
    rintro r (rfl | rfl)
    · exact d.neverBegins_nested _
    · exact d.neverBegins_boundless
  have members (mid : Nat) (ahead : s.pos < mid) (inside : mid ≤ s.input.size) :
      τ.Tracks (d.nested s.remaining) d.boundless mid := by
    -- A member begins further on, where less is left.
    have less : (⟨s.input, mid⟩ : State).remaining < s.remaining :=
      Nat.sub_lt_sub_left (Nat.lt_of_lt_of_le ahead inside) ahead
    exact d.tracks_boundless (.inr ⟨Nat.lt_succ_self _, .inl less⟩)
  have tracks : τ.Tracks (d.valueOver (d.nested s.remaining))
      ((d.escaping d.decodeEscapes).valueOver d.boundless) s.pos :=
    (d.tracked_self τ).valueOver steady d.steady_boundless members never
  rw [d.escaping_self, ← nested_succ, Tolerance.Tracks] at tracks
  rw [boundless_run]
  exact (tracks j k).eq

end Dialect

/-- Limits that what is left of the text cannot come to are no limits. -/
theorem Rule.run_eq_unlimited {d : Dialect} {s : State} (kind : s.input.kind = .text) (rule : Rule)
    {more : Nat} (deep : s.remaining < more) (j k : Journal) :
    ((rule.parser d more).run s j).1 = ((rule.unlimited d).run s k).1 := by
  have limits : Limits (.exact s.input kind) more (s.remaining + 1) s.pos :=
    .inr ⟨Nat.lt_succ_self _, .inl deep⟩
  rw [unlimited_run]
  exact (rule.tracks_limits d limits j k).eq

/-! ## With a limit -/

/-- The guard spoils no result.  If a rule matches under a limit, it matches the same value up to the same
cursor without one; if it fails under a limit and the failure does not expect a shallower nesting, it
fails in the same way without one.  No limit means: no limit of those that the text is too short to come
to makes a difference. -/
theorem guard_spoils_no_result (d : Dialect) (rule : Rule) (levels : Nat) (s : State)
    (kind : s.input.kind = .text) (j k : Journal) :
    (∀ v pos ghost, ((rule.parser d levels).run s j).1 = .matched v pos ghost →
        ∃ ghost', ((rule.unlimited d).run s k).1 = .matched v pos ghost') ∧
      (∀ start e, ((rule.parser d levels).run s j).1 = .failed start e →
        text "shallower nesting" ∉ e.expected →
        ((rule.unlimited d).run s k).1 = .failed start e) ∧
      (∀ cause, ((rule.parser d levels).run s j).1 = .fault cause →
        ((rule.unlimited d).run s k).1 = .fault cause) ∧
      ∀ more, s.remaining < more →
        ((rule.parser d more).run s j).1 = ((rule.unlimited d).run s k).1 := by
  have limits : Limits (.excusing (text "shallower nesting") s.input kind) levels (s.remaining + 1) s.pos :=
    .inr ⟨Nat.lt_succ_self _, .inr fun _ expected => expected⟩
  have tracks : Reply.Tracks (.excusing _ s.input kind) ((rule.parser d levels).run s j).1
      ((rule.parser d (s.remaining + 1)).run s k).1 := rule.tracks_limits d limits j k
  rw [← rule.unlimited_run d s] at tracks
  refine ⟨fun v pos ghost ran => ?_, fun start e ran unguarded => ?_, fun _ => tracks.of_fault,
    fun more deep => rule.run_eq_unlimited kind deep j k⟩
  · obtain ⟨ghost', same, _⟩ := tracks.of_matched ran
    exact ⟨ghost', same⟩
  · obtain ⟨e', same, rfl⟩ | expected := tracks.of_failed ran
    · exact same
    · exact absurd expected unguarded

/-- An array in an array, whole and cut short, under a limit of two. -/
theorem guard_spoils_no_result_in_array :
    let whole := State.start (.ofText (text "[[]]"))
    let cut := State.start (.ofText (text "[[]"))
    let e : Failure := ⟨3, [quoted (text ","), quoted (text "]")], none⟩
    (∃ ghost, ((Rule.value.unlimited .lenient).run whole .empty).1 =
        .matched (.list [.list []]) 4 ghost) ∧
      text "shallower nesting" ∉ e.expected ∧
      ((Rule.value.unlimited .lenient).run cut .empty).1 = .failed 0 e ∧
      cut.remaining < 9 ∧
      ((Rule.value.parser .lenient 9).run cut .empty).1 =
        ((Rule.value.unlimited .lenient).run cut .empty).1 := by
  intro whole cut e
  have matched : ((Dialect.value .lenient 2).run whole .empty).1 =
      .matched (.array [.array []]) 4
        (some ⟨3, [quoted (text ",")], some (.ofText (text "]"))⟩) := by decide +kernel
  have failed : ((Dialect.value .lenient 2).run cut .empty).1 = .failed 0 e := by decide +kernel
  have deep : cut.remaining < 9 := by decide +kernel
  have unguarded : text "shallower nesting" ∉ e.expected := by decide +kernel
  obtain ⟨found, _⟩ := guard_spoils_no_result .lenient .value 2 whole rfl .empty .empty
  obtain ⟨_, missed, _, boundless⟩ := guard_spoils_no_result .lenient .value 2 cut rfl .empty .empty
  exact ⟨found _ _ _ (congrArg (Reply.map Value.ofJson) matched), unguarded,
    missed _ _ (congrArg (Reply.map Value.ofJson) failed) unguarded, deep, boundless 9 deep⟩

end Rewind.Json
