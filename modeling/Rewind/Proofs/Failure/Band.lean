import Rewind.Proofs.Failure.Furthest

/-! # What merging does not depend on

Merging ghosts is associative and `none` is neutral, so how the merges of a run are grouped does not
matter.  It is idempotent as well, and more: a ghost that was merged in before adds nothing, whatever
was merged in since.  An operation with these laws is a left-regular band.

It is not commutative.  Of two failures at the same offset the first gives what was found and the
expectations in front; the offset and the set of the expectations are the same in either order. -/

namespace Rewind.Failure

variable {a b : Failure} {ghost e : Option Failure}

/-! ## Merging again -/

/-- Nothing is added that is there already. -/
theorem union_eq_left {first second : List Text} (listed : ∀ x ∈ second, x ∈ first) :
    union first second = first := by
  induction second with
  | nil => rfl
  | cons x rest ih =>
    obtain ⟨here, others⟩ := List.forall_mem_cons.1 listed
    rw [union_cons, union_singleton, if_pos here, ih others]

theorem merge_self (a : Failure) : a.merge a = a := by
  simp [merge, union_eq_left]

/-- What a failure expects is there after another has been merged in behind it, unless it has been
passed altogether. -/
theorem merge_merge_self (a b : Failure) : (a.merge b).merge a = a.merge b := by
  rcases Nat.lt_trichotomy a.pos b.pos with before | level | beyond
  · rw [merge_of_lt before, merge_of_gt before]
  · have united : a.merge b = { a with expected := union a.expected b.expected } := by
      simp [merge, level]
    have listed : ∀ x ∈ a.expected, x ∈ union a.expected b.expected := fun x member =>
      mem_union.2 (.inl member)
    rw [united]
    simp [merge, union_eq_left listed]
  · rw [merge_of_gt beyond, merge_self]

theorem join_self (ghost : Option Failure) : join ghost ghost = ghost := by
  cases ghost <;> simp [join, merge_self]

theorem join_join_self (ghost later : Option Failure) :
    join (join ghost later) ghost = join ghost later := by
  cases ghost <;> cases later <;> simp [join, merge_self, merge_merge_self]

instance : Std.Associative join := ⟨join_assoc⟩

/-- A ghost that adds nothing adds nothing later either. -/
theorem join_absorbs (absorbed : join ghost e = ghost) (later : Option Failure) :
    join (join ghost later) e = join ghost later :=
  calc join (join ghost later) e
    _ = join (join (join ghost e) later) e := by rw [absorbed]
    _ = join ghost (join (join e later) e) := by simp only [join_assoc]
    _ = join (join ghost e) later := by rw [join_join_self, join_assoc]
    _ = join ghost later := by rw [absorbed]

/-! ## Merging many -/

def joinAll (ghosts : List (Option Failure)) : Option Failure := ghosts.foldl join none

theorem joinAll_append (first second : List (Option Failure)) :
    joinAll (first ++ second) = join (joinAll first) (joinAll second) := by
  have extended : second.foldl join (join (joinAll first) none) =
      join (joinAll first) (joinAll second) := List.foldl_assoc
  rw [join_none] at extended
  rwa [joinAll, List.foldl_append]

theorem joinAll_cons (e : Option Failure) (ghosts : List (Option Failure)) :
    joinAll (e :: ghosts) = join e (joinAll ghosts) := by
  simpa [joinAll] using joinAll_append [e] ghosts

/-- A ghost that is among those merged adds nothing to them. -/
theorem joinAll_absorbs {ghosts : List (Option Failure)} (member : e ∈ ghosts) :
    join (joinAll ghosts) e = joinAll ghosts := by
  induction ghosts using List.reverseRecOn with
  | nil => cases member
  | append_singleton ghosts last ih =>
    have merged : joinAll (ghosts ++ [last]) = join (joinAll ghosts) last := joinAll_append _ _
    rw [merged]
    rcases List.mem_append.1 member with before | here
    · exact join_absorbs (ih before) last
    · rw [List.mem_singleton.1 here, join_assoc, join_self]

/-- Nor does it make a difference to those that come after it. -/
theorem joinAll_again {before : List (Option Failure)} (member : e ∈ before)
    (after : List (Option Failure)) : joinAll (before ++ e :: after) = joinAll (before ++ after) := by
  rw [joinAll_append, joinAll_cons, ← join_assoc, joinAll_absorbs member, joinAll_append]

/-- Brackets around a list of ghosts, two parts at a time. -/
inductive Grouping where
  | one (ghost : Option Failure)
  | both (first second : Grouping)

namespace Grouping

def ghosts : Grouping → List (Option Failure)
  | one ghost => [ghost]
  | both first second => first.ghosts ++ second.ghosts

def merged : Grouping → Option Failure
  | one ghost => ghost
  | both first second => join first.merged second.merged

theorem merged_eq_joinAll (g : Grouping) : g.merged = joinAll g.ghosts := by
  induction g with
  | one ghost => exact (none_join ghost).symm
  | both first second ihFirst ihSecond =>
    rw [merged, ghosts, joinAll_append, ihFirst, ihSecond]

end Grouping

/-! ## The other order -/

theorem pos_join_comm (first second : Option Failure) :
    (join first second).map pos = (join second first).map pos := by
  cases first <;> cases second <;> simp [join, pos_merge, Nat.max_comm]

/-- Only failures at the same offset depend on their order. -/
theorem merge_comm_of_ne (apart : a.pos ≠ b.pos) : a.merge b = b.merge a := by
  rcases Nat.lt_or_gt_of_ne apart with before | beyond
  · rw [merge_of_lt before, merge_of_gt before]
  · rw [merge_of_gt beyond, merge_of_lt beyond]

theorem join_comm_of_ne {first second : Option Failure} (apart : first.map pos ≠ second.map pos) :
    join first second = join second first := by
  cases first with
  | none => simp
  | some a =>
    cases second with
    | none => simp
    | some b =>
      have offsets : a.pos ≠ b.pos := fun same => apart (congrArg some same)
      simp [join, merge_comm_of_ne offsets]

theorem mem_expected_merge_comm (a b : Failure) (x : Text) :
    x ∈ (a.merge b).expected ↔ x ∈ (b.merge a).expected := by
  rw [mem_expected_merge, mem_expected_merge, or_comm]

theorem expects_join_comm (first second : Option Failure) (x : Text) :
    (∃ e ∈ join first second, x ∈ e.expected) ↔ ∃ e ∈ join second first, x ∈ e.expected := by
  cases first <;> cases second <;> simp [join, mem_expected_merge_comm _ _ x]

theorem nodup_merge (first : a.expected.Nodup) (second : b.expected.Nodup) :
    (a.merge b).expected.Nodup := by
  rw [merge]
  split
  · exact first
  · split
    · exact second
    · exact nodup_union _ first

/-- Where no expectation is repeated, the other order lists them in another order and no more. -/
theorem perm_expected_merge (first : a.expected.Nodup) (second : b.expected.Nodup) :
    (a.merge b).expected.Perm (b.merge a).expected :=
  (List.perm_ext_iff_of_nodup (nodup_merge first second) (nodup_merge second first)).2
    (mem_expected_merge_comm a b)

/-- The same of two ghosts. -/
theorem perm_expected_join {first second : Option Failure} (distinct : ∀ f ∈ first, f.expected.Nodup)
    (distinct' : ∀ f ∈ second, f.expected.Nodup) :
    ∀ e ∈ join first second, ∀ e' ∈ join second first, e.expected.Perm e'.expected := by
  cases first with
  | none =>
    rw [none_join, join_none]
    intro e member e' member'
    rw [Option.mem_unique member member']
  | some a =>
    cases second with
    | none =>
      intro e member e' member'
      rw [Option.mem_unique member member']
    | some b => simpa [join] using perm_expected_merge (distinct a rfl) (distinct' b rfl)

/-! ## The laws -/

/-- Ghosts are a left-regular band under merging, with `none` as the neutral element.  So many of them
merge to the same however they are bracketed, and one that was there before makes no difference.  The
other order gives the same offset and the same expectations.  It makes no difference at all to ghosts
at two offsets; at one offset, where nothing is listed twice, it only changes the order of the list
and what was found. -/
theorem join_left_regular (a b c : Option Failure) (ghosts : List (Option Failure)) :
    join none a = a ∧ join a none = a ∧
    join (join a b) c = join a (join b c) ∧
    join a a = a ∧
    join (join a b) a = join a b ∧
    (∀ g : Grouping, g.ghosts = ghosts → g.merged = joinAll ghosts) ∧
    (∀ e ∈ ghosts, ∀ after, joinAll (ghosts ++ e :: after) = joinAll (ghosts ++ after)) ∧
    (join a b).map pos = (join b a).map pos ∧
    (∀ x, (∃ e ∈ join a b, x ∈ e.expected) ↔ ∃ e ∈ join b a, x ∈ e.expected) ∧
    (a.map pos ≠ b.map pos → join a b = join b a) ∧
    ((∀ f ∈ a, f.expected.Nodup) → (∀ f ∈ b, f.expected.Nodup) →
      ∀ e ∈ join a b, ∀ e' ∈ join b a, e.expected.Perm e'.expected) :=
  ⟨none_join a, join_none a, join_assoc a b c, join_self a, join_join_self a b,
    fun g same => same ▸ g.merged_eq_joinAll, fun _ member after => joinAll_again member after,
    pos_join_comm a b, expects_join_comm a b, join_comm_of_ne, perm_expected_join⟩

/-- Two failures at one offset, the second with an expectation twice, and one before them. -/
theorem join_left_regular_of_repeats :
    let first : Failure := ⟨3, [text "comma", text "digit"], none⟩
    let second : Failure := ⟨3, [text "digit", text "quote", text "quote"], some (.ofText (text "x"))⟩
    let early : Failure := ⟨1, [text "digit"], none⟩
    let ghosts := [some first, none, some second]
    let g := Grouping.both (.one first) (.both (.one none) (.one second))
    let merged : Failure := ⟨3, [text "comma", text "digit", text "quote"], none⟩
    g.ghosts = ghosts ∧ g.merged = joinAll ghosts ∧ joinAll ghosts = some merged ∧
      some first ∈ ghosts ∧
      joinAll (ghosts ++ [some first, some early]) = joinAll (ghosts ++ [some early]) ∧
      (some first).map pos ≠ (some early).map pos ∧
      join (some first) (some early) = join (some early) (some first) ∧
      (∀ f ∈ some first, f.expected.Nodup) ∧ (∀ f ∈ some early, f.expected.Nodup) ∧
      ∀ e ∈ join (some first) (some early), ∀ e' ∈ join (some early) (some first),
        e.expected.Perm e'.expected := by
  intro first second early ghosts g merged
  obtain ⟨-, -, -, -, -, grouped, again, -, -, apart, listed⟩ :=
    join_left_regular (some first) (some early) none ghosts
  have member : some first ∈ ghosts := List.mem_cons_self
  have offsets : (some first).map pos ≠ (some early).map pos := by decide
  have distinct : ∀ f ∈ some first, f.expected.Nodup := by
    rintro _ ⟨⟩
    decide
  have distinct' : ∀ f ∈ some early, f.expected.Nodup := by
    rintro _ ⟨⟩
    decide
  exact ⟨rfl, grouped g rfl, by decide, member, again _ member [some early], offsets, apart offsets,
    distinct, distinct', listed distinct distinct'⟩

end Rewind.Failure
