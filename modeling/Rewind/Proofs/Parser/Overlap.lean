import Rewind.Proofs.Parser.Tidy

/-! # Runs on texts that begin alike

Two texts look alike up to an offset, unit by unit, though one may hold other units of the same classes.
As long as a run on the first keeps to that part of it, a run on the second takes the same course: it
matches up to the same place, or fails as well.  All that it may do otherwise is to end with a fault.

A run looks at one unit past the place it has come to, and at no more, except that a word is looked up as
a whole.  `o.FollowsAt X p q pos` therefore leaves out the runs of `p` whose replies fulfil `X`.  The
rules below hold with no exceptions at all, or with failures at offsets where a word is cut off; the
latter pass from a part to the whole if what came before the part is tidy. -/

namespace Rewind

structure Overlap where
  source : Buffer
  copy : Buffer
  /-- What the copy holds in the place of a unit. -/
  image : Code → Code
  reach : Nat
  source_text : source.kind = .text
  copy_text : copy.kind = .text
  source_inside : reach ≤ source.size
  copy_inside : reach ≤ copy.size
  alike : ∀ i < reach, copy.units[i]? = source.units[i]?.map image

/-! ## Replies -/

namespace Reply

variable {α β : Type}

/-- Neither the match nor the failure that is carried lies at the offset or beyond it. -/
def Before (offset : Nat) (r : Reply α) : Prop :=
  (∀ e ∈ r.carried, e.pos < offset) ∧
    match r with
    | .matched _ pos _ => pos < offset
    | .failed _ _ => True
    | .fault _ => False

/-- The second reply has the outcome of the first, or is a fault. -/
inductive Like : Reply α → Reply β → Prop
  | matched {x : α} {y : β} {pos : Nat} {ghost ghost' : Option Failure} :
      Like (.matched x pos ghost) (.matched y pos ghost')
  | failed {pos pos' : Nat} {error error' : Failure} : Like (.failed pos error) (.failed pos' error')
  | fault {r : Reply α} {cause : Fault} : Like r (.fault cause)

theorem Like.after {r : Reply α} {r' : Reply β} (like : Like r r') (start start' : Nat)
    (ghost ghost' : Option Failure) : Like (r.after start ghost) (r'.after start' ghost') := by
  cases like with
  | matched => exact .matched
  | failed => exact .failed
  | fault => exact .fault

theorem Like.map {γ δ : Type} {r : Reply α} {r' : Reply β} (like : Like r r') (f : α → γ) (g : β → δ) :
    Like (r.map f) (r'.map g) := by
  cases like with
  | matched => exact .matched
  | failed => exact .failed
  | fault => exact .fault

theorem pos_lt_of_join {offset : Nat} {a b : Option Failure}
    (before : ∀ e ∈ Failure.join a b, e.pos < offset) :
    (∀ e ∈ a, e.pos < offset) ∧ ∀ e ∈ b, e.pos < offset := by
  cases a with
  | none => exact ⟨nofun, by simpa using before⟩
  | some a =>
    cases b with
    | none => exact ⟨by simpa using before, nofun⟩
    | some b =>
      have merged := before (a.merge b) rfl
      rw [Failure.pos_merge] at merged
      constructor
      · rintro e ⟨⟩
        omega
      · rintro e ⟨⟩
        omega

/-- If the whole keeps to a part of the text, so do its own parts. -/
theorem Before.of_after {offset start : Nat} {ghost : Option Failure} {r : Reply α}
    (before : (r.after start ghost).Before offset) :
    r.Before offset ∧ ∀ e ∈ ghost, e.pos < offset := by
  cases r with
  | matched x pos next =>
    obtain ⟨swallowed, carried⟩ := pos_lt_of_join before.1
    exact ⟨⟨carried, before.2⟩, swallowed⟩
  | failed pos error =>
    have joined : ∀ e ∈ Failure.join ghost (some error), e.pos < offset := by
      rw [← Failure.some_cover]
      exact before.1
    obtain ⟨swallowed, carried⟩ := pos_lt_of_join joined
    exact ⟨⟨carried, trivial⟩, swallowed⟩
  | fault cause => exact before.2.elim

theorem Before.of_map {offset : Nat} {f : α → β} {r : Reply α} (before : (r.map f).Before offset) :
    r.Before offset := by
  cases r with
  | matched x pos ghost => exact before
  | failed pos error => exact before
  | fault cause => exact before

/-- A run that does not go back and keeps to a part of the text has begun there. -/
theorem Before.start {s : State} {offset : Nat} {r : Reply α} (before : r.Before offset)
    (forward : r.shape.Forward s) : s.pos < offset := by
  cases r with
  | matched x pos ghost => exact Nat.lt_of_le_of_lt forward.1.pos_le before.2
  | failed pos error => exact Nat.lt_of_le_of_lt forward.2 (before.1 error rfl)
  | fault cause => exact before.2.elim

end Reply

/-! ## What is left of two runs -/

namespace Run

variable {α β γ δ : Type} {reach : Nat} {X Y Z : Reply Unit → Prop}

/-- As long as `run` keeps to the part before `reach`, `run'` replies alike; replies that fulfil `X` are
left out. -/
def Follows (reach : Nat) (X : Reply Unit → Prop) (run : Run α) (run' : Run β) : Prop :=
  ∀ j k, (run j).1.Before reach → Reply.Like (run j).1 (run' k).1 ∨ X (run j).1.shape

namespace Follows

variable {run : Run α} {run' : Run β}

theorem reply {r : Reply α} {r' : Reply β} (like : r.Before reach → Reply.Like r r') :
    Follows reach X (Run.reply r) (Run.reply r') :=
  fun _ _ before => .inl (like before)

theorem map (follows : Follows reach X run run') (f : α → γ) (g : β → δ) :
    Follows reach X (Run.map f run) (Run.map g run') := by
  intro j k before
  have inner : (run j).1.Before reach := by
    rw [Run.map] at before
    exact before.of_map
  obtain like | exception := follows j k inner
  · exact .inl (like.map f g)
  · exact .inr (by rwa [Run.map, Reply.shape_map])

theorem after {start start' : Nat} {ghost ghost' : Option Failure}
    (follows : Follows reach X run run')
    (lift : ∀ r, Gives run r → X r.shape → Y (r.after start ghost).shape) :
    Follows reach Y (Run.after start ghost run) (Run.after start' ghost' run') := by
  intro j k before
  obtain like | exception := follows j k before.of_after.1
  · exact .inl (like.after start start' ghost ghost')
  · exact .inr (lift _ ⟨j, (run j).2, rfl⟩ exception)

/-- Both sides go on alike after a first part; where that is an exception, so is the whole. -/
theorem resume {matched : α → Nat → Option Failure → Run γ} {matched' : β → Nat → Option Failure → Run δ}
    {failed : Nat → Failure → Run γ} {failed' : Nat → Failure → Run δ}
    (first : Follows reach X run run')
    (early : ∀ x pos ghost, Gives run (.matched x pos ghost) → ∀ j,
      (matched x pos ghost j).1.Before reach → (Reply.matched x pos ghost).Before reach)
    (early' : ∀ pos error, Gives run (.failed pos error) → ∀ j,
      (failed pos error j).1.Before reach → error.pos < reach)
    (afterMatch : ∀ x y pos ghost ghost', Gives run (.matched x pos ghost) →
      Gives run' (.matched y pos ghost') → pos < reach →
      Follows reach Z (matched x pos ghost) (matched' y pos ghost'))
    (afterFailure : ∀ pos pos' error error', Gives run (.failed pos error) →
      Gives run' (.failed pos' error') → error.pos < reach →
      Follows reach Z (failed pos error) (failed' pos' error'))
    (exception : ∀ r, Gives run r → X r.shape → ∀ j,
      Z (Run.resume (Run.reply r) matched failed j).1.shape) :
    Follows reach Z (Run.resume run matched failed) (Run.resume run' matched' failed') := by
  intro j k before
  cases ran : run j with
  | mk r l =>
    have same : Run.resume run matched failed j = Run.resume (Run.reply r) matched failed l := by
      simp only [Run.resume, ran, Run.reply]
    rw [same] at before ⊢
    have gives : Gives run r := ⟨j, l, ran⟩
    -- The first part has kept to the part before `reach` if the whole has.
    have opening : r.Before reach := by
      cases r with
      | matched x pos ghost => exact early x pos ghost gives l before
      | failed pos error =>
        refine ⟨?_, trivial⟩
        rintro _ ⟨⟩
        exact early' pos error gives l before
      | fault cause => exact before.2.elim
    have alike := first j k
    rw [ran] at alike
    obtain like | excepted := alike opening
    · cases ran' : run' k with
      | mk r' l' =>
        rw [ran'] at like
        have gives' : Gives run' r' := ⟨k, l', ran'⟩
        cases like with
        | matched =>
          rw [resume_matched ran']
          exact afterMatch _ _ _ _ _ gives gives' opening.2 l l' before
        | failed =>
          rw [resume_failed ran']
          exact afterFailure _ _ _ _ gives gives' (opening.1 _ rfl) l l' before
        | fault =>
          rw [resume_fault ran']
          exact .inl .fault
    · exact .inr (exception r gives excepted l)

end Follows

end Run

/-! ## The two texts -/

theorem Buffer.getElem?_rest (b : Buffer) (pos i : Nat) : (b.rest pos)[i]? = b.units[pos + i]? := by
  rw [rest, codes, List.getElem?_drop, Array.getElem?_toList]

namespace Overlap

open Rewind.Parser Run RunProperty

variable (o : Overlap)

def sourceAt (pos : Nat) : State := ⟨o.source, pos⟩

def copyAt (pos : Nat) : State := ⟨o.copy, pos⟩

variable {o} {pos : Nat}

theorem head_copy (inside : pos < o.reach) :
    (o.copyAt pos).rest.head? = (o.sourceAt pos).rest.head?.map o.image := by
  have alike := o.alike pos inside
  rwa [Buffer.getElem?_units, Buffer.getElem?_units] at alike

theorem exists_head (inside : pos < o.reach) : ∃ c, (o.sourceAt pos).rest.head? = some c := by
  have further : pos < o.source.units.size := Nat.lt_of_lt_of_le inside o.source_inside
  exact ⟨_, congrArg List.head? (o.source.rest_eq_cons further)⟩

/-- A word that lies within the overlap stands in both texts, if the copy holds it as it is. -/
theorem isPrefix_iff {w : Text} (clear : ∀ c ∈ w, ∀ x, o.image x = c ↔ x = c)
    (fits : pos + w.length ≤ o.reach) : w <+: (o.copyAt pos).rest ↔ w <+: (o.sourceAt pos).rest := by
  rw [List.prefix_iff_getElem?, List.prefix_iff_getElem?]
  refine forall_congr' fun i => forall_congr' fun short => ?_
  show (o.copy.rest pos)[i]? = _ ↔ (o.source.rest pos)[i]? = _
  rw [Buffer.getElem?_rest, Buffer.getElem?_rest, o.alike (pos + i) (by omega)]
  cases o.source.units[pos + i]? with
  | none => simp
  | some x => simpa using clear _ (List.getElem_mem short) x

/-- As far as the overlap goes, the source holds a word of the copy that is cut off. -/
theorem take_isPrefix {w : Text} (clear : ∀ c ∈ w, ∀ x, o.image x = c ↔ x = c)
    (there : w <+: (o.copyAt pos).rest) (short : o.reach ≤ pos + w.length) :
    (o.sourceAt pos).rest.take (o.reach - pos) <+: w := by
  rw [List.prefix_iff_getElem?] at there ⊢
  intro i inside
  have bound : i < o.reach - pos := Nat.lt_of_lt_of_le inside (List.length_take_le _ _)
  have listed : i < w.length := by omega
  have here := there i listed
  change (o.copy.rest pos)[i]? = _ at here
  rw [Buffer.getElem?_rest, o.alike (pos + i) (by omega), ← Buffer.getElem?_rest] at here
  rw [List.getElem_take]
  have further : i < (o.source.rest pos).length := Nat.lt_of_lt_of_le inside (List.length_take_le' _ _)
  rw [List.getElem?_eq_getElem further, Option.map_some, Option.some_inj] at here
  rw [List.getElem?_eq_getElem listed]
  exact congrArg some ((clear _ (List.getElem_mem listed) _).1 here).symm

theorem runEnd_copy {accepts : Code → Bool} (level : ∀ c, accepts (o.image c) = accepts c)
    (pos : Nat) (stops : o.source.runEnd accepts pos < o.reach) :
    o.copy.runEnd accepts pos = o.source.runEnd accepts pos := by
  have inside : pos < o.reach := by
    rw [Buffer.runEnd_eq] at stops
    omega
  have further : pos < o.source.units.size := Nat.lt_of_lt_of_le inside o.source_inside
  have alike := o.alike pos inside
  rw [Array.getElem?_eq_getElem further, Option.map_some] at alike
  obtain ⟨further', same⟩ := Array.getElem?_eq_some_iff.1 alike
  have run : o.source.runEnd accepts pos =
      if accepts o.source.units[pos] then o.source.runEnd accepts (pos + 1) else pos := by
    rw [Buffer.runEnd, dif_pos further]
  rw [run] at stops ⊢
  rw [Buffer.runEnd, dif_pos further', same, level]
  by_cases accepted : accepts o.source.units[pos] = true
  · rw [if_pos accepted] at stops
    rw [if_pos accepted, if_pos accepted]
    exact runEnd_copy level (pos + 1) stops
  · rw [if_neg accepted, if_neg accepted]
termination_by o.source.units.size - pos

/-! ## Comparing parsers -/

section

variable {α β γ δ : Type} {X Y Z : Reply Unit → Prop} {B : Nat → Prop} {p : Parser α} {q : Parser β}

variable (o) in
/-- From `pos` on, the run of `q` on the copy follows that of `p` on the source. -/
def FollowsAt (X : Reply Unit → Prop) (p : Parser α) (q : Parser β) (pos : Nat) : Prop :=
  Run.Follows o.reach X (p.run (o.sourceAt pos)) (q.run (o.copyAt pos))

variable (o) in
abbrev MirrorsAt (p : Parser α) (q : Parser β) (pos : Nat) : Prop :=
  o.FollowsAt (fun _ => False) p q pos

def Broken (B : Nat → Prop) (r : Reply Unit) : Prop := ∃ start e, r = .failed start e ∧ B e.pos

theorem MirrorsAt.follows (mirrors : o.MirrorsAt p q pos) : o.FollowsAt X p q pos :=
  fun j k before => .inl ((mirrors j k before).resolve_right id)

/-! ### Primitives -/

theorem mirrors_pure (x : α) (y : β) : o.MirrorsAt (Parser.pure x) (Parser.pure y) pos :=
  .reply (r := .matched x pos none) fun _ => .matched

theorem mirrors_raise (cause : Fault) : o.MirrorsAt p (raise cause : Parser β) pos :=
  fun _ _ _ => .inl .fault

theorem mirrors_of_raise (cause : Fault) : o.MirrorsAt (raise cause : Parser α) q pos :=
  fun _ _ before => before.2.elim

theorem mirrors_fail (expected : Text) :
    o.MirrorsAt (fail expected : Parser α) (fail expected : Parser β) pos :=
  fun _ _ _ => .inl .failed

theorem mirrors_peek : o.MirrorsAt peek peek pos := fun _ _ _ => .inl .matched

theorem mirrors_takeWhile {accepts : Code → Bool} (level : ∀ c, accepts (o.image c) = accepts c) :
    o.MirrorsAt (takeWhile accepts) (takeWhile accepts) pos := by
  intro j k before
  have stop : o.copy.runEnd accepts pos = o.source.runEnd accepts pos := runEnd_copy level pos before.2
  refine .inl ?_
  simp only [takeWhile, copyAt, sourceAt, stop]
  exact .matched

theorem mirrors_satisfy {c : CharClass} (level : ∀ x, c.accepts (o.image x) = c.accepts x) :
    o.MirrorsAt (satisfy c) (satisfy c) pos := by
  intro j k before
  have inside : pos < o.reach := before.start (s := o.sourceAt pos)
    (obeys_satisfy forward_compositional c _ _)
  have further : pos < o.source.units.size := Nat.lt_of_lt_of_le inside o.source_inside
  have alike := o.alike pos inside
  rw [Array.getElem?_eq_getElem further, Option.map_some] at alike
  refine .inl ?_
  simp only [satisfy, sourceAt, copyAt, Array.getElem?_eq_getElem further, alike, level]
  split
  · exact .matched
  · exact .failed

theorem mirrors_literal {w : Text} (clear : ∀ c ∈ w, ∀ x, o.image x = c ↔ x = c)
    (kept : pos < o.reach → w <+: (o.copyAt pos).rest → w <+: (o.sourceAt pos).rest) :
    o.MirrorsAt (literal (.ofText w)) (literal (.ofText w)) pos := by
  intro j k before
  have inside : pos < o.reach := before.start (s := o.sourceAt pos)
    (obeys_literal forward_compositional _ _ _)
  have within : pos ≤ o.source.size ∧ pos ≤ o.copy.size :=
    ⟨by have := o.source_inside; omega, by have := o.copy_inside; omega⟩
  have kinds : ¬ o.source.kind ≠ (Buffer.ofText w).kind ∧ ¬ o.copy.kind ≠ (Buffer.ofText w).kind :=
    ⟨not_not_intro o.source_text, not_not_intro o.copy_text⟩
  refine .inl ?_
  simp only [literal, sourceAt, copyAt, if_neg kinds.1, if_neg kinds.2] at before ⊢
  by_cases found : o.source.startsWith pos (Buffer.ofText w).codes = true
  · -- The match ends before `reach`, so the word lies within the overlap.
    rw [if_pos found] at before ⊢
    have fits : pos + w.length ≤ o.reach := Nat.le_of_lt (Buffer.size_ofText w ▸ before.2)
    have found' : o.copy.startsWith pos (Buffer.ofText w).codes = true := by
      rw [Buffer.startsWith_iff, Buffer.codes_ofText] at found ⊢
      exact ⟨within.2, (isPrefix_iff clear fits).2 found.2⟩
    rw [if_pos found']
    exact .matched
  · have absent : ¬ o.copy.startsWith pos (Buffer.ofText w).codes = true := by
      rw [Buffer.startsWith_iff, Buffer.codes_ofText] at found ⊢
      exact fun there => found ⟨within.1, kept inside there.2⟩
    rw [if_neg found, if_neg absent]
    exact .failed

theorem mirrors_eof : o.MirrorsAt eof eof pos := by
  have fails {s : State} (further : s.pos < s.input.units.size) (j : Journal) :
      ∃ e, (eof.run s j).1 = .failed s.pos e := by
    have seen : s.upcoming 1 = some (s.input.slice s.pos (s.pos + 1)) := by
      rw [State.upcoming, Buffer.upcoming_one, Array.getElem?_eq_getElem further]
      rfl
    refine ⟨⟨s.pos, [text "end of input"], some (s.input.slice s.pos (s.pos + 1))⟩, ?_⟩
    rw [eof, run_bind]
    simp only [Run.resume, peek, seen]
    rfl
  intro j k before
  have inside : pos < o.reach := before.start (s := o.sourceAt pos)
    (obeys_eof forward_compositional _ _)
  obtain ⟨e, failed⟩ := fails (s := o.sourceAt pos) (Nat.lt_of_lt_of_le inside o.source_inside) j
  obtain ⟨e', failed'⟩ := fails (s := o.copyAt pos) (Nat.lt_of_lt_of_le inside o.copy_inside) k
  rw [failed, failed']
  exact .inl .failed

/-- A single character is not cut off. -/
theorem mirrors_character {c : Code} (clear : ∀ x, o.image x = c ↔ x = c) :
    o.MirrorsAt (literal (.ofText [c])) (literal (.ofText [c])) pos := by
  have all : ∀ x ∈ [c], ∀ y, o.image y = x ↔ y = x := by
    rintro x (_ | ⟨_, member⟩)
    · exact clear
    · nomatch member
  exact mirrors_literal all fun inside => (isPrefix_iff all inside).1

/-- What is upcoming in the two texts. -/
theorem yields_peek_both {x y : Option Buffer} {mid : Nat} (first : peek.Yields (o.sourceAt pos) x mid)
    (second : peek.Yields (o.copyAt pos) y mid) (inside : mid < o.reach) :
    mid = pos ∧ ∃ c, (o.sourceAt pos).rest.head? = some c ∧ x = some (.ofText [c]) ∧
      y = some (.ofText [o.image c]) := by
  obtain ⟨rfl, rfl⟩ := yields_peek first
  obtain ⟨rfl, _⟩ := yields_peek second
  obtain ⟨c, head⟩ := exists_head inside
  have head' : (o.copyAt mid).rest.head? = some (o.image c) := by
    rw [head_copy inside, head]
    rfl
  refine ⟨rfl, c, head, ?_, ?_⟩
  · exact (Buffer.upcoming_one_text o.source_text mid).trans (congrArg (Option.map _) head)
  · exact (Buffer.upcoming_one_text o.copy_text mid).trans (congrArg (Option.map _) head')

/-- Runs of units that end at the same offset are both empty or neither. -/
theorem yields_takeWhile_both {accepts accepts' : Code → Bool} {x y : Buffer} {mid : Nat}
    (first : (takeWhile accepts).Yields (o.sourceAt pos) x mid)
    (second : (takeWhile accepts').Yields (o.copyAt pos) y mid) (inside : mid < o.reach) :
    x.isEmpty = y.isEmpty := by
  have piece {s : State} {p : Code → Bool} {b : Buffer} {stop : Nat}
      (yields : (takeWhile p).Yields s b stop) (within : stop < s.input.size) :
      b.isEmpty = (stop - s.pos == 0) := by
    obtain ⟨ghost, j, k, ran⟩ := yields
    cases ran
    have size : min (s.input.runEnd p s.pos) s.input.units.size = s.input.runEnd p s.pos :=
      Nat.min_eq_left (Nat.le_of_lt within)
    rw [Buffer.isEmpty, Buffer.size, Buffer.slice, Array.size_extract, size]
  rw [piece first (Nat.lt_of_lt_of_le inside o.source_inside),
    piece second (Nat.lt_of_lt_of_le inside o.copy_inside)]
  rfl

/-! ### Compositions -/

theorem FollowsAt.map (follows : o.FollowsAt X p q pos) (f : α → γ) (g : β → δ) :
    o.FollowsAt X (p.map f) (q.map g) pos :=
  Run.Follows.map follows f g

theorem FollowsAt.marking (follows : o.FollowsAt X p q pos) (tag : Text) :
    o.FollowsAt X (Parser.marking tag p) (Parser.marking tag q) pos :=
  fun _ _ => follows _ _

theorem FollowsAt.concluded (follows : o.FollowsAt X p q pos) (label : Text) :
    o.FollowsAt X (Parser.concluded label p) (Parser.concluded label q) pos :=
  fun j k => follows j k

theorem FollowsAt.traced (follows : o.FollowsAt X p q pos) (label : Text) :
    o.FollowsAt X (Parser.traced label p) (Parser.traced label q) pos :=
  fun _ _ => follows _ _

/-- A sequence, whatever the exceptions. -/
theorem FollowsAt.sequence {f : α → Parser γ} {g : β → Parser δ} (first : o.FollowsAt X p q pos)
    (steady : ∀ x, (f x).Obeys forward)
    (rest : ∀ x y mid, p.Yields (o.sourceAt pos) x mid → q.Yields (o.copyAt pos) y mid →
      mid < o.reach → o.FollowsAt Y (f x) (g y) mid)
    (lift : ∀ x mid ghost r, Gives (p.run (o.sourceAt pos)) (.matched x mid ghost) →
      Gives ((f x).run (o.sourceAt mid)) r → Y r.shape → Z (r.after pos ghost).shape)
    (exception : ∀ r, Gives (p.run (o.sourceAt pos)) r → X r.shape → ∀ j,
      Z (Run.resume (Run.reply r) (fun x mid ghost => after pos ghost ((f x).run (o.sourceAt mid)))
        (fun mid error => Run.reply (.failed mid error)) j).1.shape) :
    o.FollowsAt Z (p.bind f) (q.bind g) pos := by
  rw [FollowsAt, run_bind, run_bind]
  refine Run.Follows.resume first ?_ ?_ ?_ ?_ exception
  · intro x mid ghost gives j before
    obtain ⟨inner, swallowed⟩ := Reply.Before.of_after before
    exact ⟨swallowed, inner.start (steady x _ _)⟩
  · exact fun _ error _ _ before => before.1 error rfl
  · intro x y mid ghost ghost' gives gives' inside
    exact Run.Follows.after (rest x y mid ⟨ghost, gives⟩ ⟨ghost', gives'⟩ inside) fun r =>
      lift x mid ghost r gives
  · exact fun _ _ _ _ _ _ _ => .reply fun _ => .failed

theorem MirrorsAt.bind {f : α → Parser γ} {g : β → Parser δ} (first : o.MirrorsAt p q pos)
    (steady : ∀ x, (f x).Obeys forward)
    (rest : ∀ x y mid, p.Yields (o.sourceAt pos) x mid → q.Yields (o.copyAt pos) y mid →
      mid < o.reach → o.MirrorsAt (f x) (g y) mid) : o.MirrorsAt (p.bind f) (q.bind g) pos :=
  FollowsAt.sequence first steady rest (fun _ _ _ _ _ _ => False.elim) fun _ _ => False.elim

theorem pos_cover_of_le {ghost : Option Failure} {e : Failure} (before : ∀ g ∈ ghost, g.pos ≤ e.pos) :
    (Failure.cover ghost e).pos = e.pos := by
  cases ghost with
  | none => rfl
  | some g => exact (Failure.pos_merge g e).trans (Nat.max_eq_right (before g rfl))

/-- What lies before a run that fails does not hide its failure. -/
theorem Broken.after {s : State} {start : Nat} {ghost : Option Failure} {r : Reply γ}
    (broken : Broken B r.shape) (ahead : r.shape.Forward s) (before : ∀ g ∈ ghost, g.pos ≤ s.pos) :
    Broken B (r.after start ghost).shape := by
  obtain ⟨_, _, failed, broken⟩ := broken
  cases r with
  | matched => cases failed
  | failed stop e =>
    cases failed
    refine ⟨start, _, rfl, ?_⟩
    rwa [pos_cover_of_le fun g swallowed => Nat.le_trans (before g swallowed) ahead.2]
  | fault => cases failed

theorem FollowsAt.bind {f : α → Parser γ} {g : β → Parser δ} (first : o.FollowsAt (Broken B) p q pos)
    (tidy : p.TidyAt (o.sourceAt pos)) (steady : ∀ x, (f x).Obeys forward)
    (rest : ∀ x y mid, p.Yields (o.sourceAt pos) x mid → q.Yields (o.copyAt pos) y mid →
      mid < o.reach → o.FollowsAt (Broken B) (f x) (g y) mid) :
    o.FollowsAt (Broken B) (p.bind f) (q.bind g) pos := by
  refine FollowsAt.sequence first steady rest ?_ ?_
  · intro x mid ghost r gives gives' broken
    obtain ⟨_, _, ahead⟩ := (steady x).gives gives'
    exact broken.after ahead (tidy x mid ghost gives)
  · rintro r gives ⟨start, e, failed, broken⟩ j
    cases r with
    | matched => cases failed
    | failed start' e' =>
      cases failed
      exact ⟨start, e, rfl, broken⟩
    | fault => cases failed

theorem FollowsAt.right {p' : Parser γ} {q' : Parser δ} (first : o.FollowsAt (Broken B) p q pos)
    (tidy : p.TidyAt (o.sourceAt pos)) (steady : p'.Obeys forward)
    (second : ∀ x y mid, p.Yields (o.sourceAt pos) x mid → q.Yields (o.copyAt pos) y mid →
      mid < o.reach → o.FollowsAt (Broken B) p' q' mid) :
    o.FollowsAt (Broken B) (p.right p') (q.right q') pos :=
  first.bind tidy (fun _ => steady) second

theorem FollowsAt.left {p' : Parser γ} {q' : Parser δ} (first : o.FollowsAt (Broken B) p q pos)
    (tidy : p.TidyAt (o.sourceAt pos)) (steady : p'.Obeys forward)
    (second : ∀ mid, o.FollowsAt (Broken B) p' q' mid) :
    o.FollowsAt (Broken B) (p.left p') (q.left q') pos :=
  first.bind tidy (fun _ => obeys_map steady _) fun _ _ mid _ _ _ => (second mid).map _ _

theorem FollowsAt.passing (follows : o.FollowsAt (Broken B) p q pos) (steady : p.Obeys forward)
    (passed : List Text) :
    o.FollowsAt (Broken B) (Parser.passing passed p) (Parser.passing passed q) pos := by
  refine Run.Follows.after follows fun r gives broken => ?_
  obtain ⟨_, _, ahead⟩ := steady.gives gives
  refine broken.after ahead ?_
  rintro e ⟨⟩
  exact Nat.le_refl _

/-! ### Choices and repetitions -/

theorem MirrorsAt.right {p' : Parser γ} {q' : Parser δ} (first : o.MirrorsAt p q pos)
    (steady : p'.Obeys forward) (second : ∀ mid, o.MirrorsAt p' q' mid) :
    o.MirrorsAt (p.right p') (q.right q') pos :=
  first.bind (fun _ => steady) fun _ _ mid _ _ _ => second mid

theorem MirrorsAt.left {p' : Parser γ} {q' : Parser δ} (first : o.MirrorsAt p q pos)
    (steady : p'.Obeys forward) (second : ∀ mid, o.MirrorsAt p' q' mid) :
    o.MirrorsAt (p.left p') (q.left q') pos :=
  first.bind (fun _ => obeys_map steady _) fun _ _ mid _ _ _ => (second mid).map _ _

theorem MirrorsAt.orElse {p' : Parser α} {q' : Parser β} (first : o.MirrorsAt p q pos)
    (second : o.MirrorsAt p' q' pos) : o.MirrorsAt (p.orElse p') (q.orElse q') pos := by
  rw [MirrorsAt, FollowsAt, run_orElse, run_orElse]
  refine Run.Follows.resume first ?_ ?_ ?_ ?_ fun _ _ => False.elim
  · exact fun _ _ _ _ _ before => before
  · exact fun _ error _ _ before => before.of_after.2 error rfl
  · exact fun _ _ _ _ _ _ _ _ => .reply fun _ => .matched
  · exact fun _ _ _ _ _ _ _ => Run.Follows.after second fun _ _ => False.elim

theorem MirrorsAt.optional (mirrors : o.MirrorsAt p q pos) :
    o.MirrorsAt p.optional q.optional pos := by
  rw [MirrorsAt, FollowsAt, run_optional, run_optional]
  refine Run.Follows.resume mirrors ?_ ?_ ?_ ?_ fun _ _ => False.elim
  · exact fun _ _ _ _ _ before => before
  · exact fun _ error _ _ before => before.1 error rfl
  · exact fun _ _ _ _ _ _ _ _ => .reply fun _ => .matched
  · exact fun _ _ _ _ _ _ _ => .reply fun _ => .matched

theorem MirrorsAt.oneOf {ps : List (Parser α)} {qs : List (Parser β)} (head : o.MirrorsAt p q pos)
    (tail : List.Forall₂ (fun p q => o.MirrorsAt p q pos) ps qs) :
    o.MirrorsAt (Parser.oneOf (p :: ps)) (Parser.oneOf (q :: qs)) pos := by
  induction tail generalizing p q with
  | nil =>
    rw [MirrorsAt, FollowsAt, run_oneOf, run_oneOf]
    refine Run.Follows.resume head ?_ ?_ ?_ ?_ fun _ _ => False.elim
    · exact fun _ _ _ _ _ before => before
    · exact fun _ error _ _ before => before.1 error rfl
    · exact fun _ _ _ _ _ _ _ _ => .reply fun _ => .matched
    · exact fun _ _ _ _ _ _ _ _ _ _ => .inl .failed
  | cons second _ ih =>
    rw [MirrorsAt, FollowsAt, run_oneOf, run_oneOf]
    refine Run.Follows.resume head ?_ ?_ ?_ ?_ fun _ _ => False.elim
    · exact fun _ _ _ _ _ before => before
    · intro _ error _ j before
      rw [tryRest_cons] at before
      exact before.of_after.2 error rfl
    · exact fun _ _ _ _ _ _ _ _ => .reply fun _ => .matched
    · intro _ _ error error' _ _ _
      rw [tryRest_cons, tryRest_cons]
      exact Run.Follows.after (ih second) fun _ _ => False.elim

theorem MirrorsAt.count (steady : p.Obeys forward) (round : ∀ mid, o.MirrorsAt p q mid) (n pos : Nat) :
    o.MirrorsAt (Parser.count n p) (Parser.count n q) pos := by
  induction n generalizing pos with
  | zero => exact mirrors_pure _ _
  | succ n ih =>
    refine (round pos).bind (fun _ => ?_) fun _ _ mid _ _ _ => (ih mid).map _ _
    exact obeys_map (obeys_count forward_compositional steady n) _

theorem MirrorsAt.zeroOrMore {p : Parser α} {q : Parser β} (advances : p.Advances)
    (steady : p.Obeys forward) (round : ∀ mid, o.MirrorsAt p q mid) (pos : Nat) :
    o.MirrorsAt p.zeroOrMore q.zeroOrMore pos := by
  rw [MirrorsAt, FollowsAt, run_zeroOrMore, run_zeroOrMore]
  refine Run.Follows.resume (round pos) ?_ ?_ ?_ ?_ fun _ _ => False.elim
  · intro x mid ghost gives j before
    simp only [if_pos (advances _ x mid ⟨ghost, gives⟩)] at before
    obtain ⟨inner, swallowed⟩ := before.of_after
    have inside : mid < o.reach := inner.of_map.start (s := o.sourceAt mid)
      (obeys_zeroOrMore forward_compositional steady _ _)
    exact ⟨swallowed, inside⟩
  · exact fun _ error _ _ before => before.1 error rfl
  · intro x y mid ghost ghost' gives gives' inside
    have further := advances _ x mid ⟨ghost, gives⟩
    have further' : (o.copyAt pos).pos < mid ∧ mid ≤ (o.copyAt pos).input.size :=
      ⟨further.1, Nat.le_trans (Nat.le_of_lt inside) o.copy_inside⟩
    simp only [if_pos further, if_pos further']
    -- The induction is on what is left of the buffer, as in the loop itself.
    have others : o.MirrorsAt p.zeroOrMore q.zeroOrMore mid :=
      MirrorsAt.zeroOrMore advances steady round mid
    exact Run.Follows.after (Run.Follows.map others _ _) fun _ _ => False.elim
  · exact fun _ _ _ _ _ _ _ => .reply fun _ => .matched
termination_by o.source.size - pos
decreasing_by
  have further : pos < mid ∧ mid ≤ o.source.size := further
  omega

theorem MirrorsAt.atLeastOne (advances : p.Advances) (steady : p.Obeys forward)
    (round : ∀ mid, o.MirrorsAt p q mid) (pos : Nat) : o.MirrorsAt p.atLeastOne q.atLeastOne pos := by
  refine (round pos).bind (fun _ => ?_) fun _ _ mid _ _ _ =>
    (zeroOrMore advances steady round mid).map _ _
  exact obeys_map (obeys_zeroOrMore forward_compositional steady) _

/-! ### Loops and what closes them -/

def FailedBy (bound : Nat) (r : Reply Unit) : Prop := ∃ start e, r = .failed start e ∧ e.pos ≤ bound

theorem FailedBy.mono {bound bound' : Nat} (nearer : bound ≤ bound') {r : Reply Unit}
    (failed : FailedBy bound r) : FailedBy bound' r := by
  obtain ⟨start, e, same, within⟩ := failed
  exact ⟨start, e, same, Nat.le_trans within nearer⟩

theorem failedBy_bind {bound : Nat} {s : State} (failed : p.RepliesAt (FailedBy bound) s)
    (f : α → Parser γ) : (p.bind f).RepliesAt (FailedBy bound) s := by
  intro j
  obtain ⟨start, e, same, within⟩ := failed j
  rw [run_bind]
  cases ran : p.run s j with
  | mk r k =>
    rw [ran] at same
    cases r with
    | matched => cases same
    | failed start e =>
      cases same
      rw [resume_failed ran]
      exact ⟨start, e, rfl, within⟩
    | fault => cases same

/-- A round that is an exception ends its loop, and all that matters is that the rest then fails, no
further on. -/
theorem FollowsAt.rounds_bind {p next : Parser α} {q next' : Parser β} {f : List α → Parser γ}
    {g : List β → Parser δ} {pos : Nat} (first : o.FollowsAt (Broken B) p q pos)
    (further : ∀ mid, o.FollowsAt (Broken B) next next' mid) (tidy : p.TidyAt (o.sourceAt pos))
    (tidy' : ∀ mid, next.TidyAt (o.sourceAt mid)) (onwards : next.Obeys forward)
    (steady : ∀ xs, (f xs).Obeys forward) (closing : ∀ xs ys mid, o.MirrorsAt (f xs) (g ys) mid)
    (closes : ∀ xs start e, Gives (p.run (o.sourceAt pos)) (.failed start e) → B e.pos →
      (f xs).RepliesAt (FailedBy e.pos) (o.sourceAt pos))
    (closes' : ∀ xs mid start e, Gives (next.run (o.sourceAt mid)) (.failed start e) → B e.pos →
      (f xs).RepliesAt (FailedBy e.pos) (o.sourceAt mid)) :
    o.FollowsAt (Broken B) ((rounds p next).bind f) ((rounds q next').bind g) pos := by
  have rest (x : α) : ((rounds next next).bind fun xs => f (x :: xs)).Obeys forward :=
    obeys_bind forward_compositional
      (obeys_rounds forward_compositional (forward_markblind.ignores _) onwards onwards) fun _ => steady _
  rw [FollowsAt, run_rounds_bind, run_rounds_bind]
  refine Run.Follows.resume (first.marking roundMark) ?_ ?_ ?_ ?_ ?_
  · intro x mid ghost gives j before
    split at before
    · obtain ⟨inner, swallowed⟩ := before.of_after
      exact ⟨swallowed, inner.start (rest x _ _)⟩
    · exact before.2.elim
  · exact fun _ error _ _ before => before.of_after.2 error rfl
  · intro x y mid ghost ghost' gives gives' inside
    by_cases ahead : (o.sourceAt pos).pos < mid ∧ mid ≤ (o.sourceAt pos).input.size
    · have ahead' : (o.copyAt pos).pos < mid ∧ mid ≤ (o.copyAt pos).input.size :=
        ⟨ahead.1, Nat.le_trans (Nat.le_of_lt inside) o.copy_inside⟩
      simp only [if_pos ahead, if_pos ahead']
      -- The induction is on what is left of the buffer, as in the loop itself.
      have others : o.FollowsAt (Broken B) ((rounds next next).bind fun xs => f (x :: xs))
          ((rounds next' next').bind fun ys => g (y :: ys)) mid :=
        FollowsAt.rounds_bind (further mid) further (tidy' mid) tidy' onwards (fun xs => steady _)
          (fun xs ys => closing _ _) (fun xs => closes' _ mid) fun xs => closes' _
      refine Run.Follows.after others fun r gives' broken => ?_
      obtain ⟨_, _, forward⟩ := (rest x).gives gives'
      obtain ⟨j, k, ran⟩ := gives
      exact broken.after forward (tidy x mid ghost ⟨_, k, ran⟩)
    · simp only [if_neg ahead]
      exact fun _ _ before => before.2.elim
  · exact fun _ _ _ _ _ _ _ => Run.Follows.after (closing _ _ pos) fun _ _ => False.elim
  · rintro r ⟨j, k, ran⟩ ⟨start, e, failed, broken⟩ l
    cases r with
    | matched => cases failed
    | failed start e =>
      cases failed
      obtain ⟨stop, e', closed, nearer⟩ := closes [] start e ⟨_, k, ran⟩ broken l
      refine ⟨pos, e.merge e', ?_, ?_⟩
      · show (((f []).run (o.sourceAt pos) l).1.after pos (some e)).shape = _
        rw [Reply.shape_after, closed]
        rfl
      · rwa [Failure.pos_merge, Nat.max_eq_left nearer]
    | fault => cases failed
termination_by o.source.size - pos
decreasing_by
  have ahead : pos < mid ∧ mid ≤ o.source.size := ahead
  omega

end

end Overlap

end Rewind
