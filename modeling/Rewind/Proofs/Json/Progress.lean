import Mathlib.Data.List.Perm.Subperm
import Rewind.Proofs.Json.Faults
import Rewind.Proofs.Json.Tidy

/-! # Progress

A run of the rule for values leaves a mark for every attempt to read a value and for every round of a
member loop.  Taken in the order in which a run passes them, these marks never go back and never stay
where they are: no value is attempted twice at one cursor, whether the text is a document or not.

That is no matter of one loop.  A member may fail after it has attempted members of its own, and then the
loop around it goes back to the cursor in front of it.  But a member that has attempted others begins with
the opening character of a container, and one that follows a comma has that comma in front of it, so that
in neither case the mark that closes the loop can stand there.  The failure is passed on to the loop
around that one, and so to the end of the run.  Only a member that has attempted nothing is followed by
something else, the closing mark, which is behind it. -/

namespace Rewind

/-! ## Milestones -/

namespace Json

/-- How far a run has come. -/
inductive Milestone where
  /-- An attempt to read a value begins. -/
  | value (pos : Nat)
  /-- An attempt to read a value is given up, because it would be nested too deep. -/
  | limit (pos : Nat)
  /-- A round of a member loop begins. -/
  | round (pos : Nat)
  deriving DecidableEq, Repr

namespace Milestone

/-- The order in which a run passes its milestones: by cursor, and a round before the value with which it
begins. -/
def rank : Milestone → Nat
  | .value pos => 2 * pos + 1
  | .limit pos => 2 * pos + 1
  | .round pos => 2 * pos

def attempt? : Milestone → Option Nat
  | .value pos => some pos
  | .limit pos => some pos
  | .round _ => none

def round? : Milestone → Option Nat
  | .round pos => some pos
  | _ => none

end Milestone

def milestone? : Event → Option Milestone
  | .marked tag pos =>
    if tag = valueMark then some (.value pos)
    else if tag = limitMark then some (.limit pos)
    else if tag = Parser.roundMark then some (.round pos)
    else none
  | _ => none

def milestones (j : Journal) : List Milestone := j.events.filterMap milestone?

theorem milestones_record (j : Journal) (e : Event) :
    milestones (j.record e) = milestones j ++ (milestone? e).toList := by
  cases noted : milestone? e <;> simp [milestones, noted]

/-- The milestones lie in the given order, with ranks from `lo` up to `hi`, and members that are nested
too deep come no sooner than `n` cursors behind the start. -/
structure Orderly (n lo hi : Nat) (ms : List Milestone) : Prop where
  ordered : ms.Pairwise (·.rank < ·.rank)
  within : ∀ m ∈ ms, lo ≤ m.rank ∧ m.rank < hi
  limits : ∀ pos, .limit pos ∈ ms → lo + 2 * n ≤ 2 * pos + 1

namespace Orderly

variable {n lo hi : Nat} {ms more : List Milestone}

theorem nil : Orderly n lo hi [] := ⟨.nil, nofun, nofun⟩

theorem mono {lo' hi' : Nat} (orderly : Orderly n lo hi ms) (lower : lo' ≤ lo) (higher : hi ≤ hi') :
    Orderly n lo' hi' ms where
  ordered := orderly.ordered
  within m member := by
    have bounds := orderly.within m member
    omega
  limits pos member := by
    have behind := orderly.limits pos member
    omega

theorem append {mid : Nat} (first : Orderly n lo mid ms) (second : Orderly n mid hi more)
    (above : lo ≤ mid) (below : mid ≤ hi) : Orderly n lo hi (ms ++ more) where
  ordered := by
    refine List.pairwise_append.2 ⟨first.ordered, second.ordered, fun m member m' member' => ?_⟩
    exact Nat.lt_of_lt_of_le (first.within m member).2 (second.within m' member').1
  within := by
    have second := second.mono above (Nat.le_refl _)
    have first := first.mono (Nat.le_refl _) below
    exact List.forall_mem_append.2 ⟨first.within, second.within⟩
  limits pos member := by
    rcases List.mem_append.1 member with here | there
    · exact first.limits pos here
    · exact (second.mono above (Nat.le_refl _)).limits pos there

theorem cons {k : Nat} {m : Milestone} (orderly : Orderly k (m.rank + 1) hi ms) (room : m.rank < hi)
    (limits : ∀ pos, .limit pos ∈ m :: ms → m.rank + 2 * n ≤ 2 * pos + 1) :
    Orderly n m.rank hi (m :: ms) where
  ordered := List.pairwise_cons.2 ⟨fun m' member => (orderly.within m' member).1, orderly.ordered⟩
  within :=
    have later := orderly.mono (Nat.le_succ _) (Nat.le_refl _)
    List.forall_mem_cons.2 ⟨⟨Nat.le_refl _, room⟩, later.within⟩
  limits := limits

theorem round {pos : Nat} (orderly : Orderly n (2 * pos + 1) hi ms) (room : 2 * pos < hi) :
    Orderly n (2 * pos) hi (.round pos :: ms) := by
  refine orderly.cons (m := .round pos) room fun later member => ?_
  have behind := orderly.limits later (by simpa using member)
  simp only [Milestone.rank]
  omega

/-- Between a value and the members in it stands an opening character. -/
theorem value {pos : Nat} (orderly : Orderly n (2 * pos + 2) hi ms) (room : 2 * pos + 1 < hi) :
    Orderly (n + 1) (2 * pos + 1) hi (.value pos :: ms) := by
  refine orderly.cons (m := .value pos) room fun later member => ?_
  -- What lies behind an even rank by an odd one is one further behind.
  have behind := orderly.limits later (by simpa using member)
  simp only [Milestone.rank]
  omega

theorem limit {pos : Nat} (room : 2 * pos + 1 < hi) : Orderly 0 (2 * pos + 1) hi [.limit pos] := by
  refine (nil (n := 0)).cons (m := .limit pos) room fun later member => ?_
  cases List.mem_singleton.1 member
  exact Nat.le_refl _

end Orderly

end Json

/-! ## Runs that leave milestones -/

open Json

/-- The rank that the milestones of a run stay below: that of the cursor after a match, `failing` if the
run fails, and `top` if it ends with a fault. -/
def Reply.ceiling {α : Type} (failing top : Nat) : Reply α → Nat
  | .matched _ pos _ => 2 * pos
  | .failed _ _ => failing
  | .fault _ => top

namespace Reply

variable {α β : Type} {failing failing' top : Nat}

@[simp] theorem ceiling_after (start : Nat) (ghost : Option Failure) (r : Reply α) :
    (r.after start ghost).ceiling failing top = r.ceiling failing top := by
  cases r <;> rfl

@[simp] theorem ceiling_map (f : α → β) (r : Reply α) :
    (r.map f).ceiling failing top = r.ceiling failing top := by
  cases r <;> rfl

theorem ceiling_mono (higher : failing ≤ failing') (r : Reply α) :
    r.ceiling failing top ≤ r.ceiling failing' top := by
  cases r with
  | failed pos error => exact higher
  | _ => exact Nat.le_refl _

end Reply

namespace Run

variable {α β : Type} {run : Run α} {P : List Milestone → Reply α → Prop}

/-- The run adds milestones to the journal, of which and of the reply `P` holds. -/
def Leaves (P : List Milestone → Reply α → Prop) (run : Run α) : Prop :=
  ∀ j, ∃ ms, milestones (run j).2 = milestones j ++ ms ∧ P ms (run j).1

namespace Leaves

theorem imp {Q : List Milestone → Reply α → Prop} (leaves : Leaves P run)
    (weaker : ∀ ms r, Gives run r → P ms r → Q ms r) : Leaves Q run := by
  intro j
  obtain ⟨ms, added, holds⟩ := leaves j
  exact ⟨ms, added, weaker ms _ ⟨j, _, rfl⟩ holds⟩

theorem reply {r : Reply α} (holds : P [] r) : Leaves P (Run.reply r) :=
  fun _ => ⟨[], (List.append_nil _).symm, holds⟩

theorem after {start : Nat} {ghost : Option Failure}
    (leaves : Leaves (fun ms r => P ms (r.after start ghost)) run) :
    Leaves P (Run.after start ghost run) := leaves

/-- What the parts leave stands one behind the other. -/
theorem resume {Q : List Milestone → Reply β → Prop} {matched : α → Nat → Option Failure → Run β}
    {failed : Nat → Failure → Run β} (first : Leaves P run)
    (afterMatch : ∀ ms x pos ghost, Gives run (.matched x pos ghost) → P ms (.matched x pos ghost) →
      Leaves (fun more r => Q (ms ++ more) r) (matched x pos ghost))
    (afterFailure : ∀ ms pos error, Gives run (.failed pos error) → P ms (.failed pos error) →
      Leaves (fun more r => Q (ms ++ more) r) (failed pos error))
    (afterFault : ∀ ms cause, P ms (.fault cause) → Q ms (.fault cause)) :
    Leaves Q (Run.resume run matched failed) := by
  intro j
  obtain ⟨ms, added, holds⟩ := first j
  cases ran : run j with
  | mk r k =>
    rw [ran] at added holds
    cases r with
    | matched x pos ghost =>
      obtain ⟨more, added', holds'⟩ := afterMatch ms x pos ghost ⟨j, k, ran⟩ holds k
      rw [resume_matched ran]
      exact ⟨ms ++ more, by rw [added', added, List.append_assoc], holds'⟩
    | failed pos error =>
      obtain ⟨more, added', holds'⟩ := afterFailure ms pos error ⟨j, k, ran⟩ holds k
      rw [resume_failed ran]
      exact ⟨ms ++ more, by rw [added', added, List.append_assoc], holds'⟩
    | fault cause =>
      rw [resume_fault ran]
      exact ⟨ms, added, afterFault ms cause holds⟩

end Leaves

end Run

namespace RunProperty

def unmarked : RunProperty := fun _ j _ k => milestones k = milestones j

theorem unmarked_record {j : Journal} {e : Event} (quiet : milestone? e = none) :
    milestones (j.record e) = milestones j := by
  rw [milestones_record, quiet, Option.toList_none, List.append_nil]

theorem unmarked_compositional : unmarked.Compositional where
  advance _ _ := rfl
  missed _ _ _ := unmarked_record rfl
  fault _ given := given
  sequence first rest := rest.trans first
  alternative first second := second.trans first
  restart given := given
  rewind given := given

theorem unmarked_conclude {j : Journal} {closing : Ending → Event} {ending : Option Ending}
    (quiet : ∀ ending, milestone? (closing ending) = none) :
    milestones (j.conclude closing ending) = milestones j := by
  cases ending with
  | none => rfl
  | some ending => exact unmarked_record (quiet ending)

end RunProperty

namespace Parser

open Run RunProperty

variable {α β : Type} {n lo failing : Nat} {s : State}

/-- A run of `p` at this cursor passes its milestones in order, beginning with rank `lo`: below the cursor
after a match, below rank `failing` if it fails, and in any case inside the buffer. -/
def Passes (n lo failing : Nat) (p : Parser α) (s : State) : Prop :=
  Leaves (fun ms r => Orderly n lo (r.ceiling failing (2 * s.input.size + 2)) ms) (p.run s)

theorem leaves_marking {tag : Text} {p : Parser α} {P : List Milestone → Reply α → Prop}
    (leaves : Leaves (fun ms r => P ((milestone? (.marked tag s.pos)).toList ++ ms) r) (p.run s)) :
    Leaves P ((marking tag p).run s) := by
  intro j
  obtain ⟨ms, added, holds⟩ := leaves (j.record (.marked tag s.pos))
  rw [milestones_record, List.append_assoc] at added
  exact ⟨_, added, holds⟩

/-- A mark that stands for a milestone comes before all that is passed behind it. -/
theorem leaves_milestone (tag : Text) {m : Milestone} {p : Parser α}
    (marks : milestone? (.marked tag s.pos) = some m) (passes : p.Passes n lo failing s) :
    Leaves (fun ms r => ∃ more, ms = m :: more ∧
      Orderly n lo (r.ceiling failing (2 * s.input.size + 2)) more) ((marking tag p).run s) := by
  apply leaves_marking
  rw [marks]
  exact passes.imp fun ms _ _ orderly => ⟨ms, rfl, orderly⟩

theorem leaves_of_unmarked {p : Parser α} (quiet : p.Obeys unmarked) :
    Leaves (fun ms _ => ms = []) (p.run s) :=
  fun j => ⟨[], (quiet s j).trans (List.append_nil _).symm, rfl⟩

namespace Passes

variable {p : Parser α}

theorem of_unmarked (quiet : p.Obeys unmarked) : p.Passes n lo failing s :=
  (leaves_of_unmarked quiet).imp fun _ _ _ nothing => nothing ▸ .nil

theorem mono {lo' failing' : Nat} (passes : p.Passes n lo failing s) (lower : lo' ≤ lo)
    (higher : failing ≤ failing') : p.Passes n lo' failing' s :=
  passes.imp fun _ r _ orderly => orderly.mono lower (r.ceiling_mono higher)

theorem map (passes : p.Passes n lo failing s) (f : α → β) : (p.map f).Passes n lo failing s := by
  intro j
  obtain ⟨ms, added, orderly⟩ := passes j
  exact ⟨ms, added, by simpa [Parser.map] using orderly⟩

theorem passing (passes : p.Passes n lo failing s) (passed : List Text) :
    (Parser.passing passed p).Passes n lo failing s :=
  Leaves.after (passes.imp fun _ _ _ orderly => by simpa using orderly)

/-- A first part that leaves no milestone has only to be known for where it ends. -/
theorem bind {f : α → Parser β} (first : p.Obeys unmarked)
    (rest : ∀ x pos, p.Yields s x pos → (f x).Passes n lo failing (s.goto pos)) :
    (p.bind f).Passes n lo failing s := by
  rw [Passes, run_bind]
  refine (leaves_of_unmarked first).resume ?_ ?_ ?_
  · rintro _ x pos ghost gives rfl
    exact Leaves.after ((rest x pos ⟨ghost, gives⟩).imp fun _ _ _ orderly => by simpa using orderly)
  · rintro _ pos error _ rfl
    exact .reply .nil
  · rintro _ cause rfl
    exact .nil

theorem concluded (passes : p.Passes n lo failing s) (label : Text) :
    (Parser.concluded label p).Passes n lo failing s := by
  intro j
  obtain ⟨ms, added, orderly⟩ := passes j
  exact ⟨ms, (unmarked_conclude fun _ => rfl).trans added, orderly⟩

end Passes

end Parser

namespace Json.Dialect

open Rewind.Run Rewind.Parser RunProperty Token

variable (d : Dialect) {n : Nat} {s : State}

theorem reports_unmarked : d.Reports unmarked where
  toCompositional := unmarked_compositional
  reported := by
    intro α p name obeys
    simp only [reported]
    split
    case isTrue =>
      exact fun s j => ((unmarked_conclude fun _ => rfl).trans (obeys s _)).trans (unmarked_record rfl)
    case isFalse => exact obeys

/-- Below which rank the milestones of a run have to stay that fails, if the mark `c` is looked for behind
it: should the mark be the next character, it has attempted nothing but what begins at its own cursor. -/
def retreat (c : Code) (s : State) : Nat :=
  if (d.landing s).rest.head? = some c then 2 * s.pos + 2 else 2 * s.input.size + 2

theorem retreat_le (c : Code) (inside : s.pos ≤ s.input.size) : d.retreat c s ≤ 2 * s.input.size + 2 := by
  unfold retreat
  split <;> omega

theorem le_retreat (c : Code) (inside : s.pos ≤ s.input.size) : 2 * s.pos + 2 ≤ d.retreat c s := by
  unfold retreat
  split <;> omega

theorem retreat_of_head {c x : Code} (head : (d.landing s).rest.head? = some x) (other : x ≠ c) :
    d.retreat c s = 2 * s.input.size + 2 :=
  if_neg (by rwa [head, Option.some_inj])

theorem ceiling_bounds {α : Type} {p : Parser α} (advances : p.Advances) (c : Code)
    (inside : s.pos ≤ s.input.size) {r : Reply α} (gives : Gives (p.run s) r) :
    2 * s.pos + 1 < r.ceiling (d.retreat c s) (2 * s.input.size + 2) ∧
      r.ceiling (d.retreat c s) (2 * s.input.size + 2) ≤ 2 * s.input.size + 2 := by
  cases r with
  | matched x pos ghost =>
    obtain ⟨ahead, within⟩ := advances s x pos ⟨ghost, gives⟩
    exact ⟨Nat.mul_le_mul_left 2 ahead, Nat.le_add_right_of_le (Nat.mul_le_mul_left 2 within)⟩
  | failed pos error => exact ⟨d.le_retreat c inside, d.retreat_le c inside⟩
  | fault cause => exact ⟨Nat.add_le_add_right (Nat.mul_le_mul_left 2 inside) 2, Nat.le_refl _⟩

/-! ### Member loops -/

/-- A round that begins with a comma cannot be followed by the mark that closes the loop. -/
theorem passes_further {α : Type} {element : Parser α} {c : Code} (other : (0x2C : Code) ≠ c)
    (elements : ∀ t : State, s.Precedes t →
      element.Passes n (2 * t.pos + 1) (2 * t.input.size + 2) t) :
    (d.comma.right element).Passes n (2 * s.pos + 1) (d.retreat c s) s := by
  refine .bind (d.obeys_comma unmarked_compositional) fun x pos yields => ?_
  have reached := yields.precedes (d.obeys_comma forward_compositional)
  have forward : s.pos ≤ pos := reached.pos_le
  -- The element may fail anywhere: the loop goes back to the comma, and that is not its closing mark.
  rw [d.retreat_of_head (d.head_of_yields_spacedMark rfl yields).1 other]
  exact (elements _ reached).mono (by show 2 * s.pos + 1 ≤ 2 * pos + 1; omega) (Nat.le_refl _)

theorem le_ceiling {α : Type} {p : Parser α} (steady : p.Obeys forward) (inside : s.pos ≤ s.input.size)
    {r : Reply α} (gives : Gives (p.run s) r) :
    2 * s.pos ≤ r.ceiling (2 * s.input.size + 2) (2 * s.input.size + 2) := by
  have below : 2 * s.pos ≤ 2 * s.input.size + 2 := by omega
  cases r with
  | matched x pos ghost =>
    have reached := Yields.precedes steady ⟨ghost, gives⟩
    exact Nat.mul_le_mul_left 2 reached.pos_le
  | failed pos error => exact below
  | fault cause => exact below

/-- A loop together with the mark that closes it. -/
theorem passes_rounds_bind {α β : Type} {first next : Parser α} {f : List α → Parser β} {c : Code}
    (s : State) (closing : ∀ xs, (f xs).Obeys unmarked) (last : ∀ xs, (f xs).Obeys forward)
    (closes : ∀ xs t y stop, (f xs).Yields t y stop →
      (d.landing t).rest.head? = some c ∧ (d.landing t).pos < stop)
    (opening : first.Passes n (2 * s.pos + 1) (d.retreat c s) s) (advances : first.Advances)
    (further : ∀ t, s.Precedes t → next.Passes n (2 * t.pos + 1) (d.retreat c t) t)
    (steady : next.Obeys forward) (advances' : next.Advances) (inside : s.pos ≤ s.input.size) :
    ((rounds first next).bind f).Passes n (2 * s.pos) (2 * s.input.size + 2) s := by
  rw [Passes, run_rounds_bind]
  refine (leaves_milestone roundMark rfl opening).resume ?_ ?_ ?_
  · rintro _ x pos ghost gives ⟨ms, rfl, orderly⟩
    obtain ⟨ahead, within⟩ := advances s x pos (yields_marking ⟨ghost, gives⟩)
    rw [if_pos ⟨ahead, within⟩]
    -- What is left of the loop begins where this round ended.
    have reached : s.Precedes (s.goto pos) := .goto (Nat.le_of_lt ahead) within
    have others : ((rounds next next).bind fun xs => f (x :: xs)).Passes n (2 * pos)
        (2 * s.input.size + 2) (s.goto pos) :=
      passes_rounds_bind (s.goto pos) (fun xs => closing _) (fun xs => last _) (fun xs => closes _)
        (further _ reached) advances' (fun t later => further t (reached.trans later)) steady advances'
        within
    have steady' : ((rounds next next).bind fun xs => f (x :: xs)).Obeys forward :=
      obeys_bind forward_compositional
        (obeys_rounds forward_compositional (forward_markblind.ignores _) steady steady) fun xs => last _
    have here : Orderly n (2 * s.pos) (2 * pos) (.round s.pos :: ms) :=
      orderly.round (Nat.mul_lt_mul_of_pos_left ahead Nat.two_pos)
    refine Leaves.after (others.imp fun more r gives' later => ?_)
    rw [Reply.ceiling_after]
    exact here.append later (Nat.mul_le_mul_left 2 (Nat.le_of_lt ahead))
      (le_ceiling (s := s.goto pos) steady' within gives')
  · rintro _ pos error gives ⟨ms, rfl, orderly⟩
    refine Leaves.after ((leaves_of_unmarked (closing [])).imp ?_)
    rintro _ r gives' rfl
    rw [Reply.ceiling_after, List.append_nil]
    have room : d.retreat c s ≤ r.ceiling (2 * s.input.size + 2) (2 * s.input.size + 2) := by
      cases r with
      | matched y stop swallowed =>
        -- The closing mark stands there, so the round has attempted nothing behind its own cursor.
        obtain ⟨head, landed⟩ := closes [] s y stop ⟨swallowed, gives'⟩
        have start := d.pos_le_landing s
        rw [retreat, if_pos head]
        exact Nat.mul_le_mul_left 2 (Nat.lt_of_le_of_lt start landed)
      | failed mid error' => exact d.retreat_le c inside
      | fault cause => exact d.retreat_le c inside
    have behind : 2 * s.pos < d.retreat c s := Nat.lt_of_succ_lt (d.le_retreat c inside)
    exact (orderly.round behind).mono (Nat.le_refl _) room
  · rintro _ cause ⟨ms, rfl, orderly⟩
    exact orderly.round (by show 2 * s.pos < 2 * s.input.size + 2; omega)
termination_by s.input.size - s.pos
decreasing_by
  simp only [State.goto]
  omega

/-! ### Containers, given that their members make progress -/

/-- The mark of a container is no milestone. -/
theorem passes_container {p : Parser Json} {lo failing : Nat} (passes : p.Passes n lo failing s)
    (name : String) : (d.container name p).Passes n lo failing s := by
  refine leaves_marking ?_
  split
  · exact passes.concluded _
  · exact passes

section

variable {member : Parser Json} (steady : member.Obeys forward)
  (members : ∀ t : State, t.input.kind = .text → t.pos ≤ t.input.size →
    member.Passes n (2 * t.pos + 1) (d.retreat 0x5D t) t)

include steady members

omit steady in
theorem passes_entry (kind : s.input.kind = .text) (inside : s.pos ≤ s.input.size) :
    (d.entry member).Passes n (2 * s.pos + 1) (2 * s.input.size + 2) s := by
  refine .bind (d.obeys_quotedString d.reports_unmarked) fun key mid keyed => ?_
  refine .bind (d.obeys_colon unmarked_compositional) fun _ stop parted => .map ?_ _
  have reached := (keyed.precedes (d.obeys_quotedString d.covers_forward.toReports)).trans
    (parted.precedes (d.obeys_colon forward_compositional))
  have forward : s.pos ≤ stop := reached.pos_le
  have within : stop ≤ s.input.size := reached.inside inside
  exact (members (s.goto stop) kind within).mono (by show 2 * s.pos + 1 ≤ 2 * stop + 1; omega)
    (d.retreat_le _ within)

omit steady in
/-- The first pair of an object begins where the white space has ended. -/
theorem passes_first_entry (kind : s.input.kind = .text) (inside : s.pos ≤ s.input.size)
    (landed : d.landing s = s) :
    (d.entry member).Passes n (2 * s.pos + 1) (d.retreat 0x7D s) s := by
  by_cases closed : (d.landing s).rest.head? = some 0x7D
  · -- What stands there is no key.
    refine .bind (d.obeys_quotedString d.reports_unmarked) fun key mid keyed => ?_
    rw [landed] at closed
    obtain ⟨error, -, fails⟩ := d.missesAt_quotedString kind (s := s) (by rw [closed]; decide)
    obtain ⟨ghost, j, k, ran⟩ := keyed
    have failed := fails j
    rw [ran] at failed
    cases failed
  · rw [retreat, if_neg closed]
    exact d.passes_entry members kind inside

theorem passes_braced (kind : s.input.kind = .text) :
    (d.braced member).Passes n (2 * s.pos + 2) (2 * s.input.size + 2) s := by
  refine .bind (d.obeys_opening unmarked_compositional _) fun _ mid opened => ?_
  -- The opening character makes the room between the value and its members.
  obtain ⟨ahead, within⟩ := d.advances_opening (by decide) s _ mid opened
  have entry := d.advances_entry steady
  have steady' := d.obeys_entry d.covers_forward steady
  have loop := d.passes_rounds_bind (c := 0x7D) (s.goto mid)
    (f := fun xs => (d.whiteSpace.right (verbatim "\x7d")).map fun _ => ofMembers xs)
    (fun _ => obeys_map (d.obeys_mark unmarked_compositional _) _)
    (fun _ => obeys_map (d.obeys_mark forward_compositional _) _)
    (fun xs t y stop yields => by
      obtain ⟨_, _, closed⟩ := yields_map yields
      exact d.head_of_yields_mark (by rfl) closed)
    (d.passes_first_entry members (s := s.goto mid) kind within (d.landed_of_yields_opening opened))
    entry
    (fun t reached => d.passes_further (by decide) fun u later => by
      have input := later.input_eq.trans reached.input_eq
      refine d.passes_entry members (by rw [input]; exact kind) ?_
      rw [input]
      exact (reached.trans later).inside within)
    (obeys_right forward_compositional (d.obeys_comma forward_compositional) steady')
    (advances_bind_rest (d.obeys_comma forward_compositional) fun _ => entry)
    within
  exact loop.mono (by show 2 * s.pos + 2 ≤ 2 * mid; omega) (Nat.le_refl _)

theorem passes_bracketed (advances : member.Advances) (kind : s.input.kind = .text) :
    (d.bracketed member).Passes n (2 * s.pos + 2) (2 * s.input.size + 2) s := by
  refine .bind (d.obeys_opening unmarked_compositional _) fun _ mid opened => ?_
  obtain ⟨ahead, within⟩ := d.advances_opening (by decide) s _ mid opened
  have loop := d.passes_rounds_bind (c := 0x5D) (s.goto mid)
    (f := fun xs => ((d.whiteSpace.right (verbatim "]")).left d.whiteSpace).map fun _ => Json.array xs)
    (fun _ => obeys_map (d.obeys_spacedMark unmarked_compositional _) _)
    (fun _ => obeys_map (d.obeys_spacedMark forward_compositional _) _)
    (fun xs t y stop yields => by
      obtain ⟨_, _, closed⟩ := yields_map yields
      exact d.head_of_yields_spacedMark (by rfl) closed)
    (members (s.goto mid) kind within) advances
    (fun t reached => d.passes_further (by decide) fun u later => by
      have input := later.input_eq.trans reached.input_eq
      have below : u.pos ≤ u.input.size := by
        rw [input]
        exact (reached.trans later).inside within
      exact (members u (by rw [input]; exact kind) below).mono (Nat.le_refl _) (d.retreat_le _ below))
    (obeys_right forward_compositional (d.obeys_comma forward_compositional) steady)
    (advances_bind_rest (d.obeys_comma forward_compositional) fun _ => advances)
    within
  exact loop.mono (by show 2 * s.pos + 2 ≤ 2 * mid; omega) (Nat.le_refl _)

/-! ### Values, given that their members make progress -/

/-- A value that is no container leaves nothing, and a container begins with no closing bracket. -/
theorem passes_announced (advances : member.Advances) (kind : s.input.kind = .text) {failing : Nat}
    (far : s.rest.head? ≠ some 0x5D → 2 * s.input.size + 2 ≤ failing) :
    (d.announced member (s.upcoming 1)).Passes n (2 * s.pos + 2) failing s := by
  by_cases brace : s.rest.head? = some 0x7B
  · rw [d.announced_brace kind brace]
    have braced := d.passes_braced (n := n) steady members kind
    exact d.passes_container (braced.mono (Nat.le_refl _) (far (by rw [brace]; decide))) _
  by_cases bracket : s.rest.head? = some 0x5B
  · rw [d.announced_bracket kind bracket]
    have bracketed := d.passes_bracketed (n := n) steady members advances kind
    have passes := bracketed.mono (Nat.le_refl _) (far (by rw [bracket]; decide))
    exact d.passes_container (passes.passing _) _
  · rw [d.announced_scalar kind brace bracket]
    exact .passing (.of_unmarked (d.obeys_scalar d.reports_unmarked)) _

/-- What stands behind the mark of a value. -/
theorem passes_spaced (advances : member.Advances) (kind : s.input.kind = .text) :
    (d.whiteSpace.right (peek.bind (d.announced member))).Passes n (2 * s.pos + 2) (d.retreat 0x5D s) s := by
  refine .bind (d.obeys_whiteSpace unmarked_compositional) fun _ mid spaced => ?_
  rw [d.yields_whiteSpace spaced]
  refine .bind (obeys_peek unmarked_compositional) fun c stop peeked => ?_
  obtain ⟨rfl, rfl⟩ := yields_peek peeked
  have announced : (d.announced member ((d.landing s).upcoming 1)).Passes n (2 * (d.landing s).pos + 2)
      (d.retreat 0x5D s) (d.landing s) := by
    refine d.passes_announced (s := d.landing s) steady members advances kind fun other => ?_
    rw [retreat, if_neg other]
    exact Nat.le_refl _
  have start := d.pos_le_landing s
  exact announced.mono (by omega) (Nat.le_refl _)

/-- The first milestone of a value is its own. -/
theorem leaves_valueOver (advances : member.Advances) (kind : s.input.kind = .text)
    (inside : s.pos ≤ s.input.size) :
    Leaves (fun ms r => (∃ more, ms = .value s.pos :: more) ∧
      Orderly (n + 1) (2 * s.pos + 1) (r.ceiling (d.retreat 0x5D s) (2 * s.input.size + 2)) ms)
      ((d.valueOver member).run s) := by
  have spaced := d.passes_spaced (n := n) steady members advances kind
  refine (leaves_milestone valueMark rfl spaced).imp ?_
  rintro _ r gives ⟨ms, rfl, orderly⟩
  exact ⟨⟨ms, rfl⟩, orderly.value (d.ceiling_bounds (d.advances_valueOver steady) _ inside gives).1⟩

end

/-! ### All levels of nesting -/

/-- A run that reads a value begins with an attempt at its own cursor and passes its milestones in
order. -/
theorem leaves_nested (levels : Nat) (kind : s.input.kind = .text) (inside : s.pos ≤ s.input.size) :
    Leaves (fun ms r => (∃ m more, ms = m :: more ∧ m.attempt? = some s.pos) ∧
      Orderly levels (2 * s.pos + 1) (r.ceiling (d.retreat 0x5D s) (2 * s.input.size + 2)) ms)
      ((d.nested levels).run s) := by
  induction levels generalizing s with
  | zero =>
    have alone : Leaves (fun ms _ => ms = [.limit s.pos]) ((d.nested 0).run s) :=
      leaves_marking ((leaves_of_unmarked (obeys_fail unmarked_compositional _)).imp
        fun _ _ _ nothing => congrArg (_ :: ·) nothing)
    refine alone.imp ?_
    rintro _ r gives rfl
    exact ⟨⟨_, [], rfl, rfl⟩, .limit (d.ceiling_bounds (d.advances_nested 0) _ inside gives).1⟩
  | succ levels ih =>
    have members (t : State) (kind' : t.input.kind = .text) (inside' : t.pos ≤ t.input.size) :
        (d.nested levels).Passes levels (2 * t.pos + 1) (d.retreat 0x5D t) t :=
      (ih kind' inside').imp fun _ _ _ both => both.2
    rw [nested_succ]
    refine (d.leaves_valueOver (d.obeys_nested d.covers_forward levels) members (d.advances_nested levels)
      kind inside).imp ?_
    rintro _ r _ ⟨⟨more, rfl⟩, orderly⟩
    exact ⟨⟨_, more, rfl, rfl⟩, orderly⟩

end Json.Dialect

/-! ## What a run attempts -/

namespace Json.Orderly

variable {n lo hi : Nat} {ms : List Milestone}

/-- Milestones of one sort are in the order of their cursors, and so there are no more than cursors. -/
theorem increasing (orderly : Orderly n lo hi ms) {cursor? : Milestone → Option Nat} {k : Nat}
    (ranked : ∀ m pos, cursor? m = some pos → m.rank = 2 * pos + k) :
    (ms.filterMap cursor?).Pairwise (· < ·) := by
  refine List.pairwise_filterMap.2 (orderly.ordered.imp fun {m m'} before pos here pos' there => ?_)
  have rank := ranked m pos here
  have rank' := ranked m' pos' there
  omega

theorem bounds (orderly : Orderly n lo hi ms) {cursor? : Milestone → Option Nat} {k : Nat}
    (ranked : ∀ m pos, cursor? m = some pos → m.rank = 2 * pos + k) {pos : Nat}
    (passed : pos ∈ ms.filterMap cursor?) : lo ≤ 2 * pos + k ∧ 2 * pos + k < hi := by
  obtain ⟨m, member, here⟩ := List.mem_filterMap.1 passed
  rw [← ranked m pos here]
  exact orderly.within m member

end Json.Orderly

namespace Json.Milestone

theorem rank_of_attempt (m : Milestone) (pos : Nat) (attempt : m.attempt? = some pos) :
    m.rank = 2 * pos + 1 := by
  cases m with
  | round _ => cases attempt
  | _ => cases attempt; rfl

theorem rank_of_round (m : Milestone) (pos : Nat) (round : m.round? = some pos) :
    m.rank = 2 * pos + 0 := by
  cases m with
  | round _ => cases round; rfl
  | _ => cases round

end Json.Milestone

/-- There are at most as many increasing numbers as there is room for. -/
theorem length_le_of_increasing (lo : Nat) {l : List Nat} {count : Nat} (increasing : l.Pairwise (· < ·))
    (within : ∀ x ∈ l, lo ≤ x ∧ x < lo + count) : l.length ≤ count := by
  have distinct : l.Nodup := increasing.imp Nat.ne_of_lt
  have subset : l ⊆ List.range' lo count := fun x member => List.mem_range'_1.2 (within x member)
  simpa using (distinct.subperm subset).length_le

namespace Json.Dialect

open Rewind.Parser Milestone

/-- In a run that reads a value, be the text a document or not, the attempts to read a value (its own,
those of its members, and so on) and the rounds of the member loops each begin at ever greater cursors.
So there are no more of them than the text has room for: nothing is read twice, no loop stands still, and
no nesting is too deep that is not deeper than the text is long.  A match lies behind its start; as this is
said of every cursor and every number of levels, it holds of the members as well. -/
theorem value_progresses (d : Dialect) (levels : Nat) {s : State} (kind : s.input.kind = .text)
    (inside : s.pos ≤ s.input.size) (j : Journal) :
    ∃ ms, milestones ((d.nested levels).run s j).2 = milestones j ++ ms ∧
      (∃ later, ms.filterMap attempt? = s.pos :: later) ∧
      (ms.filterMap attempt?).Pairwise (· < ·) ∧
      (∀ pos ∈ ms.filterMap attempt?, pos ≤ s.input.size) ∧
      (ms.filterMap attempt?).length ≤ s.remaining + 1 ∧
      (ms.filterMap round?).Pairwise (· < ·) ∧
      (∀ pos ∈ ms.filterMap round?, s.pos < pos ∧ pos ≤ s.input.size) ∧
      (ms.filterMap round?).length ≤ s.remaining ∧
      (s.remaining < levels → ∀ pos, .limit pos ∉ ms) ∧
      (∀ cause, ((d.nested levels).run s j).1 = .fault cause → cause = .numberTooLarge) ∧
      (∀ v pos ghost, ((d.nested levels).run s j).1 = .matched v pos ghost →
        s.pos < pos ∧ pos ≤ s.input.size) := by
  obtain ⟨ms, added, ⟨m, more, rfl, first⟩, orderly⟩ := d.leaves_nested levels kind inside j
  -- Ranks are twice the cursor, and one more for an attempt, which may stand behind a round there.
  have within : Orderly levels (2 * s.pos + 1) (2 * s.input.size + 2) (m :: more) :=
    orderly.mono (Nat.le_refl _) (d.ceiling_bounds (d.advances_nested levels) 0x5D inside ⟨j, _, rfl⟩).2
  have attempts (pos : Nat) (passed : pos ∈ (m :: more).filterMap attempt?) :
      s.pos ≤ pos ∧ pos ≤ s.input.size := by
    have bounds := within.bounds rank_of_attempt passed
    omega
  have rounds (pos : Nat) (passed : pos ∈ (m :: more).filterMap round?) :
      s.pos < pos ∧ pos ≤ s.input.size := by
    have bounds := within.bounds rank_of_round passed
    omega
  have attempting := within.increasing rank_of_attempt
  have going := within.increasing rank_of_round
  refine ⟨_, added, ⟨more.filterMap attempt?, List.filterMap_cons_some first⟩, attempting,
    fun pos passed => (attempts pos passed).2, ?_, going, rounds, ?_, fun shallow pos deep => ?_,
    fun cause faulty => ?_, fun v pos ghost matched => ?_⟩
  · refine length_le_of_increasing s.pos attempting fun pos passed => ?_
    have bounds := attempts pos passed
    rw [State.remaining]
    omega
  · refine length_le_of_increasing (s.pos + 1) going fun pos passed => ?_
    have bounds := rounds pos passed
    rw [State.remaining]
    omega
  · have behind := within.limits pos deep
    have before := (within.within _ deep).2
    rw [State.remaining] at shallow
    simp only [rank] at before
    omega
  · have only : (d.nested levels).FaultsOnlyAt (Oversized s.input.codes) s :=
      d.faultsOnlyAt_nested kind levels rfl
    refine (only j cause ?_).1
    rw [Reply.shape, faulty]
    rfl
  · exact d.advances_nested levels s v pos ⟨ghost, j, _, Prod.ext matched rfl⟩

/-- The list inside is empty, which takes an attempt to find out, and the one after it is broken off behind
a comma. -/
theorem value_progresses_on_broken_list :
    (Buffer.ofText (text "[ [ ],[1,]")).kind = .text ∧ 0 ≤ (Buffer.ofText (text "[ [ ],[1,]")).size ∧
      ∃ ms, milestones ((lenient.nested 3).run (.start (.ofText (text "[ [ ],[1,]"))) .empty).2 = ms ∧
        ms.filterMap attempt? = [0, 2, 4, 6, 7, 9] ∧ (ms.filterMap attempt?).Pairwise (· < ·) ∧
        ms.filterMap round? = [2, 4, 5, 7, 8] ∧ (ms.filterMap round?).Pairwise (· < ·) := by
  obtain ⟨ms, added, -, attempting, -, -, going, -⟩ :=
    value_progresses lenient 3 (s := .start (.ofText (text "[ [ ],[1,]"))) rfl (by decide) .empty
  have passed : milestones ((lenient.nested 3).run (.start (.ofText (text "[ [ ],[1,]"))) .empty).2 =
      [.value 0, .round 2, .value 2, .round 4, .value 4, .round 5, .value 6, .round 7, .value 7, .round 8,
        .value 9] := by
    decide +kernel
  have same : milestones .empty ++ ms = ms := List.nil_append ms
  rw [added, same] at passed
  rw [added, same]
  subst passed
  exact ⟨rfl, by decide, _, rfl, by decide, attempting, by decide, going⟩

end Json.Dialect

end Rewind
