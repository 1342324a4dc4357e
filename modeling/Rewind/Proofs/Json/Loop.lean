import Rewind.Proofs.Json.Tidy
import Rewind.Proofs.Parser.Run

/-! # Values read in one loop

An object or an array can be read in place, by a loop that has a cursor, the items so far and the furthest
failure so far.  A round reads the comma, the key, the colon and the member one after the other, merges
what each of them carries into the failure, and is broken off by the first that fails; the cursor stays at
the end of the round before.  Nothing else is merged but what the container itself misses.

`valueOver` puts values together from sequences and repetition instead, and merges failures from the
inside out.  That comes to the same, at every level of nesting and wherever the stack ends. -/

namespace Rewind.Json

open Rewind.Parser Run Token

/-- What a round of the loop reads.  The items of an array have no key. -/
abbrev LoopItem := Text × Json

/-! ## The loop -/

/-- Reads a part of a round at the cursor, and merges what it carries into the failure so far. -/
def readPart {α : Type} (s : State) (p : Parser α) (cursor : Nat) (error : Option Failure) : Run α :=
  after s.pos error (p.run (s.goto cursor))

namespace Dialect

variable (d : Dialect) (object : Bool) (member : Parser Json) (s : State)

/-- One round: a comma, unless there are no items yet; in an object a key and a colon; and a member. -/
def round (items : List LoopItem) (cursor : Nat) (error : Option Failure) : Run LoopItem :=
  let broken (pos : Nat) (error : Failure) : Run LoopItem := reply (.failed pos error)
  let pair (cursor : Nat) (error : Option Failure) : Run LoopItem :=
    if object then
      resume (readPart s d.quotedString cursor error)
        (fun key cursor error =>
          resume (readPart s d.colon cursor error)
            (fun _ cursor error => Run.map (key, ·) (readPart s member cursor error)) broken) broken
    else Run.map ([], ·) (readPart s member cursor error)
  if items.isEmpty then pair cursor error
  else resume (readPart s d.comma cursor error) (fun _ cursor error => pair cursor error) broken

def loop (items : List LoopItem) (cursor : Nat) (error : Option Failure) : Run (List LoopItem) := fun j =>
  match d.round object member s items cursor error (j.record (.marked roundMark cursor)) with
  | (.matched item pos error, j) =>
    -- A round that matches has consumed something.
    if cursor < pos ∧ pos ≤ s.input.size then loop (items ++ [item]) pos error j
    else (.fault .stalled, j)
  | (.failed _ error, j) => (.matched items cursor (some error), j)
  | (.fault cause, j) => (.fault cause, j)
termination_by s.input.size - cursor

def close (items : List LoopItem) (cursor : Nat) (error : Option Failure) : Run Json := fun j =>
  let t := d.landing (s.goto cursor)
  let mark := if object then "\x7d" else "]"
  if t.upcoming 1 = some (.ofText (text mark)) then
    if object then (.matched (ofMembers items) (t.pos + 1) error, j)
    else (.matched (.array (items.map Prod.snd)) (d.landing (t.goto (t.pos + 1))).pos error, j)
  else
    let missing : Failure := ⟨t.pos, [quoted (text mark)], t.upcoming 1⟩
    (.failed s.pos (Failure.cover error missing), j.record (.missed missing))

/-- A container whose opening character stands at the cursor.  An array is only come to if there is no
object. -/
def containerInPlace : Parser Json where
  run s j :=
    let name := if object then "object" else "array"
    let passed : Failure := ⟨s.pos, [quoted (text "\x7b")], s.upcoming 1⟩
    let error := if object then none else some passed
    let cursor := (d.landing (s.goto (s.pos + 1))).pos
    let done := resume (d.loop object member s [] cursor error) (d.close object s)
      (fun pos error => reply (.failed pos error)) (j.record (.marked containerMark s.pos))
    (done.1,
      if d.trace then done.2.conclude (.concluded (text name)) (done.1.ending? s.pos) else done.2)

def valueInPlace : Parser Json where
  run start j :=
    let s := d.landing start
    let opener := s.upcoming 1
    let brace := some (Buffer.ofText (text "\x7b"))
    let j := j.record (.marked valueMark start.pos)
    if opener ≠ brace ∧ opener ≠ some (.ofText (text "[")) then
      let passed : Failure := ⟨s.pos, [quoted (text "\x7b"), quoted (text "[")], opener⟩
      after start.pos (some passed) (d.scalar.run s) j
    else after start.pos none ((d.containerInPlace (opener = brace) member).run s) j

def nestedInPlace (levels : Nat) (stack : Stack) : Parser Json :=
  match levels with
  | 0 => tooDeep
  | levels + 1 =>
    { run := fun s j => (d.valueInPlace (guarded stack levels (nestedInPlace levels stack))).run s j }

end Dialect

/-! ## Parts of a round -/

section

variable {α β : Type} (s : State)

/-- Two parts are read one after the other, whether their failures are merged at once or in the end. -/
theorem readPart_bind (p : Parser α) (f : α → Parser β) (cursor : Nat) (error : Option Failure) :
    readPart s (p.bind f) cursor error =
      resume (readPart s p cursor error) (fun x cursor error => readPart s (f x) cursor error)
        fun pos error => reply (.failed pos error) := by
  funext j
  simp only [readPart, run_bind, after, resume]
  cases p.run (s.goto cursor) j with
  | mk first k =>
    cases first with
    | matched x pos ghost => exact Prod.ext (Reply.after_after ..) rfl
    | failed pos e => rfl
    | fault cause => rfl

theorem after_readPart (p : Parser α) (cursor : Nat) (ghost error : Option Failure) :
    after s.pos ghost (readPart s p cursor error) = readPart s p cursor (Failure.join ghost error) :=
  funext fun _ => Prod.ext (Reply.after_after ..) rfl

theorem readPart_map (p : Parser α) (f : α → β) (cursor : Nat) (error : Option Failure) :
    readPart s (p.map f) cursor error = Run.map f (readPart s p cursor error) :=
  funext fun _ => Prod.ext (Reply.map_after ..).symm rfl

end

namespace Dialect

variable (d : Dialect) (object : Bool) (member : Parser Json) {s : State}

def element : Parser LoopItem := if object then d.entry member else member.map ([], ·)

def further : Parser LoopItem := d.comma.right (d.element object member)

/-- A round is a part by itself. -/
theorem round_eq (items : List LoopItem) (cursor : Nat) (error : Option Failure) :
    d.round object member s items cursor error =
      readPart s (if items.isEmpty then d.element object member else d.further object member)
        cursor error := by
  have pair (cursor : Nat) (error : Option Failure) :
      readPart s (d.element object member) cursor error = d.round object member s [] cursor error := by
    cases object with
    | true => simp [element, entry, round, readPart_bind, readPart_map]
    | false => simp [element, round, readPart_map]
  cases items with
  | nil => exact (pair cursor error).symm
  | cons item items =>
    simp only [List.isEmpty_cons, Bool.false_eq_true, if_false, further, Parser.right, readPart_bind, pair]
    rfl

/-- The loop is the repetition of its rounds, with the failure before it in front. -/
theorem loop_eq_roundsFrom (items : List LoopItem) (cursor : Nat) (error : Option Failure) (j : Journal) :
    d.loop object member s items cursor error j =
      roundsFrom (if items.isEmpty then d.element object member else d.further object member)
        (d.further object member) (s.goto cursor) items.reverse error j := by
  rw [loop, roundsFrom, round_eq, readPart]
  simp only [after, State.pos_goto, State.input_goto]
  cases Parser.run _ (s.goto cursor) (j.record (.marked roundMark cursor)) with
  | mk first k =>
    cases first with
    | matched item pos ghost =>
      by_cases ahead : cursor < pos ∧ pos ≤ s.input.size
      · have rest := loop_eq_roundsFrom (items ++ [item]) pos (Failure.join error ghost) k
        rw [List.reverse_concat, List.isEmpty_eq_false_iff.2 (by simp)] at rest
        simp only [Reply.after, State.goto_goto, if_pos ahead, rest]
        exact (if_pos ahead).symm
      · simp only [Reply.after, if_neg ahead]
        exact (if_neg ahead).symm
    | failed pos e => simp [Reply.after, Failure.some_cover]
    | fault cause => rfl
termination_by s.input.size - cursor

theorem loop_eq (cursor : Nat) (error : Option Failure) :
    d.loop object member s [] cursor error =
      readPart s (rounds (d.element object member) (d.further object member)) cursor error := by
  funext j
  rw [loop_eq_roundsFrom, List.isEmpty_nil, if_pos rfl, List.reverse_nil, roundsFrom_eq]
  simp only [readPart, rounds, after, Run.map]
  cases ran : roundsFrom (d.element object member) (d.further object member) (s.goto cursor) [] none j with
  | mk rounds k =>
    cases rounds with
    | matched items pos ghost => rfl
    | failed pos e =>
      -- A repetition does not fail, so it makes no difference where it would have begun.
      exact (roundsFrom_ne_failed _ _ _ _ _ _ _ _ (congrArg Prod.fst ran)).elim
    | fault cause => rfl

/-! ## Whole values -/

def closing (items : List LoopItem) : Parser Json :=
  if object then (d.whiteSpace.right (verbatim "\x7d")).map fun _ => ofMembers items
  else ((d.whiteSpace.right (verbatim "]")).left d.whiteSpace).map fun _ => .array (items.map Prod.snd)

/-- A mark of one character is looked at and then taken. -/
theorem verbatim_run (kind : s.input.kind = .text) {t : String} {c : Code} (spelled : text t = [c])
    (j : Journal) :
    (verbatim t).run s j =
      if s.upcoming 1 = some (.ofText (text t)) then (.matched (.ofText (text t)) (s.pos + 1) none, j)
      else miss s (quoted (text t)) (s.upcoming 1) j := by
  have stands : s.input.startsWith s.pos [c] = true ↔ s.upcoming 1 = some (.ofText [c]) := by
    rw [upcoming_eq_iff kind, Buffer.startsWith_iff, State.rest]
    constructor
    · rintro ⟨-, tail, ahead⟩
      rw [← ahead]
      rfl
    · intro head
      obtain ⟨tail, ahead⟩ := List.head?_eq_some_iff.1 head
      have nonempty := congrArg List.length ahead
      rw [Buffer.length_rest, List.length_cons] at nonempty
      exact ⟨by omega, tail, ahead.symm⟩
  rw [verbatim, spelled]
  -- A text is not compared with bytes here, and so there is no fault.
  have known : ¬ s.input.kind ≠ (Buffer.ofText [c]).kind := fun other => other kind
  by_cases here : s.upcoming 1 = some (.ofText [c])
  · rw [if_pos here, literal]
    simp only [if_neg known, Buffer.codes_ofText, if_pos (stands.2 here)]
    rfl
  · rw [if_neg here, literal]
    simp only [if_neg known, Buffer.codes_ofText, if_neg (mt stands.1 here)]
    rfl

theorem mark_run (kind : s.input.kind = .text) {t : String} {c : Code} (spelled : text t = [c])
    (j : Journal) :
    (d.whiteSpace.right (verbatim t)).run s j =
      if (d.landing s).upcoming 1 = some (.ofText (text t)) then
        (.matched (.ofText (text t)) ((d.landing s).pos + 1) none, j)
      else
        let missing : Failure := ⟨(d.landing s).pos, [quoted (text t)], (d.landing s).upcoming 1⟩
        (.failed s.pos missing, j.record (.missed missing)) := by
  have spaced : (d.whiteSpace.right (verbatim t)).run s j =
      Run.after s.pos none ((verbatim t).run (d.landing s)) j := rfl
  rw [spaced, after, verbatim_run (s := d.landing s) kind spelled]
  split <;> rfl

/-- The end of a container is looked for after white space. -/
theorem close_eq (kind : s.input.kind = .text) (items : List LoopItem) (cursor : Nat)
    (error : Option Failure) :
    d.close object s items cursor error = readPart s (d.closing object items) cursor error := by
  funext j
  cases object with
  | true =>
    have mark := d.mark_run (s := s.goto cursor) kind (t := "\x7d") rfl j
    simp only [close, closing, readPart, after, if_true, run_map, Run.map, mark]
    split
    · simp [Reply.map, Reply.after]
    · rfl
  | false =>
    have mark := d.mark_run (s := s.goto cursor) kind (t := "]") rfl j
    simp only [close, closing, readPart, after, Bool.false_eq_true, if_false, run_map, Run.map,
      Parser.left, run_bind, resume, mark]
    split
    · simp only [whiteSpace_run, Reply.map, Reply.after, Failure.join_none]
      rfl
    · rfl

/-- The opening character of a container is taken, and the white space after it. -/
theorem opening_run (kind : s.input.kind = .text) {t : String} {c : Code} (spelled : text t = [c])
    (opened : s.upcoming 1 = some (.ofText (text t))) (p : Parser Json) :
    (((verbatim t).left d.whiteSpace).right p).run s =
      readPart s p (d.landing (s.goto (s.pos + 1))).pos none := by
  funext j
  have first := verbatim_run kind spelled j
  rw [if_pos opened] at first
  simp only [Parser.right, Parser.left, run_bind, resume, first]
  rfl

theorem container_run (name : String) (p : Parser Json) (j : Journal) :
    (d.container name p).run s j =
      let done := p.run s (j.record (.marked containerMark s.pos))
      (done.1,
        if d.trace then done.2.conclude (.concluded (text name)) (done.1.ending? s.pos) else done.2) := by
  simp only [container, marking]
  split
  · rfl
  · rfl

theorem containerInPlace_object (kind : s.input.kind = .text)
    (opened : s.upcoming 1 = some (.ofText (text "\x7b"))) :
    (d.containerInPlace true member).run s = (d.container "object" (d.braced member)).run s := by
  funext j
  have inner : d.braced member = ((verbatim "\x7b").left d.whiteSpace).right
    ((rounds (d.element true member) (d.further true member)).bind (d.closing true)) := rfl
  simp only [containerInPlace, loop_eq, funext₃ (d.close_eq true kind), ← readPart_bind]
  rw [container_run, inner, d.opening_run kind rfl opened]
  rfl

/-- The items of an array may be given empty keys, which are dropped in the end. -/
theorem bracketed_eq_element : d.bracketed member = ((verbatim "[").left d.whiteSpace).right
    ((rounds (d.element false member) (d.further false member)).bind (d.closing false)) := by
  -- Keys are put in before the loop and dropped behind it.
  have keyed : d.further false member = (d.comma.right member).map ([], ·) :=
    (Parser.map_bind ..).symm
  have unkeyed (items : List Json) : (items.map (([], ·) : Json → LoopItem)).map Prod.snd = items := by
    rw [List.map_map]
    exact List.map_id _
  have first : d.element false member = member.map ([], ·) := rfl
  rw [keyed, first, rounds_map, bind_map]
  simp only [bracketed, closing, Bool.false_eq_true, if_false, unkeyed]

theorem containerInPlace_array (kind : s.input.kind = .text)
    (opened : s.upcoming 1 = some (.ofText (text "["))) :
    (d.containerInPlace false member).run s =
      (d.container "array" (passing [quoted (text "\x7b")] (d.bracketed member))).run s := by
  funext j
  have inner : (passing [quoted (text "\x7b")] (d.bracketed member)).run s =
      readPart s ((rounds (d.element false member) (d.further false member)).bind (d.closing false))
        (d.landing (s.goto (s.pos + 1))).pos (some ⟨s.pos, [quoted (text "\x7b")], s.upcoming 1⟩) := by
    rw [bracketed_eq_element, ← Failure.join_none (some _), ← after_readPart,
      ← d.opening_run kind rfl opened]
    rfl
  simp only [containerInPlace, loop_eq, funext₃ (d.close_eq false kind), ← readPart_bind]
  rw [container_run, inner]
  rfl

theorem kind_of_upcoming {t : Text} {n : Nat} (ahead : s.upcoming n = some (.ofText t)) :
    s.input.kind = .text := by
  rw [State.upcoming, Buffer.upcoming_eq] at ahead
  split at ahead
  · cases ahead
  · exact congrArg Buffer.kind (Option.some.inj ahead)

/-- Reading containers in place is reading values. -/
theorem valueOver_eq_valueInPlace : d.valueOver member = d.valueInPlace member := by
  refine Parser.ext (funext fun start => funext fun j => ?_)
  rw [valueOver_run, announced]
  simp only [valueInPlace]
  by_cases brace : (d.landing start).upcoming 1 = some (.ofText (text "\x7b"))
  · have object := d.containerInPlace_object member (kind_of_upcoming brace) brace
    rw [if_pos brace, if_neg fun other => other.1 brace, ← object, decide_eq_true brace]
  · by_cases bracket : (d.landing start).upcoming 1 = some (.ofText (text "["))
    · have array := d.containerInPlace_array member (kind_of_upcoming bracket) bracket
      rw [if_neg brace, if_pos bracket, if_neg fun other => other.2 bracket, ← array,
        decide_eq_false brace]
    · rw [if_neg brace, if_neg bracket, if_pos ⟨brace, bracket⟩]
      exact Prod.ext (Reply.after_after ..) rfl

/-- However deep values nest and wherever the stack ends, reading their containers in place changes
nothing. -/
theorem nested_eq_nestedInPlace (levels : Nat) (stack : Stack) :
    d.nested levels stack = d.nestedInPlace levels stack := by
  induction levels with
  | zero => rfl
  | succ levels ih => rw [nested_succ_on, valueOver_eq_valueInPlace, ih, nestedInPlace]

end Dialect

end Rewind.Json
