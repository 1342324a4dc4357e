import Rewind.Proofs.Grammar.Discipline
import Rewind.Proofs.Parser.Choice

/-! # Ordered choice of any number of alternatives

A choice between a list of alternatives is the choice between two of them at a time, however these are
bracketed, and a choice among the alternatives of another may be written out in its place.  The
equations are about whole parsers, so they cover replies and journals alike.

What a choice comes to is said by `Parser.Tries`: the alternatives are tried in turn, from the same
cursor, up to the first that does not fail, and the failures on the way are merged in their order. -/

namespace Rewind

/-! ## Brackets -/

inductive Bracketing (ι : Type) where
  | single (p : ι)
  | either (first second : Bracketing ι)

namespace Bracketing

variable {ι κ : Type}

def alternatives : Bracketing ι → List ι
  | .single p => [p]
  | .either first second => first.alternatives ++ second.alternatives

/-- The alternatives, with `choose` for each pair of brackets. -/
def fold (choose : ι → ι → ι) : Bracketing ι → ι
  | .single p => p
  | .either first second => choose (first.fold choose) (second.fold choose)

def map (f : ι → κ) : Bracketing ι → Bracketing κ
  | .single p => .single (f p)
  | .either first second => .either (first.map f) (second.map f)

theorem alternatives_map (f : ι → κ) (b : Bracketing ι) :
    (b.map f).alternatives = b.alternatives.map f := by
  induction b with
  | single p => rfl
  | either first second ih ih' => rw [map, alternatives, ih, ih', alternatives, List.map_append]

theorem alternatives_ne_nil (b : Bracketing ι) : b.alternatives ≠ [] := by
  induction b with
  | single p => exact List.cons_ne_nil p []
  | either first second ih _ => exact List.append_ne_nil_of_left_ne_nil ih _

end Bracketing

namespace Parser

open Run Failure

variable {α : Type}

/-! ## Two alternatives at a time -/

section

variable {p : Parser α} {ps qs : List (Parser α)} {s : State} {j : Journal}

theorem tryRest_failed {error e : Failure} {pos : Nat}
    (failed : (tryRest s ps error j).1 = .failed pos e) : pos = s.pos := by
  induction ps generalizing error j with
  | nil =>
    cases failed
    rfl
  | cons p ps ih =>
    rw [run_tryRest] at failed
    cases ran : p.run s j with
    | mk reply k =>
      cases reply with
      | matched x stop ghost =>
        rw [resume_matched ran] at failed
        cases failed
      | failed stop next =>
        rw [resume_failed ran] at failed
        exact ih failed
      | fault cause =>
        rw [resume_fault ran] at failed
        cases failed

/-- Whatever the alternatives, a choice reports its failure where it began. -/
theorem rewinds_oneOf (ps : List (Parser α)) : (oneOf ps).Rewinds := by
  intro s j pos error failed
  cases ps with
  | nil =>
    cases failed
    rfl
  | cons p ps =>
    rw [run_oneOf] at failed
    cases ran : p.run s j with
    | mk reply k =>
      cases reply with
      | matched x stop ghost =>
        rw [resume_matched ran] at failed
        cases failed
      | failed stop next =>
        rw [resume_failed ran] at failed
        exact tryRest_failed failed
      | fault cause =>
        rw [resume_fault ran] at failed
        cases failed

theorem oneOf_singleton (rewinds : p.Rewinds) : oneOf [p] = p := by
  ext s j : 3
  rw [run_oneOf]
  cases ran : p.run s j with
  | mk reply k =>
    cases reply with
    | matched x pos ghost =>
      rw [resume_matched ran]
      rfl
    | failed pos error =>
      rw [resume_failed ran, rewinds s j pos error (congrArg Prod.fst ran)]
      rfl
    | fault cause => rw [resume_fault ran]

theorem oneOf_cons (p : Parser α) (nonempty : ps ≠ []) : oneOf (p :: ps) = p.orElse (oneOf ps) := by
  obtain ⟨q, qs, rfl⟩ := List.exists_cons_of_ne_nil nonempty
  ext s j : 3
  rw [run_oneOf, run_orElse]
  simp only [tryRest_cons]

/-- The cursor that a failure of the first alternative reports does not matter. -/
theorem oneOf_singleton_orElse (p q : Parser α) : (oneOf [p]).orElse q = p.orElse q := by
  ext s j : 3
  rw [run_orElse, run_orElse]
  cases ran : p.run s j with
  | mk reply k =>
    cases reply with
    | matched x pos ghost => rw [resume_matched ran, run_oneOf, resume_matched (resume_matched ran)]
    | failed pos error => rw [resume_failed ran, run_oneOf, resume_failed (resume_failed ran)]
    | fault cause => rw [resume_fault ran, run_oneOf, resume_fault (resume_fault ran)]

theorem oneOf_append (first : ps ≠ []) (second : qs ≠ []) :
    oneOf (ps ++ qs) = (oneOf ps).orElse (oneOf qs) := by
  induction ps with
  | nil => exact absurd rfl first
  | cons p ps ih =>
    by_cases last : ps = []
    · subst last
      rw [oneOf_singleton_orElse, List.singleton_append, oneOf_cons p second]
    · rw [List.cons_append, oneOf_cons p (List.append_ne_nil_of_left_ne_nil last qs), ih last,
        oneOf_cons p last, orElse_assoc]

theorem oneOf_alternatives (b : Bracketing (Parser α)) (rewinds : ∀ p ∈ b.alternatives, p.Rewinds) :
    oneOf b.alternatives = b.fold Parser.orElse := by
  induction b with
  | single p => exact oneOf_singleton (rewinds p List.mem_cons_self)
  | either first second ih ih' =>
    rw [Bracketing.alternatives, oneOf_append first.alternatives_ne_nil second.alternatives_ne_nil,
      ih fun p member => rewinds p (List.mem_append_left _ member),
      ih' fun p member => rewinds p (List.mem_append_right _ member)]
    rfl

/-- A choice among the alternatives may be written out in its place. -/
theorem oneOf_flatten (before after : List (Parser α)) (nonempty : ps ≠ []) :
    oneOf (before ++ oneOf ps :: after) = oneOf (before ++ ps ++ after) := by
  have behind : oneOf (oneOf ps :: after) = oneOf (ps ++ after) := by
    by_cases last : after = []
    · rw [last, List.append_nil, oneOf_singleton (rewinds_oneOf ps)]
    · rw [oneOf_cons _ last, oneOf_append nonempty last]
  by_cases head : before = []
  · rw [head, List.nil_append, List.nil_append, behind]
  · rw [List.append_assoc, oneOf_append head (List.cons_ne_nil _ _), behind,
      oneOf_append head (List.append_ne_nil_of_left_ne_nil nonempty after)]

end

/-! ## One alternative after the other -/

/-- From the cursor of `s`, the parsers fail one after the other with these errors, the first of them
with the journal `j`, and leave the journal `k`. -/
inductive AllFail (s : State) : Journal → List (Parser α) → List Failure → Journal → Prop where
  | nil {j} : AllFail s j [] [] j
  | cons {j p pos error k ps errors l} (ran : p.run s j = (.failed pos error, k))
      (rest : AllFail s k ps errors l) : AllFail s j (p :: ps) (error :: errors) l

section

variable {p : Parser α} {ps qs : List (Parser α)} {s : State} {j k l : Journal}

/-- Alternatives that fail are merged in front of what the others come to. -/
theorem AllFail.run_append {errors : List Failure} (fail : AllFail s j ps errors l)
    (nonempty : qs ≠ []) : (oneOf (ps ++ qs)).run s j =
      Run.after s.pos (mergeAll errors) ((oneOf qs).run s) l := by
  induction fail with
  | @nil j =>
    exact Prod.ext (Reply.after_none_eq_self_iff.2 (rewinds_oneOf qs s j)).symm rfl
  | @cons j p pos error k ps errors l ran rest ih =>
    rw [List.cons_append, oneOf_cons p (List.append_ne_nil_of_right_ne_nil ps nonempty), run_orElse,
      resume_failed ran, after, ih, after, Reply.after_after, mergeAll_cons]
    rfl

/-- If all alternatives fail, so does the choice. -/
theorem AllFail.run_eq {errors : List Failure} (fail : AllFail s j ps errors k) (nonempty : ps ≠ []) :
    ∃ error, mergeAll errors = some error ∧ (oneOf ps).run s j = (.failed s.pos error, k) := by
  induction fail with
  | nil => exact absurd rfl nonempty
  | @cons j p pos error k ps errors l ran rest ih =>
    -- The error of the last one is carried as it is, without a merge.
    by_cases last : ps = []
    · subst last
      cases rest
      refine ⟨error, rfl, ?_⟩
      rw [run_oneOf, resume_failed ran]
      rfl
    · obtain ⟨merged, same, others⟩ := ih last
      refine ⟨error.merge merged, by rw [mergeAll_cons, same]; rfl, ?_⟩
      rw [oneOf_cons p last, run_orElse, resume_failed ran, after, others]
      rfl

theorem AllFail.run_first {errors : List Failure} {reply : Reply α} (fail : AllFail s j ps errors l)
    (ran : p.run s l = (reply, k)) (other : ∀ pos error, reply ≠ .failed pos error) :
    (oneOf (ps ++ p :: qs)).run s j = (reply.after s.pos (mergeAll errors), k) := by
  have here : (oneOf (p :: qs)).run s l = (reply, k) := by
    rw [run_oneOf]
    cases reply with
    | matched x pos ghost =>
      rw [resume_matched ran]
      rfl
    | failed pos error => exact absurd rfl (other pos error)
    | fault cause => rw [resume_fault ran]
  rw [fail.run_append (List.cons_ne_nil p qs), after, here]

end

/-- From the cursor of `s` with the journal `j`, those of the alternatives that are listed second are
tried, and no other; they come to the reply `reply` and leave the journal `k`. -/
inductive Tries (s : State) (j : Journal) :
    List (Parser α) → List (Parser α) → Reply α → Journal → Prop where
  /-- The last one that is tried matches, and those before it fail. -/
  | first {before p after errors l x pos own k} (fail : AllFail s j before errors l)
      (ran : p.run s l = (.matched x pos own, k)) :
      Tries s j (before ++ p :: after) (before ++ [p])
        (.matched x pos (join (mergeAll errors) own)) k
  /-- All of them fail. -/
  | none {ps errors error k} (fail : AllFail s j ps errors k) (merged : mergeAll errors = some error) :
      Tries s j ps ps (.failed s.pos error) k
  /-- The last one that is tried ends the run. -/
  | fault {before p after errors l cause k} (fail : AllFail s j before errors l)
      (ran : p.run s l = (.fault cause, k)) :
      Tries s j (before ++ p :: after) (before ++ [p]) (.fault cause) k

section

variable {ps : List (Parser α)} {s : State} {j k : Journal}

theorem exists_tries (ps : List (Parser α)) (s : State) (j : Journal) :
    (∃ errors k, AllFail s j ps errors k) ∨ ∃ tried reply k, Tries s j ps tried reply k := by
  induction ps generalizing j with
  | nil => exact .inl ⟨[], j, .nil⟩
  | cons p ps ih =>
    cases ran : p.run s j with
    | mk reply k =>
      cases reply with
      | matched x pos ghost => exact .inr ⟨_, _, k, .first .nil ran⟩
      | fault cause => exact .inr ⟨_, _, k, .fault .nil ran⟩
      | failed pos error =>
        obtain ⟨errors, l, rest⟩ | ⟨tried, reply, l, rest⟩ := ih k
        · exact .inl ⟨_, l, .cons ran rest⟩
        · -- The one that fails goes in front of those that were to fail before the last one.
          cases rest with
          | first fail last => exact .inr ⟨_, _, l, .first (.cons ran fail) last⟩
          | none fail merged => exact .inl ⟨_, l, .cons ran fail⟩
          | fault fail last => exact .inr ⟨_, _, l, .fault (.cons ran fail) last⟩

theorem Tries.run_eq {tried : List (Parser α)} {reply : Reply α} (nonempty : ps ≠ [])
    (tries : Tries s j ps tried reply k) : (oneOf ps).run s j = (reply, k) := by
  cases tries with
  | first fail ran => exact fail.run_first ran nofun
  | none fail merged =>
    obtain ⟨error, same, failed⟩ := fail.run_eq nonempty
    rw [failed, Option.some.inj (merged.symm.trans same)]
  | fault fail ran => exact fail.run_first ran nofun

/-- A choice does what trying its alternatives comes to. -/
theorem oneOf_run_iff (nonempty : ps ≠ []) (reply : Reply α) :
    (oneOf ps).run s j = (reply, k) ↔ ∃ tried, Tries s j ps tried reply k := by
  constructor
  · intro ran
    obtain ⟨errors, l, fail⟩ | ⟨tried, reply', l, tries⟩ := exists_tries ps s j
    · obtain ⟨error, merged, failed⟩ := fail.run_eq nonempty
      cases ran.symm.trans failed
      exact ⟨ps, .none fail merged⟩
    · cases ran.symm.trans (tries.run_eq nonempty)
      exact ⟨tried, tries⟩
  · rintro ⟨tried, tries⟩
    exact tries.run_eq nonempty

end

/-! ## Watched alternatives -/

/-- The alternatives, each of which reports the attempts to run it under a name of its own. -/
def watched (alternatives : List (Text × Parser α)) : List (Parser α) :=
  alternatives.map fun a => a.2.spied a.1

section

variable {s : State} {j k : Journal} {name : Text}

theorem attempts_spied {other : Text} {p : Parser α} {reply : Reply α}
    (quiet : p.Obeys (.unwatched name)) (ran : (p.spied other).run s j = (reply, k)) :
    k.attempts name = j.attempts name ++ List.replicate ([other].count name) s.pos := by
  have silent : k.attempts name = (j.record (.attempted other s.pos)).attempts name := quiet.run ran
  rw [silent]
  by_cases same : other = name
  · subst same
    rw [Journal.attempts_record_attempted, List.count_singleton_self]
    rfl
  · have unnamed : (Event.attempted other s.pos).attempt? name = none := if_neg same
    rw [Journal.attempts_record unnamed, List.count_singleton, beq_false_of_ne same]
    simp

/-- Alternatives that fail have each been tried once, from the common cursor. -/
theorem AllFail.attempts_eq {alternatives : List (Text × Parser α)} {errors : List Failure}
    (quiet : ∀ a ∈ alternatives, a.2.Obeys (.unwatched name))
    (fail : AllFail s j (watched alternatives) errors k) :
    k.attempts name =
      j.attempts name ++ List.replicate ((alternatives.map Prod.fst).count name) s.pos := by
  induction alternatives generalizing j errors with
  | nil =>
    cases fail
    simp
  | cons a alternatives ih =>
    cases fail with
    | cons ran rest =>
      have first := attempts_spied (quiet a List.mem_cons_self) ran
      have others := ih (fun b member => quiet b (List.mem_cons_of_mem _ member)) rest
      rw [others, first, List.append_assoc, List.replicate_append_replicate, ← List.count_append]
      rfl

/-- The alternatives that report an attempt are those that are tried. -/
theorem Tries.attempts_eq {alternatives : List (Text × Parser α)} {tried : List (Parser α)}
    {reply : Reply α} (quiet : ∀ a ∈ alternatives, ∀ name, a.2.Obeys (.unwatched name))
    (tries : Tries s j (watched alternatives) tried reply k) :
    ∃ named, named <+: alternatives ∧ tried = watched named ∧ ∀ name, k.attempts name =
      j.attempts name ++ List.replicate ((named.map Prod.fst).count name) s.pos := by
  -- What comes after the last one that is tried leaves no trace.
  have upTo {earlier later : List (Text × Parser α)} {a : Text × Parser α} {errors : List Failure}
      {l : Journal} {r : Reply α} (whole : alternatives = earlier ++ a :: later)
      (fail : AllFail s j (watched earlier) errors l) (ran : (a.2.spied a.1).run s l = (r, k)) :
      ∃ named, named <+: alternatives ∧ watched earlier ++ [a.2.spied a.1] = watched named ∧
        ∀ name, k.attempts name =
          j.attempts name ++ List.replicate ((named.map Prod.fst).count name) s.pos := by
    subst whole
    refine ⟨earlier ++ [a], ⟨later, by simp⟩, by simp [watched], fun name => ?_⟩
    have before := fail.attempts_eq fun b member => quiet b (List.mem_append_left _ member) name
    have last := attempts_spied (quiet a (by simp) name) ran
    rw [last, before, List.append_assoc, List.replicate_append_replicate, ← List.count_append,
      List.map_append, List.map_singleton]
  generalize same : watched alternatives = ps at tries
  cases tries with
  | none fail merged =>
    subst same
    exact ⟨alternatives, List.prefix_rfl, rfl, fun name =>
      fail.attempts_eq fun a member => quiet a member name⟩
  | first fail ran =>
    obtain ⟨earlier, rest, whole, rfl, others⟩ := List.map_eq_append_iff.1 same
    obtain ⟨a, later, rfl, rfl, rfl⟩ := List.map_eq_cons_iff.1 others
    exact upTo whole fail ran
  | fault fail ran =>
    obtain ⟨earlier, rest, whole, rfl, others⟩ := List.map_eq_append_iff.1 same
    obtain ⟨a, later, rfl, rfl, rfl⟩ := List.map_eq_cons_iff.1 others
    exact upTo whole fail ran

end

end Parser

namespace Expr

open Rewind.Parser Failure

/-! ## Expressions -/

def watched (alternatives : List (Text × Expr)) : List Expr := alternatives.map fun a => a.2.spied a.1

variable (grammar : Grammar)

theorem parser_orElse (p q : Expr) :
    (p.orElse q).parser grammar = (p.parser grammar).orElse (q.parser grammar) := by
  ext s j : 3
  simp only [parser, denote_orElse, Parser.orElse]

theorem parser_spied (name : Text) (p : Expr) :
    (p.spied name).parser grammar = (p.parser grammar).spied name := by
  ext s j : 3
  simp only [parser, denote_spied, Parser.spied]

theorem parser_oneOf (ps : List Expr) :
    (Expr.oneOf ps).parser grammar = Parser.oneOf (ps.map (parser grammar)) := by
  induction ps with
  | nil => rfl
  | cons p ps ih =>
    cases ps with
    | nil =>
      ext s j : 3
      rfl
    | cons q qs =>
      have split : (Expr.oneOf (p :: q :: qs)).parser grammar =
          (p.orElse (.oneOf (q :: qs))).parser grammar := by
        ext s j : 3
        simp only [parser, denote_orElse, denote_oneOf, denoteAll_cons,
          Parser.oneOf_cons _ (List.cons_ne_nil _ _)]
      rw [split, parser_orElse, ih]
      exact (Parser.oneOf_cons _ (List.cons_ne_nil _ _)).symm

theorem map_watched (alternatives : List (Text × Expr)) :
    (watched alternatives).map (parser grammar) =
      Parser.watched (alternatives.map fun a => (a.1, a.2.parser grammar)) := by
  simp only [watched, Parser.watched, List.map_map]
  exact List.map_congr_left fun a _ => parser_spied grammar a.1 a.2

theorem parser_fold (b : Bracketing Expr) :
    (b.fold Expr.orElse).parser grammar = (b.map (parser grammar)).fold Parser.orElse := by
  induction b with
  | single p => rfl
  | either first second ih ih' =>
    rw [Bracketing.fold, parser_orElse, ih, ih']
    rfl

/-- A choice between any number of alternatives is the choice between two of them at a time, under any
brackets, and it is the same whether or not some of them are put together in a choice of their own.  It
tries the alternatives from the cursor where it began, up to the first that matches, whose value and
cursor it has; if there is none, it fails where it began.  What it carries is the merge, in order, of
the failures that the alternatives have carried.  Alternatives that are watched report that each of
these has been tried once, and no other. -/
theorem oneOf_is_ordered_choice :
    (∀ b : Bracketing Expr,
      (oneOf b.alternatives).parser grammar = (b.fold Expr.orElse).parser grammar) ∧
    (∀ (before : List Expr) (p : Expr) (ps after : List Expr),
      (oneOf (before ++ oneOf (p :: ps) :: after)).parser grammar =
        (oneOf (before ++ p :: ps ++ after)).parser grammar) ∧
    (∀ (p : Expr) (ps : List Expr) (s : State) (j : Journal) (reply : Reply Value) (k : Journal),
      ((oneOf (p :: ps)).parser grammar).run s j = (reply, k) ↔
        ∃ tried, Tries s j ((p :: ps).map (parser grammar)) tried reply k) ∧
    (∀ (alternatives : List (Text × Expr)) (s : State) (j : Journal) (reply : Reply Value)
      (k : Journal), alternatives ≠ [] →
        (∀ a ∈ alternatives, ∀ name, (a.2.parser grammar).Obeys (.unwatched name)) →
        ((oneOf (watched alternatives)).parser grammar).run s j = (reply, k) →
        ∃ named, named <+: alternatives ∧
          Tries s j ((watched alternatives).map (parser grammar))
            ((watched named).map (parser grammar)) reply k ∧
          ∀ name, k.attempts name =
            j.attempts name ++ List.replicate ((named.map Prod.fst).count name) s.pos) := by
  refine ⟨fun b => ?_, fun before p ps after => ?_, fun p ps s j reply k => ?_, ?_⟩
  -- Brackets may be moved because alternatives that fail go back to where they began.
  · rw [parser_oneOf, ← Bracketing.alternatives_map, parser_fold]
    refine oneOf_alternatives _ fun q member => ?_
    rw [Bracketing.alternatives_map] at member
    obtain ⟨p, -, rfl⟩ := List.mem_map.1 member
    exact p.rewinds grammar
  · have flat := Parser.oneOf_flatten (before.map (parser grammar)) (after.map (parser grammar))
      (List.cons_ne_nil (p.parser grammar) (ps.map (parser grammar)))
    rw [parser_oneOf, parser_oneOf]
    simpa [parser_oneOf] using flat
  · rw [parser_oneOf]
    exact oneOf_run_iff (List.cons_ne_nil _ _) reply
  · intro alternatives s j reply k nonempty quiet ran
    rw [parser_oneOf, map_watched] at ran
    obtain ⟨tried, tries⟩ := (oneOf_run_iff (by simpa [Parser.watched] using nonempty) reply).1 ran
    have silent : ∀ a ∈ alternatives.map (fun a => (a.1, a.2.parser grammar)), ∀ name,
        a.2.Obeys (.unwatched name) := by
      rw [List.forall_mem_map]
      exact quiet
    obtain ⟨_, initial, rfl, attempts⟩ := tries.attempts_eq silent
    -- What has been tried is a prefix of the parsers, which comes from one of the alternatives.
    obtain ⟨named, isPrefix, rfl⟩ := List.prefix_map_iff.1 initial
    refine ⟨named, isPrefix, ?_, fun name => ?_⟩
    · rwa [map_watched, map_watched]
    · rw [attempts name, List.map_map]
      rfl

/-- A word that is not there, a letter that is, and a run of digits that need not be tried. -/
theorem oneOf_is_ordered_choice_of_words :
    let alternatives := [(text "word", .literal (.ofText (text "ab"))),
      (text "letter", Expr.char (text "a")), (text "digits", .takeWhile CharClass.isDigit)]
    let s : State := ⟨.ofText (text "xad"), 1⟩
    let done := ((oneOf (watched alternatives)).parser []).run s .empty
    alternatives ≠ [] ∧
      (∀ a ∈ alternatives, ∀ name, (a.2.parser []).Obeys (.unwatched name)) ∧
      (∃ named, named <+: alternatives ∧
        Tries s .empty ((watched alternatives).map (parser [])) ((watched named).map (parser []))
          done.1 done.2 ∧
        List.replicate ((named.map Prod.fst).count (text "letter")) 1 = [1] ∧
        List.replicate ((named.map Prod.fst).count (text "digits")) 1 = []) := by
  intro alternatives s done
  have nonempty : alternatives ≠ [] := List.cons_ne_nil _ _
  have quiet : ∀ a ∈ alternatives, ∀ name, (a.2.parser []).Obeys (.unwatched name) := by
    intro a member name
    have steps := (RunProperty.unwatched_markblind name).toCompositional
    simp only [alternatives, List.mem_cons, List.not_mem_nil, or_false] at member
    obtain rfl | rfl | rfl := member
    · exact obeys_map (obeys_literal steps _) Value.piece
    · exact obeys_map (obeys_satisfy steps _) Value.piece
    · exact obeys_map (obeys_takeWhile steps _) Value.piece
  obtain ⟨-, -, -, watch⟩ := oneOf_is_ordered_choice []
  obtain ⟨named, isPrefix, tries, attempts⟩ :=
    watch alternatives s .empty done.1 done.2 nonempty quiet rfl
  have letter : done.2.attempts (text "letter") = [1] := by decide +kernel
  have digits : done.2.attempts (text "digits") = [] := by decide +kernel
  exact ⟨nonempty, quiet, named, isPrefix, tries, (attempts _).symm.trans letter,
    (attempts _).symm.trans digits⟩

end Expr

end Rewind
