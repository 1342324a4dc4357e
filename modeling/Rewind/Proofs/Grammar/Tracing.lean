import Rewind.Proofs.Grammar.Discipline
import Rewind.Proofs.Json.Lockstep
import Rewind.Proofs.Json.Nesting

/-! # Tracing changes no reply

A traced rule reports to the journal and is otherwise the rule itself.  The JSON grammar is built in a
different way when it is to report: some rules are wrapped and some are not, and containers report only
their ends.  Still every rule replies as it does without, as long as neither run comes to the limit on
the nesting, and a grammar that is not to report leaves no message.  What holds of the JSON grammar
holds of all expressions: tracing can be taken out of them. -/

namespace Rewind

open Rewind.Parser

namespace Json

/-! ## The JSON grammar -/

def Dialect.reporting (d : Dialect) (trace : Bool) : Dialect := { d with trace }

namespace Dialect

variable (d : Dialect) (trace : Bool) (b : Buffer)

theorem inStep_quotedString :
    (Pairing.exact b).InStep Eq d.quotedString (d.reporting trace).quotedString := by
  refine inStep_reported d (d.reporting trace) (.of_scripted ?_) _
  exact scripted_bind (Token.scripted_verbatim _) fun _ =>
    scripted_bind d.scripted_stringBody fun _ => scripted_map (Token.scripted_verbatim _) _

theorem inStep_number : (Pairing.exact b).InStep Eq d.number (d.reporting trace).number := by
  refine inStep_reported d (d.reporting trace) (.of_scripted ?_) _
  exact scripted_bind Token.scripted_integer fun _ =>
    scripted_bind (Token.scripted_introduced _) fun _ =>
      scripted_bind (Token.scripted_introduced _) fun _ => d.scripted_assembled _ _ _

theorem alike_reporting : Alike Eq b d (d.reporting trace) where
  whitespace := rfl
  requireEnd := rfl
  strings := d.inStep_quotedString trace b
  numbers := (d.inStep_number trace b).imp fun _ _ same => congrArg Value.ofNumber same

end Dialect

/-- Rules that report and rules that do not have the same replies. -/
theorem Rule.run_reporting (rule : Rule) (d : Dialect) (trace : Bool) (levels : Nat) (s : State)
    (j k : Journal) :
    ((rule.parser d levels).run s j).1 = ((rule.parser (d.reporting trace) levels).run s k).1 :=
  ((d.alike_reporting trace s.input).rule Value.congruence_eq levels rule s.pos j k).eq

/-- Within the limit on the nesting, rules that report and rules that do not have the same replies,
wherever their limits are. -/
theorem Rule.run_reporting_of_withinLimit {rule : Rule} {d : Dialect} {trace : Bool}
    {levels levels' : Nat} {s : State} {j k : Journal}
    (within : WithinLimit ((rule.parser d levels).run s j).2)
    (within' : WithinLimit ((rule.parser (d.reporting trace) levels').run s k).2) :
    ((rule.parser d levels).run s j).1 = ((rule.parser (d.reporting trace) levels').run s k).1 := by
  -- Neither run would reply otherwise under the higher of the two limits.
  let more := max levels levels'
  calc ((rule.parser d levels).run s j).1
      = ((rule.parser d more).run s j).1 :=
        (Rule.run_eq_of_withinLimit (Nat.le_max_left _ _) within j).symm
    _ = ((rule.parser (d.reporting trace) more).run s k).1 := rule.run_reporting d trace more s j k
    _ = ((rule.parser (d.reporting trace) levels').run s k).1 :=
        Rule.run_eq_of_withinLimit (Nat.le_max_right _ _) within' k

end Json

/-! ## Messages -/

namespace Journal

def Quiet (j k : Journal) : Prop :=
  ∃ added, k.events = j.events ++ added ∧ ∀ e ∈ added, e.message? = none

variable {j k l : Journal}

theorem Quiet.refl : j.Quiet j := ⟨[], (List.append_nil _).symm, List.forall_mem_nil _⟩

theorem Quiet.trans (first : j.Quiet k) (second : k.Quiet l) : j.Quiet l := by
  obtain ⟨added, same, quiet⟩ := first
  obtain ⟨more, same', quiet'⟩ := second
  refine ⟨added ++ more, by rw [same', same, List.append_assoc], ?_⟩
  exact List.forall_mem_append.2 ⟨quiet, quiet'⟩

theorem Quiet.record {e : Event} (quiet : e.message? = none) : j.Quiet (j.record e) :=
  ⟨[e], events_record j e, List.forall_mem_singleton.2 quiet⟩

theorem Quiet.upTo (quiet : j.Quiet k) (kept : Nat) : j.Quiet (k.upTo (j.past.length + kept)) := by
  obtain ⟨added, same, unsaid⟩ := quiet
  exact ⟨_, events_upTo same kept, fun e member => unsaid e (List.mem_of_mem_take member)⟩

theorem Quiet.messages_eq (quiet : j.Quiet k) : k.messages = j.messages := by
  obtain ⟨added, same, unsaid⟩ := quiet
  rw [messages, same, List.filterMap_append, List.filterMap_eq_nil_iff.2 unsaid, List.append_nil]
  rfl

end Journal

namespace RunProperty

def silent : RunProperty := fun _ j _ k => j.Quiet k

theorem silent_markblind : silent.Markblind where
  advance _ _ := .refl
  missed _ _ _ := .record rfl
  fault _ given := given
  sequence := .trans
  alternative := .trans
  restart given := given
  rewind given := given
  marked _ _ := (Journal.Quiet.record rfl).trans

end RunProperty

/-- A JSON grammar that is not to report writes no message. -/
theorem Json.Rule.silent {d : Json.Dialect} (untraced : d.trace = false) (rule : Json.Rule)
    (levels : Nat) {stack : Json.Stack} : (rule.parser d levels stack).Obeys RunProperty.silent := by
  have laws := RunProperty.silent_markblind
  have keeps : d.Keeps RunProperty.silent :=
    { laws with
      passing := fun _ _ _ given => given
      unwound := fun kept obeys s j =>
        ((obeys s j).upTo kept).trans
          (Json.Dialect.obeys_tooDeep laws.toCompositional (laws.ignores _) s _)
      reporting := fun traced => by simp [untraced] at traced }
  exact rule.obeys_parser keeps.covers levels

/-! ## Expressions -/

namespace Expr

mutual

/-- The expression with every traced part replaced by the part itself. -/
def untraced : Expr → Expr
  | .map p f => .map p.untraced f
  | .bind p f => .bind p.untraced fun value => (f value).untraced
  | .orElse p q => .orElse p.untraced q.untraced
  | .label p message => .label p.untraced message
  | .optional p => .optional p.untraced
  | .oneOf alternatives => .oneOf (untracedAll alternatives)
  | .zeroOrMore p => .zeroOrMore p.untraced
  | .sepBy separator p => .sepBy separator.untraced p.untraced
  | .traced _ p => p.untraced
  | .spied name p => .spied name p.untraced
  | .deferred number name p depth => .deferred number name p.untraced depth
  | .made p => .made p.untraced
  | .json rule dialect levels stack => .json rule (dialect.reporting false) levels stack
  | p => p

def untracedAll : List Expr → List Expr
  | [] => []
  | p :: ps => p.untraced :: untracedAll ps

end

end Expr

def Grammar.untraced (grammar : Grammar) : Grammar :=
  grammar.map fun rule => (rule.1, rule.2.untraced)

namespace Expr

open Pairing in
mutual

/-- Tracing can be taken out of an expression, and out of what its names refer to. -/
theorem denote_untraced {refs refs' : Text → Parser Value} {b : Buffer}
    (named : ∀ name, (exact b).InStep Eq (refs name) (refs' name)) (p : Expr) :
    (exact b).InStep Eq (p.denote refs) (p.untraced.denote refs') := by
  match p with
  | .pure value => exact .pure rfl
  | .fail expected => exact .fail expected
  | .failWith expected actual => exact .of_scripted (scripted_failWith _ _)
  | .raise cause => exact .raise trivial
  | .take n => exact .of_scripted (scripted_map (scripted_take n) _)
  | .literal expected => exact .of_scripted (scripted_map (scripted_literal _) _)
  | .takeWhile accepts => exact .of_scripted (scripted_map (scripted_takeWhile _) _)
  | .satisfy c => exact .of_scripted (scripted_map (scripted_satisfy _) _)
  | .peek => exact .of_scripted (scripted_map scripted_peek _)
  | .eof => exact .of_scripted (scripted_map scripted_eof _)
  | .map p f => exact (denote_untraced named p).map fun _ _ same => congrArg f same
  | .bind p f =>
    exact (denote_untraced named p).bind fun value _ same => same ▸ denote_untraced named (f value)
  | .orElse p q => exact (denote_untraced named p).orElse (denote_untraced named q)
  | .label p message => exact (denote_untraced named p).label message
  | .optional p =>
    exact (denote_untraced named p).optional.map fun _ _ same => congrArg _ (eq_of_rel_eq same)
  | .oneOf alternatives => exact .oneOf (denoteAll_untraced named alternatives)
  | .zeroOrMore p =>
    refine (denote_untraced named p).zeroOrMore.map fun xs ys same => ?_
    -- Items that are equal one by one make equal lists.
    rw [List.forall₂_eq_eq_eq] at same
    exact congrArg Value.list same
  | .sepBy separator p =>
    refine ((denote_untraced named separator).sepBy (denote_untraced named p)).map fun xs ys same => ?_
    rw [List.forall₂_eq_eq_eq] at same
    exact congrArg Value.list same
  | .trace title => exact .of_reply fun _ _ _ => rfl
  -- Only here is anything left out, and that had written to the journal alone.
  | .traced title p => exact (denote_untraced named p).traced_left title
  | .spied name p => exact (denote_untraced named p).spied name
  | .deferred number name p depth => exact denote_untraced named p
  | .made p => exact denote_untraced named p
  | .ref name => exact named name
  | .json rule d levels stack => exact (d.alike_reporting false b).rule Value.congruence_eq levels rule

theorem denoteAll_untraced {refs refs' : Text → Parser Value} {b : Buffer}
    (named : ∀ name, (exact b).InStep Eq (refs name) (refs' name)) (ps : List Expr) :
    List.Forall₂ ((exact b).InStep Eq) (denoteAll refs ps) (denoteAll refs' (untracedAll ps)) := by
  match ps with
  | [] => exact .nil
  | p :: ps => exact .cons (denote_untraced named p) (denoteAll_untraced named ps)

end

variable (grammar : Grammar)

theorem lookup_untraced (name : Text) :
    grammar.untraced.lookup name = (grammar.lookup name).map untraced := by
  induction grammar with
  | nil => rfl
  | cons rule grammar ih =>
    obtain ⟨title, p⟩ := rule
    show List.lookup name ((title, p.untraced) :: Grammar.untraced grammar) = _
    rw [List.lookup_cons, List.lookup_cons]
    split
    · rfl
    · exact ih

theorem resolve_untraced (b : Buffer) (references : Nat) (name : Text) :
    (Pairing.exact b).InStep Eq (resolve grammar references name)
      (resolve grammar.untraced references name) := by
  induction references generalizing name with
  | zero => exact .raise trivial
  | succ references ih =>
    rw [resolve, resolve, lookup_untraced]
    cases grammar.lookup name with
    | none => exact .raise trivial
    | some p => exact denote_untraced ih p

variable (p : Expr) (s : State) (j k : Journal)

/-- An expression has the replies that it has without its tracing. -/
theorem run_untraced :
    ((p.parser grammar).run s j).1 = ((p.untraced.parser grammar.untraced).run s k).1 := by
  have same : referenceLimit grammar.untraced s = referenceLimit grammar s := by
    rw [referenceLimit, Grammar.untraced, List.length_map, referenceLimit]
  have step := denote_untraced (resolve_untraced grammar s.input (referenceLimit grammar s)) p
  simp only [parser, same]
  exact (step s.pos j k).eq

theorem run_eq_run : ((p.parser grammar).run s j).1 = ((p.parser grammar).run s k).1 :=
  (run_untraced grammar p s j j).trans (run_untraced grammar p s k j).symm

end Expr

/-! ## Reporting the upcoming input -/

/-- An expression has the replies that it has after the upcoming input has been reported. -/
theorem Expr.run_trace_right (grammar : Grammar) (title : Text) (p : Expr) (s : State) (j k : Journal) :
    ((((Expr.trace title).right p).parser grammar).run s j).1 = ((p.parser grammar).run s k).1 := by
  let glimpsed := j.record (.glimpsed title (glimpse s) (hasMore s) s.pos)
  calc ((((Expr.trace title).right p).parser grammar).run s j).1
      = ((p.parser grammar).run s glimpsed).1.after s.pos none := by
        simp only [parser, denote_right]
        rfl
    _ = ((p.parser grammar).run s glimpsed).1 :=
        Reply.after_of_forward (p.obeys_forward grammar s glimpsed)
    _ = ((p.parser grammar).run s k).1 := run_eq_run grammar p s glimpsed k

/-! ## The whole -/

/-- Tracing changes no reply.  Within the limit on the nesting, a rule of the JSON grammar has the same
reply in dialects that differ only in whether they report, and where it does not report, no message is
written.  Any expression has the reply that it has with its traced parts replaced by the parts, and
the reply that it has after the upcoming input has been reported. -/
theorem tracing_changes_no_reply :
    (∀ (rule : Json.Rule) (d : Json.Dialect) (trace : Bool) (levels levels' : Nat) (s : State)
      (j k : Journal), Json.WithinLimit ((rule.parser d levels).run s j).2 →
        Json.WithinLimit ((rule.parser (d.reporting trace) levels').run s k).2 →
        ((rule.parser d levels).run s j).1 =
          ((rule.parser (d.reporting trace) levels').run s k).1) ∧
    (∀ (rule : Json.Rule) (d : Json.Dialect) (levels : Nat) (s : State) (j : Journal),
      d.trace = false → ((rule.parser d levels).run s j).2.messages = j.messages) ∧
    (∀ (grammar : Grammar) (p : Expr) (s : State) (j k : Journal),
      ((p.parser grammar).run s j).1 = ((p.untraced.parser grammar.untraced).run s k).1) ∧
    ∀ (grammar : Grammar) (title : Text) (p : Expr) (s : State) (j k : Journal),
      ((((Expr.trace title).right p).parser grammar).run s j).1 = ((p.parser grammar).run s k).1 := by
  refine ⟨?_, ?_, Expr.run_untraced, Expr.run_trace_right⟩
  · intro rule d trace levels levels' s j k within within'
    exact Json.Rule.run_reporting_of_withinLimit within within'
  · intro rule d levels s j untraced
    exact (rule.silent untraced levels s j).messages_eq

/-- An object that nests two levels deep, from behind a space and under different limits. -/
theorem tracing_changes_no_reply_in_object :
    let source := Buffer.ofText (text "x \x7b\"a\": [1, tru]\x7d")
    let d := Json.Dialect.strict
    Json.WithinLimit ((Json.Rule.document.parser d 3).run ⟨source, 1⟩ .empty).2 ∧
      Json.WithinLimit
        ((Json.Rule.document.parser (d.reporting true) 9).run ⟨source, 1⟩ .empty).2 ∧
      ((Json.Rule.document.parser d 3).run ⟨source, 1⟩ .empty).1 =
        ((Json.Rule.document.parser (d.reporting true) 9).run ⟨source, 1⟩ .empty).1 ∧
      d.trace = false ∧
      ((Json.Rule.document.parser d 3).run ⟨source, 1⟩ .empty).2.messages = [] :=
  ⟨by decide +kernel, by decide +kernel,
    tracing_changes_no_reply.1 .document .strict true 3 9 _ .empty .empty (by decide +kernel)
      (by decide +kernel),
    rfl, tracing_changes_no_reply.2.1 .document .strict 3 _ .empty rfl⟩

end Rewind
