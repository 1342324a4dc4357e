import Rewind.Proofs.Grammar.Uncached

/-! # Caches

Every cache that is filled holds what its node builds.  For this, lazy nodes that share a number and are
made together have to be one node: `p.Coherent tables` says of an expression that they build what a table
says, one for the whole expression and one for each making around it.

Which makings there have been by now, and what the nodes build that were made in them, is the world of a
run.  A world only grows, as no making has the number of an earlier one.  So what holds of the caches of a
node keeps holding while the run is inside other makings.

If all caches hold what they should, it makes no difference to a run that they are there, except that its
log says which are filled. -/

namespace Rewind

/-! ## What nodes build -/

/-- What lazy nodes build that are made together, by their numbers and names. -/
abbrev Table := Nat → Text → Expr

namespace Expr

mutual

/-- Every lazy node builds what the table of its making says: the first one of `tables` is that of the
whole expression, and the others are those of the makings around it, the innermost last. -/
def Coherent : Expr → List Table → Prop
  | .map p _, tables => Coherent p tables
  | .bind p f, tables => Coherent p tables ∧ ∀ v, Coherent (f v) tables
  | .orElse p q, tables => Coherent p tables ∧ Coherent q tables
  | .label p _, tables => Coherent p tables
  | .optional p, tables => Coherent p tables
  | .oneOf alternatives, tables => AllCoherent alternatives tables
  | .zeroOrMore p, tables => Coherent p tables
  | .sepBy separator p, tables => Coherent separator tables ∧ Coherent p tables
  | .traced _ p, tables => Coherent p tables
  | .spied _ p, tables => Coherent p tables
  | .deferred number name p depth, tables =>
    (∃ table, tables[depth]? = some table ∧ table number name = p) ∧
      Coherent p (tables.take (depth + 1))
  | .made p, tables => ∃ table, Coherent p (tables ++ [table])
  | _, _ => True

def AllCoherent : List Expr → List Table → Prop
  | [], _ => True
  | p :: ps, tables => Coherent p tables ∧ AllCoherent ps tables

end

theorem allCoherent_iff {ps : List Expr} {tables : List Table} :
    AllCoherent ps tables ↔ ∀ p ∈ ps, p.Coherent tables := by
  induction ps with
  | nil => simp [AllCoherent]
  | cons p ps ih => simp [AllCoherent, ih]

theorem Coherent.parts {p : Expr} {tables : List Table} (coherent : p.Coherent tables) :
    p.Parts (Coherent · tables) := by
  cases p with
  | oneOf ps => exact allCoherent_iff.1 coherent
  | _ => trivial

end Expr

/-! ## Worlds -/

/-- The makings that there have been, inside each other, and what their nodes build. -/
abbrev World := List Nat → Option Table

namespace World

def initial (table : Table) : World := fun makings => if makings = [] then some table else none

def Grows (world later : World) : Prop :=
  ∀ makings table, world makings = some table → later makings = some table

theorem Grows.refl (world : World) : world.Grows world := fun _ _ => id

theorem Grows.trans {world later last : World} (first : world.Grows later) (second : later.Grows last) :
    world.Grows last :=
  fun makings table known => second makings table (first makings table known)

def extend (world : World) (makings : List Nat) (table : Table) : World :=
  fun other => if other = makings then some table else world other

theorem extend_self (world : World) (makings : List Nat) (table : Table) :
    world.extend makings table makings = some table := if_pos rfl

theorem extend_of_ne {world : World} {makings other : List Nat} (distinct : other ≠ makings)
    (table : Table) : world.extend makings table other = world other := if_neg distinct

theorem grows_extend {world : World} {makings : List Nat} (new : world makings = none) (table : Table) :
    world.Grows (world.extend makings table) := by
  intro other table' known
  have distinct : other ≠ makings := by
    rintro rfl
    rw [new] at known
    cases known
  rwa [extend_of_ne distinct]

end World

def Node.thunk? (grammar : Grammar) (world : World) : Node → Option Expr
  | .numbered makings number name => (world makings).map fun table => table number name
  | .rule name => grammar.lookup name
  | .values d levels stack => some (.json .value d levels stack)

theorem Node.thunk?_of_grows {grammar : Grammar} {world later : World} (grows : world.Grows later)
    {node : Node} {p : Expr} (builds : node.thunk? grammar world = some p) :
    node.thunk? grammar later = some p := by
  cases node with
  | numbered makings number name =>
    obtain ⟨table, known, rfl⟩ := Option.map_eq_some_iff.1 builds
    rw [Node.thunk?, grows makings table known, Option.map_some]
  | rule name => exact builds
  | values d levels stack => exact builds

namespace Journal

/-- Every filled cache holds what its node builds, and further makings will have new numbers. -/
structure Sound (grammar : Grammar) (world : World) (j : Journal) : Prop where
  holds : ∀ node p, j.content? node = some p → node.thunk? grammar world = some p
  stamped : ∀ makings table, world makings = some table → ∀ making ∈ makings, making < j.makings

variable {grammar : Grammar} {world : World} {j : Journal}

theorem content?_fill (j : Journal) (node other : Node) (p : Expr) :
    (j.fill node p).content? other = if other = node then some p else j.content? other := by
  simp only [content?, fill, List.lookup_cons]
  by_cases same : other = node
  · simp [same]
  · simp [same, beq_eq_false_iff_ne.2 same]

theorem Sound.fill (sound : j.Sound grammar world) {node : Node} {p : Expr}
    (builds : node.thunk? grammar world = some p) : (j.fill node p).Sound grammar world where
  holds other q content := by
    rw [content?_fill] at content
    split at content
    case isTrue same =>
      cases content
      exact same ▸ builds
    case isFalse => exact sound.holds other q content
  stamped := sound.stamped

/-- A making with a new number belongs to the world at once. -/
theorem Sound.making (sound : j.Sound grammar world) {scope : List Nat}
    (inside : ∀ making ∈ scope, making < j.makings) (table : Table) :
    world.Grows (world.extend (scope ++ [j.makings]) table) ∧
      ({ j with makings := j.makings + 1 } : Journal).Sound grammar
        (world.extend (scope ++ [j.makings]) table) := by
  have new : world (scope ++ [j.makings]) = none := by
    cases known : world (scope ++ [j.makings]) with
    | none => rfl
    | some table' =>
      have stamped := sound.stamped _ _ known j.makings (by simp)
      exact absurd stamped (Nat.lt_irrefl _)
  have grows := World.grows_extend new table
  refine ⟨grows, ⟨fun node p content => Node.thunk?_of_grows grows (sound.holds node p content), ?_⟩⟩
  intro makings table' known making member
  rw [World.extend] at known
  split at known
  case isTrue same =>
    subst same
    obtain member | member := List.mem_append.1 member
    · exact Nat.lt_succ_of_lt (inside making member)
    · rw [List.mem_singleton.1 member]
      exact Nat.lt_succ_self _
  case isFalse => exact Nat.lt_succ_of_lt (sound.stamped _ _ known making member)

end Journal

/-! ## Logs -/

def Event.reached? : Event → Option Node
  | .reached node _ => some node
  | _ => none

def reachedIn (past : List Event) : List Node := past.filterMap Event.reached?

/-- Which cache is filled on an event, if one is: that of a node that is attempted for the first time and
has not been known before. -/
def fillings (known : List Node) (past : List Event) (e : Event) : List Event :=
  match e.reached? with
  | some node => if node ∈ known ∨ node ∈ reachedIn past then [] else [.built node]
  | none => []

/-- What has happened, the latest first, and which caches were filled on it. -/
def withBuilds (known : List Node) : List Event → List Event
  | [] => []
  | e :: past => fillings known past e ++ e :: withBuilds known past

theorem Event.reached?_of_node? {e : Event} (other : e.node? = none) : e.reached? = none := by
  cases e with
  | reached node pos => cases other
  | _ => rfl

structure Context where
  world : World
  scope : List Nat
  tables : List Table

/-- The world has the makings that the run is inside of, the whole expression being the first. -/
structure Context.Fits (root : Table) (c : Context) : Prop where
  length : c.tables.length = c.scope.length + 1
  root : c.tables[0]? = some root
  known : ∀ depth table, c.tables[depth]? = some table → c.world (c.scope.take depth) = some table

namespace Context.Fits

variable {root : Table} {c : Context}

/-- Where what a reference names runs. -/
theorem top (fits : c.Fits root) : Context.Fits root ⟨c.world, [], [root]⟩ where
  length := rfl
  root := rfl
  known depth table here := by
    cases depth with
    | zero => exact fits.known 0 table (fits.root.trans here)
    | succ depth => cases here

/-- Where what a lazy node has built runs. -/
theorem take (fits : c.Fits root) {depth : Nat} {table : Table} (found : c.tables[depth]? = some table) :
    Context.Fits root ⟨c.world, c.scope.take depth, c.tables.take (depth + 1)⟩ := by
  have inside := (List.getElem?_eq_some_iff.1 found).1
  have length := fits.length
  refine ⟨by simp only [List.length_take]; omega, by simpa using fits.root, fun i table' here => ?_⟩
  rw [List.getElem?_take] at here
  split at here
  case isTrue before =>
    rw [List.take_take, Nat.min_eq_left (Nat.le_of_lt_succ before)]
    exact fits.known i table' here
  case isFalse => cases here

/-- Where runs what a continuation makes. -/
theorem extend (fits : c.Fits root) {later : World} (grows : c.world.Grows later) (making : Nat)
    (table : Table) :
    Context.Fits root
      ⟨later.extend (c.scope ++ [making]) table, c.scope ++ [making], c.tables ++ [table]⟩ := by
  have length := fits.length
  refine ⟨by simp [length], ?_, fun depth table' here => ?_⟩
  · rw [List.getElem?_append_left (by omega)]
    exact fits.root
  · obtain outer | rfl | beyond := Nat.lt_trichotomy depth c.tables.length
    · rw [List.getElem?_append_left outer] at here
      have shorter : (c.scope.take depth).length < (c.scope ++ [making]).length := by
        simp only [List.length_take, List.length_append, List.length_singleton]
        omega
      have distinct : c.scope.take depth ≠ c.scope ++ [making] := fun same =>
        Nat.ne_of_lt shorter (congrArg List.length same)
      rw [List.take_append_of_le_length (by omega)]
      exact (World.extend_of_ne distinct table).trans (grows _ _ (fits.known depth table' here))
    · rw [List.getElem?_concat_length] at here
      rw [List.take_of_length_le (by simp [length])]
      exact (World.extend_self later _ table).trans here
    · rw [List.getElem?_eq_none (by simp only [List.length_append, List.length_singleton]; omega)]
        at here
      cases here

theorem world_scope (fits : c.Fits root) : ∃ table, c.world c.scope = some table := by
  have inside : c.scope.length < c.tables.length := by
    have length := fits.length
    omega
  have innermost := fits.known c.scope.length _ (List.getElem?_eq_getElem inside)
  rw [List.take_length] at innermost
  exact ⟨_, innermost⟩

end Context.Fits

/-- The first journal is that of a run whose caches hold what they should, and the second one that of the
same run without caches. -/
structure Follows (grammar : Grammar) (known : List Node) (c : Context) (j k : Journal) : Prop where
  scope : j.scope = c.scope
  scope' : k.scope = c.scope
  makings : k.makings = j.makings
  log : j.past = withBuilds known k.past
  unbuilt : ∀ node, .built node ∉ k.past
  filled : ∀ node, (j.content? node).isSome ↔ node ∈ known ∨ node ∈ reachedIn k.past
  sound : ∃ later, c.world.Grows later ∧ j.Sound grammar later

namespace Follows

variable {grammar : Grammar} {known : List Node} {c : Context} {j k : Journal}

theorem unbuilt_record (follows : Follows grammar known c j k) {e : Event}
    (other : ∀ node, e ≠ .built node) (node : Node) : .built node ∉ (k.record e).past := by
  intro built
  obtain same | earlier := List.mem_cons.1 built
  · exact other node same.symm
  · exact follows.unbuilt node earlier

theorem sound_record (follows : Follows grammar known c j k) (e : Event) :
    ∃ later, c.world.Grows later ∧ (j.record e).Sound grammar later := by
  obtain ⟨later, grows, sound⟩ := follows.sound
  exact ⟨later, grows, ⟨sound.holds, sound.stamped⟩⟩

theorem record (follows : Follows grammar known c j k) (e : Event) (other : e.node? = none) :
    Follows grammar known c (j.record e) (k.record e) where
  scope := follows.scope
  scope' := follows.scope'
  makings := follows.makings
  log := by
    simp only [Journal.record, withBuilds, fillings, Event.reached?_of_node? other]
    rw [follows.log, List.nil_append]
  unbuilt := follows.unbuilt_record <| by
    rintro node rfl
    cases other
  filled node := by
    have same : reachedIn (e :: k.past) = reachedIn k.past := by
      simp [reachedIn, Event.reached?_of_node? other]
    simp only [Journal.record, same]
    exact follows.filled node
  sound := follows.sound_record e

theorem sound_content (follows : Follows grammar known c j k) {node : Node} {thunk p : Expr}
    (builds : node.thunk? grammar c.world = some thunk) (content : j.content? node = some p) :
    p = thunk := by
  obtain ⟨later, grows, sound⟩ := follows.sound
  have holds := sound.holds node p content
  rw [Node.thunk?_of_grows grows builds] at holds
  exact (Option.some.inj holds).symm

/-- A node whose cache is filled is attempted. -/
theorem again (follows : Follows grammar known c j k) {node : Node} (full : (j.content? node).isSome)
    (pos : Nat) :
    Follows grammar known c (j.record (.reached node pos)) (k.record (.reached node pos)) where
  scope := follows.scope
  scope' := follows.scope'
  makings := follows.makings
  log := by
    have earlier := (follows.filled node).1 full
    simp only [Journal.record, withBuilds, fillings, Event.reached?, if_pos earlier]
    rw [follows.log, List.nil_append]
  unbuilt := follows.unbuilt_record nofun
  filled other := by
    have earlier := (follows.filled node).1 full
    have reached : reachedIn (.reached node pos :: k.past) = node :: reachedIn k.past := rfl
    simp only [Journal.record, reached, List.mem_cons]
    refine (follows.filled other).trans ⟨fun h => h.imp_right .inr, ?_⟩
    rintro (old | rfl | old)
    · exact .inl old
    · exact earlier
    · exact .inr old
  sound := follows.sound_record _

/-- A node whose cache is empty is attempted, and the cache is filled. -/
theorem fill (follows : Follows grammar known c j k) {node : Node} {thunk : Expr}
    (builds : node.thunk? grammar c.world = some thunk) (empty : j.content? node = none) (pos : Nat) :
    Follows grammar known c ((j.record (.reached node pos)).fill node thunk)
      (k.record (.reached node pos)) where
  scope := follows.scope
  scope' := follows.scope'
  makings := follows.makings
  log := by
    have new : ¬ (node ∈ known ∨ node ∈ reachedIn k.past) := by
      rw [← follows.filled node, empty]
      nofun
    simp only [Journal.fill, Journal.record, withBuilds, fillings, Event.reached?, if_neg new]
    rw [follows.log, List.singleton_append]
  unbuilt := follows.unbuilt_record nofun
  filled other := by
    have reached : reachedIn (.reached node pos :: k.past) = node :: reachedIn k.past := rfl
    simp only [Journal.content?_fill, Journal.record, reached, List.mem_cons]
    by_cases same : other = node
    · simp [same]
    · simp only [same, if_false, false_or]
      exact follows.filled other
  sound := by
    obtain ⟨later, grows, attempted⟩ := follows.sound_record (.reached node pos)
    exact ⟨later, grows, attempted.fill (Node.thunk?_of_grows grows builds)⟩

/-- The run goes on inside of other makings, of which no more has to be known. -/
theorem move (follows : Follows grammar known c j k) {c' : Context} (grows : c'.world.Grows c.world) :
    Follows grammar known c' { j with scope := c'.scope } { k with scope := c'.scope } where
  scope := rfl
  scope' := rfl
  makings := follows.makings
  log := follows.log
  unbuilt := follows.unbuilt
  filled := follows.filled
  sound := by
    obtain ⟨later, grows', sound⟩ := follows.sound
    exact ⟨later, grows.trans grows', ⟨sound.holds, sound.stamped⟩⟩

/-- A continuation makes something. -/
theorem make (follows : Follows grammar known c j k) {root : Table} (fits : c.Fits root) (table : Table) :
    ∃ c' : Context, c'.Fits root ∧ c'.tables = c.tables ++ [table] ∧
      c'.scope = c.scope ++ [j.makings] ∧ c.world.Grows c'.world ∧
      Follows grammar known c' { j with makings := j.makings + 1, scope := c'.scope }
        { k with makings := k.makings + 1, scope := c'.scope } := by
  obtain ⟨later, grows, sound⟩ := follows.sound
  obtain ⟨innermost, here⟩ := fits.world_scope
  obtain ⟨grows', sound'⟩ := sound.making (sound.stamped _ _ (grows _ _ here)) table
  refine ⟨_, fits.extend grows j.makings table, rfl, rfl, grows.trans grows', ?_⟩
  exact
    { scope := rfl
      scope' := rfl
      makings := congrArg (· + 1) follows.makings
      log := follows.log
      unbuilt := follows.unbuilt
      filled := follows.filled
      sound := ⟨_, .refl _, ⟨sound'.holds, sound'.stamped⟩⟩ }

end Follows

/-! ## With caches and without -/

namespace Expr

open Rewind.Parser

variable (grammar : Grammar) (known : List Node)

def following (c : Context) : Relation where
  rel := Follows grammar known c
  lost _ := False
  record := Follows.record

variable {grammar known} {c : Context}

/-- An attempt of a node runs what the node builds, be it in the cache already or not. -/
theorem parallel_cell {node : Node} {thunk : Expr} {called called' : Expr → Parser Value}
    (builds : node.thunk? grammar c.world = some thunk)
    (inner : Parallel (fun _ => True) (following grammar known c) (called thunk) (called' thunk)) :
    Parallel (fun _ => True) (following grammar known c) (.cached node thunk called)
      (.attempting node (called' thunk)) := by
  intro s _ j k follows
  have follows : Follows grammar known c j k := follows
  have untouched : (j.record (.reached node s.pos)).content? node = j.content? node := rfl
  simp only [cached, attempting, untouched]
  cases content : j.content? node with
  | some p =>
    obtain rfl := follows.sound_content builds content
    exact inner s trivial _ _ (follows.again (Option.isSome_of_mem content) s.pos)
  | none => exact inner s trivial _ _ (follows.fill builds content s.pos)

/-- The run goes inside of other makings and comes back. -/
theorem run_inside {p q : Parser Value} {c' : Context} (grows : c.world.Grows c'.world)
    (inner : Parallel (fun _ => True) (following grammar known c') p q) (s : State) {j k : Journal}
    (outer : j.scope = c.scope) (outer' : k.scope = c.scope)
    (follows : Follows grammar known c' { j with scope := c'.scope } { k with scope := c'.scope }) :
    ((p.inside c'.scope).run s j).1 = ((q.inside c'.scope).run s k).1 ∧
      Follows grammar known c ((p.inside c'.scope).run s j).2 ((q.inside c'.scope).run s k).2 := by
  obtain ⟨_, ⟨⟩, _⟩ | ⟨reply, after⟩ := inner s trivial _ _ follows
  have back := Follows.move after grows
  simp only [inside, outer, outer']
  exact ⟨reply, back⟩

theorem parallel_inside_of {p q : Parser Value} {c' : Context}
    (inner : Parallel (fun _ => True) (following grammar known c') p q) (same : c'.world = c.world) :
    Parallel (fun _ => True) (following grammar known c) (p.inside c'.scope) (q.inside c'.scope) := by
  intro s _ j k follows
  have follows : Follows grammar known c j k := follows
  have grows : c'.world.Grows c.world := same ▸ .refl _
  exact .inr (run_inside (same ▸ .refl _) inner s follows.scope follows.scope' (follows.move grows))

/-- What a continuation makes runs in a context of its own, with a further table. -/
theorem parallel_making_of {p q : Parser Value} {root : Table} (fits : c.Fits root) (table : Table)
    (inner : ∀ c' : Context, c'.Fits root → c'.tables = c.tables ++ [table] →
      Parallel (fun _ => True) (following grammar known c') p q) :
    Parallel (fun _ => True) (following grammar known c) p.making q.making := by
  intro s _ j k follows
  have follows : Follows grammar known c j k := follows
  obtain ⟨c', fits', tables, scope, grows, inside⟩ := follows.make fits table
  have here : j.scope ++ [j.makings] = c'.scope := by rw [scope, follows.scope]
  have here' : k.scope ++ [k.makings] = c'.scope := by rw [scope, follows.scope', follows.makings]
  simp only [making, here, here']
  exact .inr (run_inside grows (inner c' fits' tables) s follows.scope follows.scope' inside)

section

variable {root : Table} {called called' : Expr → Parser Value}
  (inner : ∀ {c : Context} (p : Expr), c.Fits root → p.Coherent c.tables →
    Parallel (fun _ => True) (following grammar known c) (called p) (called' p))

include inner

/-- All references to a rule run what the rule is, outside of any making. -/
theorem parallel_rule (rules : ∀ rule ∈ grammar, rule.2.Coherent [root]) (fits : c.Fits root)
    (name : Text) :
    Parallel (fun _ => True) (following grammar known c)
      ((lazyLinks grammar fun node thunk => .cached node thunk called).rule name)
      ((lazyLinks grammar fun node thunk => .attempting node (called' thunk)).rule name) := by
  simp only [lazyLinks]
  cases found : grammar.lookup name with
  | none => exact .of_scripted (scripted_raise _)
  | some p =>
    have member : (name, p) ∈ grammar := by
      obtain ⟨before, after, rfl, -⟩ := List.lookup_eq_some_iff.1 found
      simp
    have builds : (Node.rule name).thunk? grammar c.world = some p := found
    have cell := parallel_cell (c := ⟨c.world, [], [root]⟩) builds (inner p fits.top (rules _ member))
    exact parallel_inside_of cell rfl

/-- What a lazy node builds runs inside of the makings that the node was made in. -/
theorem parallel_lazily (fits : c.Fits root) {number : Nat} {name : Text} {p : Expr} {depth : Nat}
    (coherent : (deferred number name p depth).Coherent c.tables) (q q' : Parser Value) :
    Parallel (fun _ => True) (following grammar known c)
      ((lazyLinks grammar fun node thunk => .cached node thunk called).lazily number name p depth q)
      ((lazyLinks grammar fun node thunk => .attempting node (called' thunk)).lazily number name p depth
        q') := by
  obtain ⟨⟨table, found, builds⟩, coherent⟩ := coherent
  have builds : (Node.numbered (c.scope.take depth) number name).thunk? grammar c.world = some p := by
    rw [Node.thunk?, fits.known depth table found, Option.map_some, builds]
  have cell := parallel_cell (c := ⟨c.world, c.scope.take depth, c.tables.take (depth + 1)⟩) builds
    (inner p (fits.take found) coherent)
  intro s _ j k follows
  have follows : Follows grammar known c j k := follows
  -- Which makings those are is read off the journal, so that the node depends on the scope.
  simp only [lazyLinks, follows.scope, follows.scope']
  exact parallel_inside_of (c := c) cell rfl s trivial j k follows

theorem paired_following (rules : ∀ rule ∈ grammar, rule.2.Coherent [root]) :
    Paired (fun _ => True) (following grammar known) (fun c p => c.Fits root ∧ p.Coherent c.tables)
      (lazyLinks grammar fun node thunk => .cached node thunk called)
      (lazyLinks grammar fun node thunk => .attempting node (called' thunk)) where
  parts {c p} both := by
    have parts := both.2.parts
    cases p <;> simp_all [Parts]
  stays _ := stays_everywhere _
  rule both := parallel_rule inner rules both.1 _
  lazily both _ := parallel_lazily inner both.1 both.2 _ _
  making {c p} both inner := by
    obtain ⟨fits, table, coherent⟩ := both
    refine parallel_making_of fits table fun c' fits' tables => inner c' ⟨fits', ?_⟩
    rwa [tables]
  json {c rule d levels stack} both := by
    by_cases pair : rule = .keyValuePair
    · subst pair
      have value : Node.thunk? grammar c.world (.values d levels stack) =
        some (.json .value d levels stack) := rfl
      exact (d.parallel_entry (parallel_cell value (inner _ both.1 trivial))).map _
    · rw [lazyLinks_json _ _ pair, lazyLinks_json _ _ pair]
      exact .of_scripted (rule.scripted d levels)

end

/-- As long as every node builds what its table says, an expression at work runs as it does without
caches. -/
theorem live_parallel {root : Table} (rules : ∀ rule ∈ grammar, rule.2.Coherent [root]) (depth : Nat)
    (p : Expr) (fits : c.Fits root) (coherent : p.Coherent c.tables) :
    Parallel (fun _ => True) (following grammar known c) (live grammar depth p)
      (uncached grammar depth p) := by
  induction depth generalizing p c with
  | zero => exact .of_scripted (scripted_raise _)
  | succ depth ih =>
    exact (paired_following (fun p fits coherent => ih p fits coherent) rules).denoteWith p ⟨fits, coherent⟩

end Expr

/-! ## From run to run -/

namespace Journal

/-- The caches of the nodes that are made once hold what these build. -/
def Holds (grammar : Grammar) (table : Table) (j : Journal) : Prop :=
  ∀ node p, node.isLasting = true → j.content? node = some p →
    node.thunk? grammar (.initial table) = some p

def nodes (j : Journal) : List Node := j.filled.map Prod.fst

theorem isSome_content? (j : Journal) (node : Node) : (j.content? node).isSome ↔ node ∈ j.nodes := by
  rw [content?, nodes]
  induction j.filled with
  | nil => simp
  | cons cell cells ih =>
    obtain ⟨other, p⟩ := cell
    by_cases same : node = other
    · simp [same]
    · simp [List.lookup_cons, beq_eq_false_iff_ne.2 same, same, ih]

theorem content?_turnPage (j : Journal) (node : Node) :
    j.turnPage.content? node = if node.isLasting then j.content? node else none := by
  simp only [content?, turnPage]
  induction j.filled with
  | nil => exact (ite_self _).symm
  | cons cell cells ih =>
    obtain ⟨other, p⟩ := cell
    rw [List.filter_cons, List.lookup_cons]
    by_cases same : node = other
    · subst same
      by_cases lasting : node.isLasting = true
      · simp [lasting]
      · simpa [lasting] using ih
    · rw [beq_eq_false_iff_ne.2 same]
      split
      · rw [List.lookup_cons, beq_eq_false_iff_ne.2 same]
        exact ih
      · exact ih

variable {grammar : Grammar} {table : Table} {j : Journal}

/-- A run begins with the caches that earlier runs have filled. -/
theorem Holds.follows (holds : j.Holds grammar table) :
    Follows grammar j.turnPage.nodes ⟨.initial table, [], [table]⟩ j.turnPage .empty where
  scope := rfl
  scope' := rfl
  makings := rfl
  log := rfl
  unbuilt _ := List.not_mem_nil
  filled node := by
    rw [isSome_content?]
    exact ⟨.inl, fun known => known.elim id nofun⟩
  sound := by
    refine ⟨_, .refl _, fun node p content => ?_, fun makings table' known making member => ?_⟩
    · rw [content?_turnPage] at content
      split at content
      case isTrue lasting => exact holds node p lasting content
      case isFalse => cases content
    · simp only [World.initial] at known
      split at known
      case isTrue whole =>
        subst whole
        cases member
      case isFalse => cases known

end Journal

namespace Expr

variable {grammar : Grammar} {table : Table} {p : Expr}

/-- Any run of an expression at work, by the side of the run without caches. -/
theorem live_run (rules : ∀ rule ∈ grammar, rule.2.Coherent [table]) (coherent : p.Coherent [table])
    (depth : Nat) (s : State) {j : Journal} (holds : j.Holds grammar table) :
    ((p.live grammar depth).run s j.turnPage).1 = ((uncached grammar depth p).run s .empty).1 ∧
      Follows grammar j.turnPage.nodes ⟨.initial table, [], [table]⟩
        ((p.live grammar depth).run s j.turnPage).2 ((uncached grammar depth p).run s .empty).2 := by
  have fits : Context.Fits table ⟨.initial table, [], [table]⟩ := by
    refine ⟨rfl, rfl, fun depth table' here => ?_⟩
    cases depth with
    | zero =>
      cases here
      rfl
    | succ depth => cases here
  obtain ⟨_, ⟨⟩, _⟩ | both :=
    live_parallel rules depth p fits coherent s trivial _ _ holds.follows
  exact both

end Expr

end Rewind
