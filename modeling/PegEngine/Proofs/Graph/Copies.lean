import PegEngine.Proofs.Graph.Binding
import PegEngine.Proofs.Matching.Tracing

/-!
Contract: copies of patterns that differ in their trace options.

A copy owns what the pattern owns, so all that the pattern comes to is still there when the copy
takes its place, except for rules that are bound weakly and held by nothing else.

Owns:
- `Grown`, a graph to which nodes were added, and `CopyOf`;
- `Traceable`, what a pattern must be like for its trace options not to matter;
- `KeepsRules`, that all rules that are bound weakly are held, and `CopyOf.matchIn_agrees`;
- `keepsRules_of_bound`, for grammars that were bound.
-/

namespace PegEngine

namespace Graph

/-- Nodes may have been added, and nothing else has changed. -/
structure Grown (graph later : Graph) : Prop where
  nodes : ∀ pattern, pattern < graph.slots.size → later.node? pattern = graph.node? pattern
  size : graph.slots.size ≤ later.slots.size
  cells : later.cells = graph.cells

namespace Grown

variable {graph middle later : Graph}

theorem refl (graph : Graph) : graph.Grown graph :=
  ⟨fun _ _ => rfl, Nat.le_refl _, rfl⟩

theorem trans (first : graph.Grown middle) (second : middle.Grown later) : graph.Grown later where
  nodes pattern inside := by
    rw [second.nodes pattern (Nat.lt_of_lt_of_le inside first.size), first.nodes pattern inside]
  size := Nat.le_trans first.size second.size
  cells := second.cells.trans first.cells

theorem add (graph : Graph) (node : Node) : graph.Grown (graph.add node).2 where
  nodes _ inside := node?_add_of_lt graph node inside
  size := by simp [Graph.add]
  cells := rfl

theorem cell (grown : graph.Grown later) (cell : CellId) : later.cell cell = graph.cell cell := by
  unfold Graph.cell
  rw [grown.cells]

end Grown

/-- A copy of a pattern in a later graph. It may have other trace options. -/
structure CopyOf (graph later : Graph) (pattern copy : PatternId) : Prop where
  inside : copy < later.slots.size
  kind : later.kind copy = graph.kind pattern
  name : later.name? copy = graph.name? pattern

namespace CopyOf

variable {graph middle later : Graph} {pattern copy : PatternId}

/-- A pattern is a copy of itself. -/
theorem self (grown : graph.Grown later) (inside : pattern < graph.slots.size) :
    CopyOf graph later pattern pattern where
  inside := Nat.lt_of_lt_of_le inside grown.size
  kind := kind_congr (grown.nodes pattern inside)
  name := by
    unfold name? Graph.node
    rw [grown.nodes pattern inside]

theorem grown (copied : CopyOf graph middle pattern copy) (grown : middle.Grown later) :
    CopyOf graph later pattern copy where
  inside := Nat.lt_of_lt_of_le copied.inside grown.size
  kind := (kind_congr (grown.nodes copy copied.inside)).trans copied.kind
  name := by
    rw [← copied.name]
    unfold name? Graph.node
    rw [grown.nodes copy copied.inside]

theorem traced (grown : graph.Grown middle) (inside : pattern < graph.slots.size)
    (options : TraceOptions) :
    CopyOf graph (Pattern.traced pattern options middle).2 pattern
      (Pattern.traced pattern options middle).1 := by
  have added : (Pattern.traced pattern options middle).2.node
      (Pattern.traced pattern options middle).1 = { middle.node pattern with trace := options } :=
    congrArg (·.getD Node.absent) (node?_add_self middle _)
  have same := CopyOf.self grown inside
  refine ⟨?_, (congrArg Node.kind added).trans same.kind,
    (congrArg Node.name added).trans same.name⟩
  simp [Pattern.traced, Graph.add]

end CopyOf

/-- What the pattern comes to lies in the graph. Its callbacks match only patterns that they keep,
and do not go by the trace options in effect. -/
structure Traceable (graph : Graph) (root : PatternId) : Prop where
  inside : ∀ pattern, graph.Reaches root pattern → pattern < graph.slots.size
  keeps : ∀ pattern callback, graph.Reaches root pattern →
    graph.kind pattern = .function callback → ∀ text i next,
      (callback.program text i).Runs next → next ∈ callback.patterns
  blind : ∀ pattern callback, graph.Reaches root pattern →
    graph.kind pattern = .function callback → ∀ text i, (callback.program text i).Blind

/-- With other trace options a traceable pattern is a copy. -/
theorem Traceable.copyOf_traced {graph : Graph} {root : PatternId}
    (traceable : graph.Traceable root) (options : TraceOptions) :
    CopyOf graph (Pattern.traced root options graph).2 root
      (Pattern.traced root options graph).1 :=
  .traced (.refl graph) (traceable.inside root .refl) options

/-- In the later graph the handles hold the rules that references below the root are bound to
weakly. -/
def KeepsRules (graph later : Graph) (handles : List PatternId) (root : PatternId) : Prop :=
  ∀ pattern name cell rule, graph.Reaches root pattern →
    graph.kind pattern = .reference name cell → graph.cell cell = .weak rule →
      later.Held handles rule

section Holding

variable {graph later : Graph} {handles : List PatternId}
  {root copy pattern holder next : PatternId}

theorem Held.tail (held : graph.Held handles holder) (owns : graph.Owns holder next) :
    graph.Held handles next := by
  obtain ⟨handle, member, reaches⟩ := held
  exact ⟨handle, member, reaches.tail owns⟩

theorem held_of_mem (member : pattern ∈ handles) : graph.Held handles pattern :=
  ⟨pattern, member, .refl⟩

/-- Whatever holds a node of the same kind holds what the pattern leads to strongly. -/
theorem held_of_leadsStrongly (grown : graph.Grown later) (held : later.Held handles holder)
    (kind : later.kind holder = graph.kind pattern) (leads : graph.LeadsStrongly pattern next) :
    later.Held handles next := by
  refine held.tail (owns_of_leadsStrongly ?_)
  rcases leads with child | ⟨name, cell, reference, bound⟩
  · exact Or.inl (kind ▸ child)
  · exact Or.inr ⟨name, cell, kind.trans reference, (grown.cell cell).trans bound⟩

/-- Whatever holds a node of the same kind holds what the pattern calls. -/
theorem held_of_calls (grown : graph.Grown later) (traceable : graph.Traceable root)
    (rules : graph.KeepsRules later handles root) (reached : graph.Reaches root pattern)
    (held : later.Held handles holder) (kind : later.kind holder = graph.kind pattern)
    (step : graph.Calls pattern next) : later.Held handles next := by
  rcases step with (child | ⟨name, cell, reference, content⟩) | ⟨callback, text, i, function, runs⟩
  · exact held_of_leadsStrongly grown held kind (Or.inl child)
  · cases bound : graph.cell cell with
    | unbound =>
        rw [bound] at content
        cases content
    | weak rule =>
        rw [bound] at content
        cases content
        exact rules pattern name cell next reached reference bound
    | strong rule =>
        rw [bound] at content
        cases content
        exact held_of_leadsStrongly grown held kind (Or.inr ⟨name, cell, reference, bound⟩)
  · refine held.tail ?_
    have keeps := traceable.keeps pattern callback reached function text i next runs
    have sameKind : (later.node holder).kind = .function callback := kind.trans function
    unfold Owns ownedByNode
    rw [sameKind]
    exact keeps

/-- What each step keeps held is held after any number of steps from the root. -/
theorem held_of_transGen {step : PatternId → PatternId → Prop} (grown : graph.Grown later)
    (traceable : graph.Traceable root) (copied : CopyOf graph later root copy)
    (member : copy ∈ handles)
    (each : ∀ {pattern next holder}, graph.Reaches root pattern → later.Held handles holder →
      later.kind holder = graph.kind pattern → step pattern next →
        graph.Calls pattern next ∧ later.Held handles next)
    (steps : Relation.TransGen step root pattern) :
    graph.Reaches root pattern ∧ later.Held handles pattern := by
  induction steps with
  | single first =>
      obtain ⟨calls, held⟩ := each .refl (held_of_mem member) copied.kind first
      exact ⟨.single calls, held⟩
  | tail _ last inductionHypothesis =>
      obtain ⟨reached, heldBefore⟩ := inductionHypothesis
      have same := CopyOf.self grown (traceable.inside _ reached)
      obtain ⟨calls, held⟩ := each reached heldBefore same.kind last
      exact ⟨reached.tail calls, held⟩

/-- The copy of a root holds all rules that the root leads to strongly, other than the root. -/
theorem keepsRules_of_leadsStrongly (grown : graph.Grown later) (traceable : graph.Traceable root)
    (copied : CopyOf graph later root copy) (member : copy ∈ handles)
    (strong : ∀ pattern name cell rule, graph.Reaches root pattern →
      graph.kind pattern = .reference name cell → graph.cell cell = .weak rule →
        Relation.ReflTransGen graph.LeadsStrongly root rule)
    (rootHeld : ∀ pattern name cell, graph.Reaches root pattern →
      graph.kind pattern = .reference name cell → graph.cell cell = .weak root →
        later.Held handles root) :
    graph.KeepsRules later handles root := by
  intro pattern name cell rule reached reference bound
  rcases Relation.reflTransGen_iff_eq_or_transGen.mp
    (strong pattern name cell rule reached reference bound) with same | steps
  · -- The copy owns what the root owns, but not the root.
    subst same
    exact rootHeld pattern name cell reached reference bound
  · refine (held_of_transGen grown traceable copied member (fun _ held kind leads => ?_) steps).2
    exact ⟨Or.inl leads.leads, held_of_leadsStrongly grown held kind leads⟩

end Holding

section Release

variable {graph later : Graph} {handles : List PatternId} {root copy : PatternId}

/-- After a release a pattern that holds a node of the same kind is a copy still. -/
theorem alike_of_held (grown : graph.Grown later) (traceable : graph.Traceable root)
    (kept : ∀ next, Relation.TransGen graph.Calls root next → later.Held handles next)
    {pattern holder : PatternId} (reached : graph.Reaches root pattern)
    (held : later.Held handles holder) (copied : CopyOf graph later pattern holder) :
    graph.Alike (later.release handles) (Relation.TransGen graph.Calls root) pattern holder := by
  have sameNode := node?_release_of_held held
  refine ⟨(kind_congr sameNode).trans copied.kind, ?_, fun name cell reference => ?_,
    fun callback function => traceable.blind pattern callback reached function,
    fun next step => Relation.TransGen.tail' reached step⟩
  · rw [← copied.name]
    unfold name? Graph.node
    rw [sameNode]
  · have sameCell : (later.release handles).cell cell = graph.cell cell := by
      unfold Graph.cell
      rw [cells_release, grown.cells]
    unfold target?
    rw [sameCell]
    cases bound : graph.cell cell with
    | unbound | strong rule => rfl
    | weak rule =>
        have leads : graph.Leads pattern rule :=
          Or.inr ⟨name, cell, reference, congrArg Cell.rule? bound⟩
        have step := Relation.TransGen.tail' reached (Or.inl leads)
        have inside := traceable.inside rule step.to_reflTransGen
        have sameRule := (node?_release_of_held (kept rule step)).trans (grown.nodes rule inside)
        simp only [isLive_congr sameRule]

/-- A copy that takes the place of a pattern comes to the same patterns. -/
theorem CopyOf.alike (copied : CopyOf graph later root copy) (grown : graph.Grown later)
    (traceable : graph.Traceable root) (rules : graph.KeepsRules later handles root)
    (member : copy ∈ handles) :
    (∀ pattern, Relation.TransGen graph.Calls root pattern → graph.Alike (later.release handles)
      (Relation.TransGen graph.Calls root) pattern pattern) ∧
    graph.Alike (later.release handles) (Relation.TransGen graph.Calls root) root copy := by
  have kept : ∀ next, Relation.TransGen graph.Calls root next → later.Held handles next := by
    intro next steps
    refine (held_of_transGen grown traceable copied member (fun reached held kind step => ?_)
      steps).2
    exact ⟨step, held_of_calls grown traceable rules reached held kind step⟩
  refine ⟨fun pattern steps => ?_, alike_of_held grown traceable kept .refl (held_of_mem member)
    copied⟩
  have reached := steps.to_reflTransGen
  exact alike_of_held grown traceable kept reached (kept pattern steps)
    (.self grown (traceable.inside pattern reached))

/-- A copy that takes the place of a pattern matches as the pattern did. -/
theorem CopyOf.matchIn_agrees (copied : CopyOf graph later root copy) (grown : graph.Grown later)
    (traceable : graph.Traceable root) (rules : graph.KeepsRules later handles root)
    (member : copy ∈ handles) (input : Input) (index : Nat) (context : Context) :
    (graph.matchIn root input index context).Agrees
      ((later.release handles).matchIn copy input index context) := by
  obtain ⟨alike, alikeRoot⟩ := copied.alike grown traceable rules member
  exact matchIn_alike alike alikeRoot ⟨rfl, rfl, rfl⟩ input index

end Release

/-! ## Bound grammars -/

/-- The callbacks of a grammar match no patterns, and do not go by the trace options in effect. -/
def PlainCallbacks (graph : Graph) (rules : Rules) (root : PatternId) : Prop :=
  ∀ pattern callback, graph.Grammar rules root pattern → graph.kind pattern = .function callback →
    ∀ text i, (callback.program text i).Blind ∧ ∀ next, ¬ (callback.program text i).Runs next

section Bound

variable {start later : Graph} {rules : Rules} {root : PatternId} {walk : Walk}

/-- The walk that bound a grammar has come by all that its root comes to. -/
theorem seen_of_reaches (invariant : Walk.Invariant start rules root [] walk)
    (seen : walk.Seen root) (plain : start.PlainCallbacks rules root) {pattern : PatternId}
    (reached : walk.graph.Reaches root pattern) : walk.Seen pattern := by
  induction reached with
  | refl => exact seen
  | tail _ step seenBefore =>
      rcases step with leads | ⟨callback, text, i, function, runs⟩
      · exact (invariant.finished _ seenBefore List.not_mem_nil).leads _ leads
      · rw [invariant.kind] at function
        have quiet := (plain _ callback (invariant.grammar _ seenBefore) function text i).2
        exact absurd runs (quiet _)

theorem grammar_of_reaches (invariant : Walk.Invariant start rules root [] walk)
    (seen : walk.Seen root) (plain : start.PlainCallbacks rules root) {pattern : PatternId}
    (reached : walk.graph.Reaches root pattern) : start.Grammar rules root pattern :=
  invariant.grammar pattern (seen_of_reaches invariant seen plain reached)

theorem traceable_of_bound (bindable : start.Bindable rules root)
    (invariant : Walk.Invariant start rules root [] walk) (seen : walk.Seen root)
    (plain : start.PlainCallbacks rules root) : walk.graph.Traceable root := by
  have inGrammar := @grammar_of_reaches start rules root walk invariant seen plain
  refine ⟨fun pattern reached => ?_, fun pattern callback reached function text i next runs => ?_,
    fun pattern callback reached function text i => ?_⟩
  · rw [invariant.slots]
    exact lt_size_of_isLive (bindable.live (inGrammar reached))
  · rw [invariant.kind] at function
    exact absurd runs ((plain pattern callback (inGrammar reached) function text i).2 next)
  · rw [invariant.kind] at function
    exact (plain pattern callback (inGrammar reached) function text i).1

/-- In a bound grammar only the root itself can be lost when a copy takes its place. -/
theorem keepsRules_of_bound {handles : List PatternId} {copy : PatternId}
    (bindable : start.Bindable rules root)
    (invariant : Walk.Invariant start rules root [] walk) (seen : walk.Seen root)
    (plain : start.PlainCallbacks rules root) (grown : walk.graph.Grown later)
    (copied : CopyOf walk.graph later root copy) (member : copy ∈ handles)
    (rootHeld : ∀ pattern name cell, start.Grammar rules root pattern →
      start.kind pattern = .reference name cell → walk.graph.cell cell = .weak root →
        later.Held handles root) :
    walk.graph.KeepsRules later handles root := by
  have inGrammar := @grammar_of_reaches start rules root walk invariant seen plain
  refine keepsRules_of_leadsStrongly grown (traceable_of_bound bindable invariant seen plain)
    copied member (fun pattern name cell rule reached reference weak => ?_)
    fun pattern name cell reached reference weak => ?_
  · rw [invariant.kind] at reference
    exact invariant.strong rule
      (invariant.weak pattern name cell rule (inGrammar reached) reference weak)
  · rw [invariant.kind] at reference
    exact rootHeld pattern name cell (inGrammar reached) reference weak

end Bound

end Graph

end PegEngine
