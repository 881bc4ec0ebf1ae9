import PegEngine.Graph.Binding
import PegEngine.Proofs.Graph.Release

/-!
Contract: every graph that comes about is well-formed and coherent.

A graph is empty at first. Nodes are made of live ones, references are bound to rules, and nodes
without an owner are let go of, in any order.

Owns:
- `KeepsNodes`, what every binding walk keeps;
- `Built`, the graphs that come about step by step;
- `Built.sound`, with a lemma for each kind of step.
-/

namespace PegEngine

namespace Graph

/-! ## Binding walks -/

/-- Nodes and the number of cells stay as they are, also on the way to an error. -/
def KeepsNodes {α : Type} (action : WalkM α) : Prop :=
  ∀ walk, match action walk with
    | .ok _ later | .error _ later =>
        later.graph.slots = walk.graph.slots ∧ later.graph.cells.size = walk.graph.cells.size

namespace KeepsNodes

variable {α β : Type}

theorem pure (value : α) : KeepsNodes (Pure.pure value) :=
  fun _ => ⟨rfl, rfl⟩

theorem get : KeepsNodes MonadState.get :=
  fun _ => ⟨rfl, rfl⟩

theorem bind {action : WalkM α} {next : α → WalkM β} (first : KeepsNodes action)
    (rest : ∀ value, KeepsNodes (next value)) : KeepsNodes (action >>= next) := by
  intro walk
  have kept := first walk
  change match EStateM.bind action next walk with
    | .ok _ later | .error _ later => _
  unfold EStateM.bind
  cases ended : action walk with
  | error error later =>
      rw [ended] at kept
      exact kept
  | ok value middle =>
      rw [ended] at kept
      have further := rest value middle
      dsimp only
      cases endedRest : next value middle with
      | ok _ later | error _ later =>
          rw [endedRest] at further
          exact ⟨further.1.trans kept.1, further.2.trans kept.2⟩

theorem forM {visitOne : PatternId → WalkM Unit} (each : ∀ pattern, KeepsNodes (visitOne pattern))
    (patterns : List PatternId) : KeepsNodes (patterns.forM visitOne) := by
  induction patterns with
  | nil => exact pure ()
  | cons first rest inductionHypothesis => exact bind (each first) fun _ => inductionHypothesis

theorem arrive (pattern : PatternId) : KeepsNodes (Graph.arrive pattern) := by
  intro walk
  unfold Graph.arrive
  cases walk.hasVisited pattern <;> exact ⟨rfl, rfl⟩

theorem bindCell (rules : Rules) (path : List PatternId) (name : String) (cell : CellId) :
    KeepsNodes (Graph.bindCell rules path name cell) := by
  intro walk
  unfold Graph.bindCell
  cases rules.lookup name with
  | none => exact ⟨rfl, rfl⟩
  | some rule =>
      cases walk.graph.target? cell with
      | some existing =>
          dsimp only
          by_cases same : existing = rule <;> simp [same]
      | none =>
          cases walk.graph.cell cell with
          | unbound => exact ⟨rfl, Array.size_setIfInBounds⟩
          | strong | weak => exact ⟨rfl, rfl⟩

theorem visit (rules : Rules) (room : Nat) (path : List PatternId) (pattern : PatternId) :
    KeepsNodes (Graph.visit rules room path pattern) := by
  induction room generalizing path pattern with
  | zero => exact pure ()
  | succ room inductionHypothesis =>
      unfold Graph.visit
      refine bind (arrive pattern) fun new => ?_
      cases new with
      | false => exact pure ()
      | true =>
          refine bind get fun walk => ?_
          split
          · refine bind (bindCell rules _ _ _) fun _ => bind get fun later => ?_
            split
            · exact inductionHypothesis _ _
            · exact pure ()
          · exact forM (fun next => inductionHypothesis _ next) _

end KeepsNodes

theorem bind_keepsNodes (graph : Graph) (root : PatternId) (rules : Rules) :
    (graph.bind root rules).2.slots = graph.slots ∧
      (graph.bind root rules).2.cells.size = graph.cells.size := by
  have walked := KeepsNodes.visit rules graph.slots.size [] root (.start graph)
  unfold Graph.bind
  cases ended : Graph.visit rules graph.slots.size [] root (.start graph) with
  | ok _ walk | error _ walk =>
      rw [ended] at walked
      exact walked

theorem node?_bind (graph : Graph) (root : PatternId) (rules : Rules) (pattern : PatternId) :
    (graph.bind root rules).2.node? pattern = graph.node? pattern := by
  unfold node?
  rw [(bind_keepsNodes graph root rules).1]

/-- Binding keeps a graph coherent, also when it ends in an error. -/
theorem Coherent.bind {graph : Graph} (coherent : graph.Coherent) (root : PatternId)
    (rules : Rules) : (graph.bind root rules).2.Coherent := by
  have nodes := node?_bind graph root rules
  refine ⟨fun pattern child member => ?_, fun pattern name cell found => ?_,
    fun pattern other name name' cell found foundOther => ?_⟩
  · rw [kind_congr (nodes pattern)] at member
    rw [isLive_congr (nodes child)]
    exact coherent.children pattern child member
  · rw [kind_congr (nodes pattern)] at found
    rw [(bind_keepsNodes graph root rules).2]
    exact coherent.cellThere pattern name cell found
  · rw [kind_congr (nodes pattern)] at found
    rw [kind_congr (nodes other)] at foundOther
    exact coherent.oneName pattern other name name' cell found foundOther

/-! ## Well-formedness -/

namespace WellFormed

variable {graph : Graph}

theorem empty : ({} : Graph).WellFormed := by
  intro pattern node found
  simp [node?] at found

theorem lt_of_child (wellFormed : graph.WellFormed) {pattern child : PatternId}
    (member : child ∈ (graph.kind pattern).children) : child < pattern := by
  cases found : graph.node? pattern with
  | none =>
      rw [kind_of_node?_eq_none found] at member
      cases member
  | some node =>
      have sameKind : graph.kind pattern = node.kind := by simp [kind, Graph.node, found]
      exact (wellFormed pattern node found).1 child (sameKind ▸ member)

/-- Copies are made after what they are copied from. -/
theorem add_copy (wellFormed : graph.WellFormed) (body : PatternId) {node : Node}
    (same : node.kind = graph.kind body) : (graph.add node).2.WellFormed := by
  cases found : graph.node? body with
  | none =>
      rw [kind_of_node?_eq_none found] at same
      apply wellFormed.add <;> rw [same]
      · exact fun child member => nomatch member
      · exact fun name cell found => nomatch found
  | some original =>
      have sameKind : graph.kind body = original.kind := by simp [kind, Graph.node, found]
      have there := wellFormed body original found
      apply wellFormed.add <;> rw [same, sameKind]
      · exact fun child member => Nat.lt_trans (there.1 child member) (lt_size_of_node? found)
      · exact there.2

theorem addCell (wellFormed : graph.WellFormed) : graph.addCell.2.WellFormed := by
  intro pattern node found
  have there := wellFormed pattern node found
  refine ⟨there.1, fun name cell reference => ?_⟩
  change cell < (graph.cells.push .unbound).size
  rw [Array.size_push]
  exact Nat.lt_succ_of_lt (there.2 name cell reference)

theorem reference (wellFormed : graph.WellFormed) (name : String) :
    (Pattern.reference name graph).2.WellFormed := by
  change (graph.addCell.2.add { kind := .reference name graph.cells.size }).2.WellFormed
  apply wellFormed.addCell.add
  · exact fun child member => nomatch member
  · intro name cell found
    cases found
    simp [Graph.addCell]

theorem bind (wellFormed : graph.WellFormed) (root : PatternId) (rules : Rules) :
    (graph.bind root rules).2.WellFormed := by
  intro pattern node found
  rw [node?_bind] at found
  rw [(bind_keepsNodes graph root rules).2]
  exact wellFormed pattern node found

theorem erase (wellFormed : graph.WellFormed) (erased : PatternId) :
    (graph.erase erased).WellFormed := by
  intro pattern node found
  rw [node?_erase] at found
  split at found
  · cases found
  · exact wellFormed pattern node found

theorem discard (wellFormed : graph.WellFormed) (pattern : PatternId) :
    (graph.discard pattern).WellFormed := by
  unfold Graph.discard
  dsimp only
  split
  · exact wellFormed
  · exact wellFormed.erase pattern

theorem release (wellFormed : graph.WellFormed) (handles : List PatternId) :
    (graph.release handles).WellFormed :=
  release_keeps (fun _ orphan _ wellFormed => wellFormed.erase orphan) wellFormed

end WellFormed

/-- Only nodes with larger numbers can be made of a node, so it is enough to look at those. -/
theorem Coherent.discard {graph : Graph} (coherent : graph.Coherent)
    (wellFormed : graph.WellFormed) (pattern : PatternId) :
    (graph.discard pattern).Coherent := by
  unfold Graph.discard
  dsimp only
  split
  · exact coherent
  · next noOwner =>
      refine coherent.erase fun other member => noOwner ?_
      have later := wellFormed.lt_of_child member
      obtain ⟨node, place, owns⟩ := slot_of_owns (children_subset_owns member)
      refine Array.any_eq_true'.mpr ⟨some node, ?_, by simpa using owns⟩
      obtain ⟨inside, same⟩ := Array.getElem?_eq_some_iff.mp place
      have bound : other - (pattern + 1) <
          min graph.slots.size graph.slots.size - (pattern + 1) := by
        rw [Nat.min_self]
        exact Nat.sub_lt_sub_right later inside
      refine Array.mem_extract_iff_getElem.mpr ⟨other - (pattern + 1), bound, ?_⟩
      simpa [Nat.add_sub_cancel' later] using same

/-! ## Graphs step by step -/

/-- A graph that comes about by building, binding and letting go. -/
inductive Built : Graph → Prop where
  | empty : Built {}
  | ofKind {graph kind} (built : Built graph)
      (children : ∀ child ∈ kind.children, graph.isLive child = true)
      (noReference : ∀ name cell, kind ≠ .reference name cell) :
      Built (Pattern.ofKind kind graph).2
  | reference {graph} (name : String) (built : Built graph) :
      Built (Pattern.reference name graph).2
  | named {graph} (body : PatternId) (name : String) (built : Built graph) :
      Built (Pattern.named body name graph).2
  | traced {graph} (body : PatternId) (options : TraceOptions) (built : Built graph) :
      Built (Pattern.traced body options graph).2
  | bind {graph} (root : PatternId) (rules : Rules) (built : Built graph) :
      Built (graph.bind root rules).2
  | discard {graph} (pattern : PatternId) (built : Built graph) : Built (graph.discard pattern)
  | release {graph} (handles : List PatternId) (built : Built graph) :
      Built (graph.release handles)

namespace Built

variable {graph : Graph}

theorem sound (built : graph.Built) : graph.WellFormed ∧ graph.Coherent := by
  induction built with
  | empty => exact ⟨.empty, .empty⟩
  | ofKind _ children noReference before =>
      refine ⟨before.1.add ?_ ?_, before.2.ofKind children noReference⟩
      · exact fun child member => lt_size_of_isLive (children child member)
      · exact fun name cell found => absurd found (noReference name cell)
  | reference name _ before => exact ⟨before.1.reference name, before.2.reference name⟩
  | named body name _ before => exact ⟨before.1.add_copy body rfl, before.2.named body name⟩
  | traced body options _ before =>
      exact ⟨before.1.add_copy body rfl, before.2.traced body options⟩
  | bind root rules _ before => exact ⟨before.1.bind root rules, before.2.bind root rules⟩
  | discard pattern _ before => exact ⟨before.1.discard pattern, before.2.discard before.1 pattern⟩
  | release handles _ before => exact ⟨before.1.release handles, before.2.release handles⟩

/-- What is spliced in for live items is live, since it is part of them. -/
theorem isLive_of_mem_splice (built : graph.Built) {inner? : Node → Option (List PatternId)}
    (inside : ∀ node items, inner? node = some items → items = node.kind.children)
    {items : List PatternId} (live : ∀ item ∈ items, graph.isLive item = true) :
    ∀ item ∈ Pattern.splice graph inner? items, graph.isLive item = true := by
  intro item member
  obtain ⟨outer, outerMember, among⟩ := List.mem_flatMap.mp member
  cases opened : inner? (graph.node outer) with
  | none =>
      rw [opened] at among
      rw [List.mem_singleton.mp among]
      exact live outer outerMember
  | some parts =>
      rw [opened, inside _ parts opened] at among
      exact built.sound.2.children outer item among

theorem sequence (built : graph.Built) {items : List PatternId}
    (live : ∀ item ∈ items, graph.isLive item = true) :
    (Pattern.sequence items graph).2.Built := by
  refine built.ofKind (built.isLive_of_mem_splice (fun node items opened => ?_) live) ?_
  · unfold Node.sequenceItems? at opened
    split at opened
    · next kind _ _ => rw [kind, ← Option.some.inj opened]; rfl
    · cases opened
  · exact fun name cell same => nomatch same

theorem choice (built : graph.Built) {items : List PatternId}
    (live : ∀ item ∈ items, graph.isLive item = true) :
    (Pattern.choice items graph).2.Built := by
  refine built.ofKind (built.isLive_of_mem_splice (fun node items opened => ?_) live) ?_
  · unfold Node.choiceItems? at opened
    split at opened
    · next kind _ _ => rw [kind, ← Option.some.inj opened]; rfl
    · cases opened
  · exact fun name cell same => nomatch same

end Built

end Graph

end PegEngine
