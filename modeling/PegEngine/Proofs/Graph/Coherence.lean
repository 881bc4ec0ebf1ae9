import PegEngine.Pattern.Build

/-!
Contract: what holds of every graph that is put together by the builders.

Sub-patterns of live nodes are live, references have cells, and references that share a cell share
the name that they look up, since only copies of a reference share its cell.
-/

namespace PegEngine

/-- The name that a reference looks up, and its cell. -/
def Kind.reference? : Kind → Option (String × CellId)
  | .reference name cell => some (name, cell)
  | _ => none

namespace Graph

structure Coherent (graph : Graph) : Prop where
  children : ∀ pattern, ∀ child ∈ (graph.kind pattern).children, graph.isLive child = true
  cellThere : ∀ pattern name cell, graph.kind pattern = .reference name cell →
    cell < graph.cells.size
  /-- References that share a cell look up the same name. -/
  oneName : ∀ pattern other name name' cell, graph.kind pattern = .reference name cell →
    graph.kind other = .reference name' cell → name = name'

theorem kind_of_node?_eq_none {graph : Graph} {pattern : PatternId}
    (gone : graph.node? pattern = none) : graph.kind pattern = .constant false := by
  simp [kind, Graph.node, gone, Node.absent]

theorem kind_congr {graph other : Graph} {pattern : PatternId}
    (same : graph.node? pattern = other.node? pattern) :
    graph.kind pattern = other.kind pattern := by
  simp [kind, Graph.node, same]

theorem isLive_congr {graph other : Graph} {pattern : PatternId}
    (same : graph.node? pattern = other.node? pattern) :
    graph.isLive pattern = other.isLive pattern := by
  simp [isLive, same]

theorem lt_size_of_isLive {graph : Graph} {pattern : PatternId}
    (live : graph.isLive pattern = true) : pattern < graph.slots.size := by
  obtain ⟨node, found⟩ := Option.isSome_iff_exists.mp live
  exact lt_size_of_node? found

/-- A pattern that is not the absent one is live. -/
theorem isLive_of_kind {graph : Graph} {pattern : PatternId}
    (there : graph.kind pattern ≠ .constant false) : graph.isLive pattern = true := by
  unfold isLive
  cases found : graph.node? pattern with
  | none => exact absurd (kind_of_node?_eq_none found) there
  | some node => rfl

theorem node?_add (graph : Graph) (node : Node) (pattern : PatternId) :
    (graph.add node).2.node? pattern =
      if pattern = graph.slots.size then some node else graph.node? pattern := by
  by_cases fresh : pattern = graph.slots.size
  · rw [if_pos fresh, fresh]
    exact node?_add_self graph node
  · rw [if_neg fresh]
    simp [add, node?, Array.getElem?_push, fresh]

theorem isLive_add {graph : Graph} {pattern : PatternId} (live : graph.isLive pattern = true)
    (node : Node) : (graph.add node).2.isLive pattern = true := by
  unfold isLive at live ⊢
  rw [node?_add]
  split
  · rfl
  · exact live

namespace Coherent

variable {graph : Graph}

theorem empty : ({} : Graph).Coherent where
  children pattern child member := by
    rw [kind_of_node?_eq_none (by simp [node?])] at member
    cases member
  cellThere pattern name cell found := by
    rw [kind_of_node?_eq_none (by simp [node?])] at found
    cases found
  oneName pattern other name name' cell found := by
    rw [kind_of_node?_eq_none (by simp [node?])] at found
    cases found

/-- A graph stays coherent when a node is added whose sub-patterns are live and whose cell, if it
has one, is there under its name. -/
theorem add (coherent : graph.Coherent) {node : Node}
    (children : ∀ child ∈ node.kind.children, graph.isLive child = true)
    (cellThere : ∀ name cell, node.kind = .reference name cell → cell < graph.cells.size)
    (oneName : ∀ name cell, node.kind = .reference name cell → ∀ other name',
      graph.kind other = .reference name' cell → name = name') :
    (graph.add node).2.Coherent := by
  have kinds : ∀ pattern, (graph.add node).2.kind pattern =
      if pattern = graph.slots.size then node.kind else graph.kind pattern := by
    intro pattern
    unfold kind Graph.node
    rw [node?_add]
    split <;> rfl
  refine ⟨fun pattern child member => ?_, fun pattern name cell found => ?_,
    fun pattern other name name' cell found foundOther => ?_⟩
  · rw [kinds] at member
    split at member
    · exact isLive_add (children child member) node
    · exact isLive_add (coherent.children pattern child member) node
  · rw [kinds] at found
    split at found
    · exact cellThere name cell found
    · exact coherent.cellThere pattern name cell found
  · rw [kinds] at found foundOther
    split at found <;> split at foundOther
    · rw [found] at foundOther
      cases foundOther
      rfl
    · exact oneName name cell found other name' foundOther
    · exact (oneName name' cell foundOther pattern name found).symm
    · exact coherent.oneName pattern other name name' cell found foundOther

/-- Copies share the cell of a reference together with its name. -/
theorem add_copy (coherent : graph.Coherent) (body : PatternId) {node : Node}
    (same : node.kind = graph.kind body) : (graph.add node).2.Coherent := by
  apply coherent.add
  · rw [same]
    exact coherent.children body
  · rw [same]
    exact coherent.cellThere body
  · rw [same]
    exact fun name cell found other name' => coherent.oneName body other name name' cell found

theorem named (coherent : graph.Coherent) (body : PatternId) (name : String) :
    (Pattern.named body name graph).2.Coherent :=
  coherent.add_copy body rfl

theorem traced (coherent : graph.Coherent) (body : PatternId) (options : TraceOptions) :
    (Pattern.traced body options graph).2.Coherent :=
  coherent.add_copy body rfl

theorem ofKind (coherent : graph.Coherent) {kind : Kind}
    (children : ∀ child ∈ kind.children, graph.isLive child = true)
    (noReference : ∀ name cell, kind ≠ .reference name cell) :
    (Pattern.ofKind kind graph).2.Coherent :=
  coherent.add children (fun name cell found => absurd found (noReference name cell))
    fun name cell found => absurd found (noReference name cell)

theorem addCell (coherent : graph.Coherent) : graph.addCell.2.Coherent where
  children := coherent.children
  cellThere pattern name cell found := by
    have there := coherent.cellThere pattern name cell found
    change cell < (graph.cells.push .unbound).size
    rw [Array.size_push]
    exact Nat.lt_succ_of_lt there
  oneName := coherent.oneName

/-- The cell of a new reference is its own. -/
theorem reference (coherent : graph.Coherent) (name : String) :
    (Pattern.reference name graph).2.Coherent := by
  change (graph.addCell.2.add { kind := .reference name graph.cells.size }).2.Coherent
  apply coherent.addCell.add
  · exact fun child member => nomatch member
  · intro name cell found
    cases found
    simp [Graph.addCell]
  · intro name cell found other name' foundOther
    cases found
    exact absurd (coherent.cellThere other name' _ foundOther) (Nat.lt_irrefl _)

/-- Leaving a place empty that no live node has as a sub-pattern. -/
theorem erase (coherent : graph.Coherent) {erased : PatternId}
    (noPart : ∀ pattern, erased ∉ (graph.kind pattern).children) :
    (graph.erase erased).Coherent := by
  have kinds : ∀ pattern, pattern ≠ erased →
      (graph.erase erased).kind pattern = graph.kind pattern := by
    intro pattern other
    apply kind_congr
    rw [node?_erase, if_neg other]
  have gone : (graph.erase erased).kind erased = .constant false := by
    apply kind_of_node?_eq_none
    rw [node?_erase, if_pos rfl]
  refine ⟨fun pattern child member => ?_, fun pattern name cell found => ?_,
    fun pattern other name name' cell found foundOther => ?_⟩
  · by_cases same : pattern = erased
    · rw [same, gone] at member
      cases member
    · rw [kinds pattern same] at member
      have otherChild : child ≠ erased := fun same => noPart pattern (same ▸ member)
      have live := coherent.children pattern child member
      unfold isLive at live ⊢
      rwa [node?_erase, if_neg otherChild]
  · by_cases same : pattern = erased
    · rw [same, gone] at found
      cases found
    · rw [kinds pattern same] at found
      exact coherent.cellThere pattern name cell found
  · by_cases same : pattern = erased
    · rw [same, gone] at found
      cases found
    · by_cases sameOther : other = erased
      · rw [sameOther, gone] at foundOther
        cases foundOther
      · rw [kinds pattern same] at found
        rw [kinds other sameOther] at foundOther
        exact coherent.oneName pattern other name name' cell found foundOther

/-- Coherence is a matter of the places of the graph, and can be decided. -/
theorem of_slots
    (children : ∀ pattern < graph.slots.size, ∀ child ∈ (graph.kind pattern).children,
      graph.isLive child = true)
    (cellThere : ∀ pattern < graph.slots.size, ∀ reference ∈ (graph.kind pattern).reference?,
      reference.2 < graph.cells.size)
    (oneName : ∀ pattern < graph.slots.size, ∀ reference ∈ (graph.kind pattern).reference?,
      ∀ other < graph.slots.size, ∀ reference' ∈ (graph.kind other).reference?,
        reference.2 = reference'.2 → reference.1 = reference'.1) :
    graph.Coherent := by
  have inside : ∀ pattern, graph.kind pattern ≠ .constant false → pattern < graph.slots.size :=
    fun pattern there => lt_size_of_isLive (isLive_of_kind there)
  have insideReference : ∀ pattern name cell, graph.kind pattern = .reference name cell →
      pattern < graph.slots.size ∧ (name, cell) ∈ (graph.kind pattern).reference? := by
    intro pattern name cell found
    refine ⟨inside pattern ?_, ?_⟩ <;> rw [found]
    · nofun
    · rfl
  refine ⟨fun pattern child member => ?_, fun pattern name cell found => ?_,
    fun pattern other name name' cell found foundOther => ?_⟩
  · refine children pattern (inside pattern fun gone => ?_) child member
    rw [gone] at member
    cases member
  · obtain ⟨there, isReference⟩ := insideReference pattern name cell found
    exact cellThere pattern there _ isReference
  · obtain ⟨there, isReference⟩ := insideReference pattern name cell found
    obtain ⟨thereOther, isOther⟩ := insideReference other name' cell foundOther
    exact oneName pattern there _ isReference other thereOther _ isOther rfl

end Coherent

end Graph

end PegEngine
