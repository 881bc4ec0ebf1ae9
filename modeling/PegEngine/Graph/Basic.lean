import PegEngine.Graph.Node

/-!
Contract: the store of pattern nodes and of the cells that references are bound through.

Nodes never change. A node is added under a fresh number, after the nodes that it is made of, so
its sub-patterns have smaller numbers. Cycles arise only through cells. The place of a node that
is gone stays empty.
-/

namespace PegEngine

/-- What a reference cell holds. A weak binding does not keep its rule alive. -/
inductive Cell where
  | unbound
  | strong (rule : PatternId)
  | weak (rule : PatternId)
deriving DecidableEq, Repr, Inhabited

structure Graph where
  slots : Array (Option Node) := #[]
  cells : Array Cell := #[]
deriving Inhabited

namespace Graph

/-- The node of a pattern, unless it is gone. -/
def node? (graph : Graph) (pattern : PatternId) : Option Node :=
  (graph.slots[pattern]?).join

/-- The node of a pattern, or one that never matches when it is gone. -/
def node (graph : Graph) (pattern : PatternId) : Node :=
  (graph.node? pattern).getD Node.absent

def kind (graph : Graph) (pattern : PatternId) : Kind :=
  (graph.node pattern).kind

def name? (graph : Graph) (pattern : PatternId) : Option String :=
  (graph.node pattern).name

def isLive (graph : Graph) (pattern : PatternId) : Bool :=
  (graph.node? pattern).isSome

def cell (graph : Graph) (cell : CellId) : Cell :=
  graph.cells.getD cell .unbound

/-- The rule that a cell gives: none when it is unbound, or bound weakly to a rule that is
gone. -/
def target? (graph : Graph) (cell : CellId) : Option PatternId :=
  match graph.cell cell with
  | .unbound => none
  | .strong rule => some rule
  | .weak rule => if graph.isLive rule then some rule else none

/-- Put a node under a fresh number. -/
def add (graph : Graph) (node : Node) : PatternId × Graph :=
  (graph.slots.size, { graph with slots := graph.slots.push (some node) })

def addCell (graph : Graph) : CellId × Graph :=
  (graph.cells.size, { graph with cells := graph.cells.push .unbound })

/-- Sub-patterns have smaller numbers than the patterns made of them, and references have
cells. -/
def WellFormed (graph : Graph) : Prop :=
  ∀ pattern node, graph.node? pattern = some node →
    (∀ child ∈ node.kind.children, child < pattern) ∧
    ∀ name cell, node.kind = .reference name cell → cell < graph.cells.size

@[simp] theorem node?_add_self (graph : Graph) (node : Node) :
    (graph.add node).2.node? (graph.add node).1 = some node := by
  simp [add, node?]

/-- A new node leaves the others as they are. -/
theorem node?_add_of_lt (graph : Graph) (node : Node) {pattern : PatternId}
    (old : pattern < graph.slots.size) : (graph.add node).2.node? pattern = graph.node? pattern := by
  simp [add, node?, Array.getElem?_push, Nat.ne_of_lt old]

/-- A graph stays well-formed when a node is added whose sub-patterns and cell are there. -/
theorem WellFormed.add {graph : Graph} (wellFormed : graph.WellFormed) {node : Node}
    (childrenThere : ∀ child ∈ node.kind.children, child < graph.slots.size)
    (cellThere : ∀ name cell, node.kind = .reference name cell → cell < graph.cells.size) :
    (graph.add node).2.WellFormed := by
  intro pattern found lookup
  have atMost : pattern ≤ graph.slots.size := by
    by_cases inside : pattern < graph.slots.size + 1
    · exact Nat.le_of_lt_succ inside
    · have outside : (graph.slots.push (some node)).size ≤ pattern := by
        simpa using Nat.le_of_not_lt inside
      simp [Graph.add, node?, Array.getElem?_eq_none outside] at lookup
  rcases Nat.lt_or_eq_of_le atMost with old | fresh
  · rw [node?_add_of_lt graph node old] at lookup
    exact wellFormed pattern found lookup
  · have same : found = node := by
      have atFresh := node?_add_self graph node
      rw [fresh] at lookup
      exact Option.some.inj (lookup.symm.trans atFresh)
    subst same
    subst fresh
    exact ⟨childrenThere, cellThere⟩

theorem lt_size_of_node? {graph : Graph} {pattern : PatternId} {node : Node}
    (found : graph.node? pattern = some node) : pattern < graph.slots.size := by
  by_cases inside : pattern < graph.slots.size
  · exact inside
  · simp [node?, Array.getElem?_eq_none (Nat.le_of_not_lt inside)] at found

end Graph

end PegEngine
