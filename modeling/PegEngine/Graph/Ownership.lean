import PegEngine.Graph.Basic

/-!
Contract: which pattern nodes live on.

A node lives as long as it has an owner: a handle held outside of the graph, a live node made
of it, a live reference bound to it strongly, or a live callback that keeps it. `release` lets
go of all nodes without an owner, of those that they owned alone, and so on. Nodes that own each
other around a cycle of strong bindings keep each other alive.
-/

namespace PegEngine

namespace Graph

/-- What a node owns: its sub-patterns, the patterns that its callback keeps, or the rule that
it is bound to strongly. -/
def ownedByNode (graph : Graph) (node : Node) : List PatternId :=
  match node.kind with
  | .function callback => callback.patterns
  | .reference _ cell =>
      match graph.cell cell with
      | .strong rule => [rule]
      | _ => []
  | kind => kind.children

/-- What is owned from one place of the graph. -/
def ownedBySlot (graph : Graph) : Option Node → List PatternId
  | some node => graph.ownedByNode node
  | none => []

/-- Everything with an owner, given the handles held outside. -/
def owned (graph : Graph) (handles : List PatternId) : List PatternId :=
  handles ++ graph.slots.toList.flatMap graph.ownedBySlot

def erase (graph : Graph) (pattern : PatternId) : Graph :=
  { graph with slots := graph.slots.setIfInBounds pattern none }

/-- Let go of a node that no reference is bound to, unless it is part of another one. Only nodes
that were added later can be made of it. -/
def discard (graph : Graph) (pattern : PatternId) : Graph :=
  let owns := fun slot : Option Node => slot.any fun node => pattern ∈ graph.ownedByNode node
  if (graph.slots.extract (pattern + 1)).any owns then graph else graph.erase pattern

/-- How often each number below `size` is among the `patterns`. -/
def counts (size : Nat) (patterns : List PatternId) : Array Nat :=
  patterns.foldl (fun counts pattern => counts.modify pattern (· + 1)) (Array.replicate size 0)

/-- A release under way: the graph so far, the number of owners of each pattern, and the patterns
without an owner that are still there. -/
structure Release where
  graph : Graph
  owners : Array Nat
  orphans : List PatternId

namespace Release

/-- A pattern loses one owner, and is an orphan if that was the last. -/
def disown (release : Release) (pattern : PatternId) : Release :=
  let owners := release.owners.modify pattern (· - 1)
  let orphans :=
    if owners[pattern]? = some 0 then pattern :: release.orphans else release.orphans
  { release with owners, orphans }

/-- Let go of one node. What it owned loses an owner. -/
def letGo (release : Release) (pattern : PatternId) : Release :=
  let owned := release.graph.ownedByNode (release.graph.node pattern)
  owned.foldl disown { release with graph := release.graph.erase pattern }

/-- Let go of one orphan after the other, at most `most` of them. -/
def run : (most : Nat) → Release → Graph
  | 0, release => release.graph
  | most + 1, release =>
      match release.orphans with
      | [] => release.graph
      | pattern :: orphans => run most ({ release with orphans }.letGo pattern)

end Release

/-- Let go of every node that has no owner, given the handles held outside, and of those that
have none any more after that. A node becomes an orphan once, so there are at most as many as
there are nodes. -/
def release (graph : Graph) (handles : List PatternId) : Graph :=
  let owners := counts graph.slots.size (graph.owned handles)
  let orphans := (List.range graph.slots.size).filter fun pattern =>
    graph.isLive pattern && owners[pattern]? == some 0
  Release.run graph.slots.size { graph, owners, orphans }

/-! ## Small facts -/

/-- Only the place that is erased changes. -/
theorem node?_erase (graph : Graph) (erased pattern : PatternId) :
    (graph.erase erased).node? pattern =
      if pattern = erased then none else graph.node? pattern := by
  by_cases same : erased = pattern
  · subst same
    by_cases inside : erased < graph.slots.size <;> simp [erase, node?, inside]
  · simp [erase, node?, same, Ne.symm same]

private theorem getElem?_foldl_modify (patterns : List PatternId) (counts : Array Nat)
    (pattern : PatternId) :
    (patterns.foldl (fun counts pattern => counts.modify pattern (· + 1)) counts)[pattern]? =
      counts[pattern]?.map (· + patterns.count pattern) := by
  induction patterns generalizing counts with
  | nil => simp
  | cons head tail inductionHypothesis =>
      rw [List.foldl_cons, inductionHypothesis, Array.getElem?_modify]
      by_cases here : head = pattern
      · subst here
        cases counts[head]? <;> simp [Nat.add_comm, Nat.add_left_comm]
      · simp [here]

theorem getElem?_counts (size : Nat) (patterns : List PatternId) (pattern : PatternId) :
    (counts size patterns)[pattern]? =
      if pattern < size then some (patterns.count pattern) else none := by
  rw [counts, getElem?_foldl_modify]
  by_cases inside : pattern < size <;> simp [inside]

end Graph

end PegEngine
