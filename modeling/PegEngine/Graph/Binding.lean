import PegEngine.Graph.Basic
import PegEngine.Named

/-!
Contract: binding references to rules.

`bind` goes through everything that can be reached from a root, sub-patterns and bound rules
alike, and binds each reference whose name is that of a rule. It visits a node once, the last
sub-pattern first.

A rule that lies on the way from the root down to the reference encloses it and is bound weakly,
so that it does not own itself. Every other rule is bound strongly and lives as long as the
reference. A cell is written once. A reference that is bound to another rule is an error; what
was bound before the error stays bound.
-/

namespace PegEngine

abbrev Rules := Named PatternId

/-- Rules under their own names. A later rule replaces an earlier one of the same name, and a
rule without a name is an error. -/
def Graph.rules (graph : Graph) (patterns : List PatternId) : Except PatternError Rules :=
  match patterns.mapM fun pattern => (graph.name? pattern).map (·, pattern) with
  | some entries => .ok (Named.ofList entries)
  | none => .error .unnamedRule

namespace Graph

/-- A binding walk between two nodes: the graph as bound so far, for each number whether the walk
has come by it, and the number of cells bound. -/
structure Walk where
  graph : Graph
  visited : Array Bool
  bound : Nat := 0

namespace Walk

def start (graph : Graph) : Walk :=
  { graph, visited := Array.replicate graph.slots.size false }

/-- There is nothing to visit outside of the graph. -/
def hasVisited (walk : Walk) (pattern : PatternId) : Bool :=
  walk.visited.getD pattern true

def mark (walk : Walk) (pattern : PatternId) : Walk :=
  { walk with visited := walk.visited.setIfInBounds pattern true }

theorem hasVisited_mark (walk : Walk) (marked pattern : PatternId) :
    (walk.mark marked).hasVisited pattern = (pattern == marked || walk.hasVisited pattern) := by
  by_cases same : marked = pattern
  · subst same
    by_cases inside : marked < walk.visited.size <;> simp [mark, hasVisited, inside]
  · simp [mark, hasVisited, same, Ne.symm same]

end Walk

abbrev WalkM := EStateM PatternError Walk

/-- Come by a pattern. The answer is whether it is the first time. -/
def arrive (pattern : PatternId) : WalkM Bool := fun walk =>
  if walk.hasVisited pattern then .ok false walk else .ok true (walk.mark pattern)

/-- Bind the cell of a reference called `name` if there is a rule of that name. The nodes from
the root down to the reference are the `path`. A cell whose weak rule is gone stays as it
is. -/
def bindCell (rules : Rules) (path : List PatternId) (name : String) (cell : CellId) :
    WalkM Unit := fun walk =>
  match rules.lookup name with
  | none => .ok () walk
  | some rule =>
      match walk.graph.target? cell with
      | some existing =>
          if existing = rule then .ok () walk else .error (.referenceRebound name) walk
      | none =>
          match walk.graph.cell cell with
          | .unbound =>
              let binding := if rule ∈ path then Cell.weak rule else Cell.strong rule
              .ok ()
                { walk with
                  graph := { walk.graph with cells := walk.graph.cells.setIfInBounds cell binding }
                  bound := walk.bound + 1 }
          | _ => .ok () walk

/-- Visit a pattern and what can be reached from it. The nodes from the root down to the
pattern's parent are the `path`. They are distinct, so `room` for every node of the graph is
enough. -/
def visit (rules : Rules) : (room : Nat) → (path : List PatternId) → PatternId → WalkM Unit
  | 0, _, _ => pure ()
  | room + 1, path, pattern => do
      if !(← arrive pattern) then
        return
      let path := pattern :: path
      match (← get).graph.kind pattern with
      | .reference name cell =>
          bindCell rules path name cell
          match (← get).graph.target? cell with
          | some rule => visit rules room path rule
          | none => pure ()
      | kind => kind.children.reverse.forM (visit rules room path)

/-- Bind every reference that can be reached from `root` to the rule of its name. The answer is
the number of cells bound, or the error, with the graph as bound by then. -/
def bind (graph : Graph) (root : PatternId) (rules : Rules) :
    Except PatternError Nat × Graph :=
  match visit rules graph.slots.size [] root (.start graph) with
  | .ok () walk => (.ok walk.bound, walk.graph)
  | .error error walk => (.error error, walk.graph)

end Graph

end PegEngine
