import PegEngine.Graph.Binding
import PegEngine.Graph.Ownership
import PegEngine.Matching.Engine
import PegEngine.Pattern.Build

/-!
Contract: patterns, inputs and contexts kept by name.

A workspace holds the handles of the patterns that were given a name. `release` lets go of every
pattern that none of them keeps alive; a reference bound weakly to such a pattern is unbound from
then on. Inputs keep their bindings and contexts their stacks from match to match.
-/

namespace PegEngine

/-- A context with the checkpoints of its stacks that were given a name. -/
structure NamedContext where
  context : Context
  checkpoints : Named Checkpoint := []

/-- Patterns, inputs and contexts by name. -/
structure Workspace where
  graph : Graph := {}
  patterns : Named PatternId := []
  inputs : Named Input := []
  contexts : Named NamedContext := []

namespace Workspace

def build {α : Type} (workspace : Workspace) (action : Build α) : α × Workspace :=
  let (result, graph) := action.run workspace.graph
  (result, { workspace with graph })

def define (workspace : Workspace) (name : String) (pattern : PatternId) : Workspace :=
  { workspace with patterns := Named.set name pattern workspace.patterns }

def drop (workspace : Workspace) (name : String) : Workspace :=
  { workspace with patterns := Named.erase name workspace.patterns }

/-- Let go of every pattern that no handle keeps alive. -/
def release (workspace : Workspace) : Workspace :=
  { workspace with graph := workspace.graph.release (Named.values workspace.patterns) }

/-- Bind the references below a root to rules. -/
def bindRules (workspace : Workspace) (root : PatternId) (rules : Rules) :
    Except PatternError Nat × Workspace :=
  let (result, graph) := workspace.graph.bind root rules
  (result, { workspace with graph })

/-- Bind the references below a root to patterns under their own names. -/
def bind (workspace : Workspace) (root : PatternId) (patterns : List PatternId) :
    Except PatternError Nat × Workspace :=
  match workspace.graph.rules patterns with
  | .ok rules => workspace.bindRules root rules
  | .error error => (.error error, workspace)

/-- Bind the references below every named handle, in the order of the handles' names, to the
patterns among them that have a name of their own. The first error ends it. -/
def bindAll (workspace : Workspace) : Except PatternError Workspace := do
  let handles := Named.values (workspace.patterns.mergeSort fun a b => a.1 ≤ b.1)
  let rules ← workspace.graph.rules
    (handles.filter fun pattern => (workspace.graph.name? pattern).isSome)
  handles.foldlM (fun workspace root =>
    match workspace.bindRules root rules with
    | (.ok _, workspace) => .ok workspace
    | (.error error, _) => .error error) workspace

def setInput (workspace : Workspace) (name : String) (input : Input) : Workspace :=
  { workspace with inputs := Named.set name input workspace.inputs }

def setContext (workspace : Workspace) (name : String) (context : NamedContext) : Workspace :=
  { workspace with contexts := Named.set name context workspace.contexts }

/-- Match a pattern at a position of an input in a context, both kept by name. There is no run
when one of the names is not known. -/
def run? (workspace : Workspace) (pattern : PatternId) (input : String) (index : Nat)
    (context : String) : Option (MatchRun × Workspace) :=
  match workspace.inputs.lookup input, workspace.contexts.lookup context with
  | some before, some named =>
      let run := workspace.graph.matchIn pattern before index named.context
      some (run,
        (workspace.setInput input run.input).setContext context
          { named with context := run.context })
  | _, _ => none

end Workspace

end PegEngine
