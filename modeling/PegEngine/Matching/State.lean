import PegEngine.Trace.Report

/-!
Contract: the state that a match changes, and what stays fixed while it runs.

Owns:
- `Setup`, fixed for a whole match: the graph, the text and the depth limit;
- `MatchState`, what changes: bindings, stacks, the nesting of pattern calls, the trace options in
  effect, and the trace;
- `enter` and `leave`, the two ends of a pattern call, and `backtrack`, which takes back what a
  pattern did;
- `MatchM`, actions on that state, which an error does not reset.
-/

namespace PegEngine

/-- What is fixed for a whole match. -/
structure Setup where
  graph : Graph
  text : Text
  /-- The deepest nesting of pattern calls. -/
  limit : Nat

/-- What changes while a match runs. -/
structure MatchState where
  bindings : Bindings := {}
  stackTable : StackTable := {}
  /-- The number of pattern calls that are under way. -/
  depth : Nat := 0
  options : Option TraceOptions := none
  /-- The trace entries so far, the newest first. -/
  trace : List TraceEntry := []

/-- Actions on the state of a match. An error keeps the state reached. -/
abbrev MatchM := EStateM MatchError MatchState

/-- Match a pattern at a position, on behalf of another pattern. -/
abbrev Caller := PatternId → Nat → MatchM (Option Match)

namespace MatchState

/-- What a callback can look at. -/
def view (state : MatchState) : CallbackView where
  bindings := state.bindings
  stackTable := state.stackTable
  depth := state.depth
  trace := state.options

def addTrace (state : MatchState) (entries : List TraceEntry) : MatchState :=
  { state with trace := entries.reverse ++ state.trace }

/-- Report one side of an attempt, if the trace options in effect allow it. -/
def report (setup : Setup) (pattern : PatternId) (index : Nat) (phase : Phase)
    (state : MatchState) : MatchState :=
  match state.options with
  | none => state
  | some options =>
      let attempt := Attempt.ofPattern setup.graph pattern setup.text index state.bindings
        state.stackTable phase
      if options.allows attempt then
        state.addTrace (attempt.entries setup.graph options.sink)
      else
        state

/-- Begin a call of a node: one call deeper, and under the node's own trace options if it has
any. -/
def enter (node : Node) (state : MatchState) : MatchState :=
  { state with depth := state.depth + 1, options := node.trace <|> state.options }

/-- End a call of a node that began in `entry`. Options that the node replaced come back. -/
def leave (node : Node) (entry state : MatchState) : MatchState :=
  { state with
    depth := state.depth - 1
    options := if node.trace.isSome then entry.options else state.options }

/-- Take back what was bound and what changed on the stacks since `entry`. The trace stays.
Bindings that were cut below their number at `entry` cannot be brought back, which is an
error. -/
def backtrack (entry state : MatchState) : Except MatchError Unit × MatchState :=
  let state := { state with stackTable := state.stackTable.rollback entry.stackTable.checkpoint }
  match state.bindings.restore entry.bindings.count with
  | .ok bindings => (.ok (), { state with bindings })
  | .error error => (.error error, state)

/-- Keep the changes of the stacks for good once no pattern call is under way. -/
def settle (state : MatchState) : MatchState :=
  if state.depth = 0 then { state with stackTable := state.stackTable.commit } else state

end MatchState

end PegEngine
