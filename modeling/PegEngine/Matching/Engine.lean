import PegEngine.Matching.Nodes

/-!
Contract: calls of patterns, and matching from the outside.

Every call of a pattern follows one protocol. It is refused when the nesting has reached the
limit. Otherwise the pattern is matched under its own trace options, with a report on both
sides; when it does not match or ends in an error, its bindings and stack changes are taken
back, and an error is attributed to the pattern's name. When the outermost call ends, the
changes that are left are kept for good.

Owns:
- `Matching.call`, the protocol, by recursion on the calls that the limit leaves room for;
- `Graph.matchIn` and `Graph.matchAt`, a match against an input that is kept or made for it.
-/

namespace PegEngine

namespace Matching

/-- Refuse a call because it would nest too deep. -/
def refuse (setup : Setup) (index : Nat) : MatchM (Option Match) :=
  throw (.recursionLimit setup.limit (min index setup.text.length))

/-- Match a pattern by `body` under the protocol of pattern calls. -/
def guarded (setup : Setup) (pattern : PatternId) (i : Nat) (body : MatchM (Option Match)) :
    MatchM (Option Match) := fun entry =>
  let node := setup.graph.node pattern
  match body ((entry.enter node).report setup pattern i .before) with
  | .ok outcome reached =>
      let left := entry.leave node (reached.report setup pattern i (.after outcome))
      match outcome with
      | some m => .ok (some m) left.settle
      | none =>
          match entry.backtrack left with
          | (.ok (), state) => .ok none state.settle
          | (.error error, state) => .error (error.inPattern node.name) state.settle
  | .error error reached =>
      .error (error.inPattern node.name) (entry.backtrack (entry.leave node reached)).2.settle

/-- Call a pattern at a position. A position beyond the text counts as its end. The recursion is
on the `room` for nested calls that the limit leaves. -/
def call (setup : Setup) : (room : Nat) → Caller
  | 0, _, index => refuse setup index
  | room + 1, pattern, index => fun entry =>
      if setup.limit ≤ entry.depth then
        refuse setup index entry
      else
        let i := min index setup.text.length
        guarded setup pattern i
          (matchKind setup (call setup room) i (setup.graph.kind pattern)) entry

end Matching

/-- The nesting limit of a match that asks for no other. -/
def defaultLimit : Nat := 256

structure MatchConfig where
  limit : Nat := defaultLimit
  /-- Trace options in effect around the pattern. -/
  trace : Option TraceOptions := none
deriving Inhabited

/-- What stays from match to match besides the input: the settings with the trace options in
effect, the stacks, and the number of pattern calls that are under way. -/
structure Context where
  config : MatchConfig := {}
  stackTable : StackTable := {}
  depth : Nat := 0
deriving Inhabited

/-- What is fixed for a match in the context. -/
def Context.setup (context : Context) (graph : Graph) (text : Text) : Setup :=
  { graph, text, limit := context.config.limit }

/-- The state in which a match of an input begins. -/
def Context.state (context : Context) (input : Input) : MatchState where
  bindings := input.bindings
  stackTable := context.stackTable
  depth := context.depth
  options := context.config.trace

/-- The end of a match: its result, what it leaves behind, and its trace in order. -/
structure MatchRun where
  result : Except MatchError (Option Match)
  input : Input
  context : Context
  trace : List TraceEntry

/-- The end of a match that has reached a state. -/
def MatchRun.ofState (result : Except MatchError (Option Match)) (input : Input)
    (context : Context) (state : MatchState) : MatchRun where
  result
  input := { input with bindings := state.bindings }
  context :=
    { config := { context.config with trace := state.options }
      stackTable := state.stackTable
      depth := state.depth }
  trace := state.trace.reverse

namespace Graph

/-- Match a pattern at a position of an input, in a context. -/
def matchIn (graph : Graph) (pattern : PatternId) (input : Input) (index : Nat)
    (context : Context) : MatchRun :=
  match Matching.call (context.setup graph input.text) (context.config.limit - context.depth)
      pattern index (context.state input) with
  | .ok outcome state => .ofState (.ok outcome) input context state
  | .error error state => .ofState (.error error) input context state

/-- Match a pattern against a text of its own, from an offset that may count back from the
end. -/
def matchAt (graph : Graph) (pattern : PatternId) (text : Text) (offset : Int)
    (config : MatchConfig) : MatchRun :=
  let input : Input := { text }
  let context : Context := { config }
  match text.index offset with
  | .ok i => graph.matchIn pattern input i context
  | .error error => { result := .error error, input, context, trace := [] }

end Graph

end PegEngine
