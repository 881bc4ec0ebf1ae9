import PegEngine.Proofs.Matching.Access

/-!
Contract: relations between actions that every kind of node keeps.

Such a relation is kept by everything that a node may do to the bindings and the stacks, so that it
does not matter which names and stacks a node mentions.

Owns:
- `Matching.Congruence`, with one clause for each operation;
- `Congruence.accesses`, through which the laws of single kinds of nodes hold of it;
- `Congruence.matchKind`, for whole patterns.
-/

namespace PegEngine

namespace Matching

/-- The relation between actions is kept by the operations that nodes are put together of. -/
structure Congruence (related : ∀ {α : Type}, MatchM α → MatchM α → Prop) : Prop where
  pure {α : Type} (value : α) : related (Pure.pure value) (Pure.pure value)
  throw {α : Type} (error : MatchError) :
    related (MonadExcept.throw error : MatchM α) (MonadExcept.throw error)
  bind {α β : Type} {action other : MatchM α} {next otherNext : α → MatchM β}
    (first : related action other) (rest : ∀ value, related (next value) (otherNext value)) :
    related (action >>= next) (other >>= otherNext)
  /-- Actions that go by the bindings and the stacks. -/
  look {α : Type} {next otherNext : MatchState → MatchM α}
    (rest : ∀ state otherState, state.bindings = otherState.bindings →
      state.stackTable = otherState.stackTable → related (next state) (otherNext otherState)) :
    related (get >>= next) (get >>= otherNext)
  rebind (change : Bindings → Bindings) :
    related (modify fun state => { state with bindings := change state.bindings })
      (modify fun state => { state with bindings := change state.bindings })
  restack (change : StackTable → StackTable) :
    related (modify fun state => { state with stackTable := change state.stackTable })
      (modify fun state => { state with stackTable := change state.stackTable })
  addTrace (entries : List TraceEntry) :
    related (modify fun state => state.addTrace entries)
      (modify fun state => state.addTrace entries)

namespace Congruence

variable {related : ∀ {α : Type}, MatchM α → MatchM α → Prop} (congruence : Congruence related)
  {call other : Caller} {i : Nat}

include congruence

/-- Single accesses go by the bindings and the stacks, whatever they are for. -/
theorem accesses : Accesses (fun _ => True) (fun _ => True) related where
  pure := congruence.pure
  throw := congruence.throw
  bind := congruence.bind
  addTrace := congruence.addTrace
  readName {name} _ := congruence.look fun state otherState sameBindings _ => by
    rw [sameBindings]
    exact congruence.pure _
  bindName {name} _ value := congruence.rebind (·.bind name value)
  readStack {stack} _ := congruence.look fun state otherState _ sameStacks => by
    rw [sameStacks]
    exact congruence.pure _
  pushAll {stack} _ values := congruence.restack (·.pushAll stack values)
  popUpTo {stack} _ count := congruence.restack fun table => (table.popUpTo stack count).2

/-- A pattern makes related actions of related calls. Its references have to have the same
targets. -/
theorem matchKind {setup otherSetup : Setup} {pattern : PatternId}
    (sameText : otherSetup.text = setup.text)
    (sameTarget : ∀ name cell, setup.graph.kind pattern = .reference name cell →
      otherSetup.graph.target? cell = setup.graph.target? cell)
    (calls : ∀ next, setup.graph.Calls pattern next →
      ∀ index, related (call next index) (other next index))
    (programs : ∀ callback, setup.graph.kind pattern = .function callback →
      related (runProgram call (callback.program setup.text i))
        (runProgram other (callback.program setup.text i))) :
    related (matchKind setup call i (setup.graph.kind pattern))
      (matchKind otherSetup other i (setup.graph.kind pattern)) := by
  refine congruence.accesses.matchKind sameText sameTarget ?_ ?_ (fun _ _ => trivial)
    (fun _ _ => trivial) programs
  · exact fun child member => calls child (Or.inl (Or.inl member))
  · exact fun name cell rule reference target =>
      calls rule (Or.inl (Graph.leads_of_target? reference target))

end Congruence

end Matching

end PegEngine
