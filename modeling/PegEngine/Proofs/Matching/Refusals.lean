import PegEngine.Proofs.Matching.Limit

/-!
Contract: whether a match meets the recursion limit anywhere.

A callback is told the errors of the matches that it runs, and may go on as if nothing had happened.
So the result of a match does not tell whether a call was refused on the way. It does once every
callback halts with the first error about the limit that it is told.

Owns:
- `Program.halting` and `Graph.halting`, in which callbacks do so and all else is the same;
- `Graph.MeetsLimit`.
-/

namespace PegEngine

/-- The program, except that it ends with the first error about the limit that a match of its own
ends in. -/
def Program.halting : Program → Program
  | .finish outcome => .finish outcome
  | .fail error => .fail error
  | .inspect next => .inspect fun view => (next view).halting
  | .bind name value next => .bind name value next.halting
  | .restore number next => .restore number fun answer => (next answer).halting
  | .push stack value next => .push stack value next.halting
  | .pop stack next => .pop stack fun value => (next value).halting
  | .popMany stack count position next =>
      .popMany stack count position fun answer => (next answer).halting
  | .commit next => .commit next.halting
  | .rollback checkpoint next => .rollback checkpoint next.halting
  | .run pattern index next => .run pattern index fun answer =>
      match answer with
      | .ok outcome => (next (.ok outcome)).halting
      | .error error => if error.isLimit then .fail error else (next (.error error)).halting

/-- The kind, with callbacks that halt at the limit. -/
def Kind.halting : Kind → Kind
  | .function callback =>
      .function { callback with program := fun text i => (callback.program text i).halting }
  | kind => kind

def Node.halting (node : Node) : Node :=
  { node with kind := node.kind.halting }

theorem Kind.halting_eq_self {kind : Kind} (noFunction : ∀ callback, kind ≠ .function callback) :
    kind.halting = kind := by
  cases kind with
  | function callback => exact absurd rfl (noFunction callback)
  | _ => rfl

namespace Graph

/-- The graph, with callbacks that halt at the limit. -/
def halting (graph : Graph) : Graph :=
  { graph with slots := graph.slots.map (·.map Node.halting) }

/-- Somewhere in the match, be it in a match that a callback runs, the error comes up that pattern
calls were nested too deep. -/
def MeetsLimit (graph : Graph) (pattern : PatternId) (input : Input) (index : Nat)
    (context : Context) : Prop :=
  atLimit (graph.halting.matchIn pattern input index context).result

instance (graph : Graph) (pattern : PatternId) (input : Input) (index : Nat) (context : Context) :
    Decidable (graph.MeetsLimit pattern input index context) :=
  inferInstanceAs (Decidable (_ = true))

theorem node?_halting (graph : Graph) (pattern : PatternId) :
    graph.halting.node? pattern = (graph.node? pattern).map Node.halting := by
  unfold node? halting
  rw [Array.getElem?_map]
  cases graph.slots[pattern]? with
  | none => rfl
  | some slot => cases slot <;> rfl

theorem node_halting (graph : Graph) (pattern : PatternId) :
    graph.halting.node pattern = (graph.node pattern).halting := by
  unfold node
  rw [node?_halting]
  cases graph.node? pattern <;> rfl

@[simp] theorem kind_halting (graph : Graph) (pattern : PatternId) :
    graph.halting.kind pattern = (graph.kind pattern).halting :=
  congrArg Node.kind (graph.node_halting pattern)

@[simp] theorem name?_halting (graph : Graph) (pattern : PatternId) :
    graph.halting.name? pattern = graph.name? pattern := by
  unfold name?
  rw [node_halting]
  rfl

@[simp] theorem target?_halting (graph : Graph) (cell : CellId) :
    graph.halting.target? cell = graph.target? cell := by
  unfold target? isLive
  simp only [node?_halting, Option.isSome_map]
  rfl

end Graph

end PegEngine
