import Mathlib.Logic.Relation
import PegEngine.Graph.Basic

/-!
Contract: which patterns the match of a pattern can come to.

Owns:
- `Graph.Leads`, from a pattern to its sub-patterns and to the rule in its cell;
- `Graph.LeadsStrongly`, the part of it that keeps patterns alive;
- `Graph.Calls`, which adds the patterns that a callback may match;
- `Graph.Reaches`, the patterns at the end of a chain of calls.
-/

namespace PegEngine

/-- A program asks for a match of `pattern` on one of its branches. -/
def Program.Runs (pattern : PatternId) : Program → Prop
  | .finish _ | .fail _ => False
  | .inspect next => ∃ view, (next view).Runs pattern
  | .bind _ _ next | .push _ _ next | .commit next | .rollback _ next => next.Runs pattern
  | .restore _ next => ∃ answer, (next answer).Runs pattern
  | .pop _ next => ∃ value, (next value).Runs pattern
  | .popMany _ _ _ next => ∃ answer, (next answer).Runs pattern
  | .run other _ next => other = pattern ∨ ∃ answer, (next answer).Runs pattern

/-- The rule that a cell is bound to, strongly or weakly. -/
def Cell.rule? : Cell → Option PatternId
  | .unbound => none
  | .strong rule | .weak rule => some rule

namespace Graph

/-- From a pattern to its sub-patterns, and from a reference to the rule in its cell. -/
def Leads (graph : Graph) (pattern next : PatternId) : Prop :=
  next ∈ (graph.kind pattern).children ∨
    ∃ name cell, graph.kind pattern = .reference name cell ∧
      (graph.cell cell).rule? = some next

/-- From a pattern to its sub-patterns, and from a reference to the rule that it is bound to
strongly. -/
def LeadsStrongly (graph : Graph) (pattern next : PatternId) : Prop :=
  next ∈ (graph.kind pattern).children ∨
    ∃ name cell, graph.kind pattern = .reference name cell ∧ graph.cell cell = .strong next

theorem LeadsStrongly.leads {graph : Graph} {pattern next : PatternId}
    (strongly : graph.LeadsStrongly pattern next) : graph.Leads pattern next := by
  rcases strongly with child | ⟨name, cell, reference, bound⟩
  · exact Or.inl child
  · exact Or.inr ⟨name, cell, reference, congrArg Cell.rule? bound⟩

/-- From a pattern to those that its own match may match. -/
def Calls (graph : Graph) (pattern next : PatternId) : Prop :=
  graph.Leads pattern next ∨
    ∃ callback text i, graph.kind pattern = .function callback ∧
      (callback.program text i).Runs next

/-- The match of `pattern` can come to `other`, which may be `pattern` itself. -/
def Reaches (graph : Graph) (pattern other : PatternId) : Prop :=
  Relation.ReflTransGen graph.Calls pattern other

/-- The rule that a cell gives is the one in it. -/
theorem rule?_of_target? {graph : Graph} {cell : CellId} {rule : PatternId}
    (target : graph.target? cell = some rule) : (graph.cell cell).rule? = some rule := by
  unfold target? at target
  split at target
  · cases target
  · next bound => rwa [bound]
  · next bound =>
      split at target
      · rwa [bound]
      · cases target

/-- A reference that is not unbound leads to its target. -/
theorem leads_of_target? {graph : Graph} {pattern rule : PatternId} {name : String}
    {cell : CellId} (reference : graph.kind pattern = .reference name cell)
    (target : graph.target? cell = some rule) : graph.Leads pattern rule :=
  Or.inr ⟨name, cell, reference, rule?_of_target? target⟩

theorem Reaches.of_calls {graph : Graph} {pattern next other : PatternId}
    (step : graph.Calls pattern next) (rest : graph.Reaches next other) :
    graph.Reaches pattern other :=
  Relation.ReflTransGen.head step rest

end Graph

end PegEngine
