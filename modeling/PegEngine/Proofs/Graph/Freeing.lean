import PegEngine.Proofs.Graph.Acyclicity
import PegEngine.Proofs.Graph.Collection

/-!
Contract: a bound grammar whose handles are dropped is freed.

The strong edges of a grammar make no cycle if nothing but references closes the ways from its
root. Then its newest pattern has no owner left, and after it the next one has none.

Owns:
- `Dropped`, that no handle is left on a grammar;
- `bind_acyclic`, and a grammar with a shared reference whose strong edges make a cycle.
-/

namespace PegEngine

namespace Graph

/-- No handle is left on the grammar of `root`, and nothing else that is left owns a part of it. -/
structure Dropped (graph : Graph) (root : PatternId) (handles : List PatternId) : Prop where
  noHandle : ∀ handle ∈ handles, ¬ Relation.ReflTransGen graph.Leads root handle
  owners : ∀ owner pattern, Relation.ReflTransGen graph.Leads root pattern →
    graph.Owns owner pattern → (graph.release handles).isLive owner = true →
      Relation.ReflTransGen graph.Leads root owner ∧ graph.LeadsStrongly owner pattern

/-- What is dropped is let go, from the newest pattern to the oldest. -/
theorem Dropped.freed {graph : Graph} {root : PatternId} {handles order : List PatternId}
    (dropped : graph.Dropped root handles) (nodup : order.Nodup)
    (settled : Settled graph.LeadsStrongly order)
    (all : ∀ pattern, Relation.ReflTransGen graph.Leads root pattern → pattern ∈ order)
    (pattern : PatternId) (member : Relation.ReflTransGen graph.Leads root pattern) :
    (graph.release handles).isLive pattern = false := by
  induction place : order.idxOf pattern using Nat.strong_induction_on generalizing pattern with
  | _ place inductionHypothesis =>
      by_contra left
      rw [Bool.not_eq_false] at left
      rcases exists_owner_of_isLive_release left with handle | ⟨owner, leftOwner, owns⟩
      · exact dropped.noHandle pattern handle member
      · obtain ⟨memberOwner, leads⟩ := dropped.owners owner pattern member owns leftOwner
        have newer := (settled.idxOf_lt nodup (all owner memberOwner) leads).2
        have gone := inductionHypothesis _ (by omega) owner memberOwner rfl
        rw [gone] at leftOwner
        cases leftOwner

variable {graph : Graph} {rules : Rules} {root : PatternId}

/-- Binding a grammar whose ways are closed by references leaves no cycle of strong edges below its
root, so the grammar is freed when its handles are dropped. -/
theorem bind_acyclic (bindable : graph.Bindable rules root)
    (closed : graph.ClosedByReferences rules root) :
    ∃ count bound, graph.bind root rules = (.ok count, bound) ∧
      (∀ pattern, Relation.ReflTransGen bound.Leads root pattern →
        ¬ Relation.TransGen bound.LeadsStrongly pattern pattern) ∧
      ∀ handles, bound.Dropped root handles → ∀ pattern,
        Relation.ReflTransGen bound.Leads root pattern →
          (bound.release handles).isLive pattern = false := by
  obtain ⟨walk, ended, invariant, seen⟩ := visit_root bindable
  obtain ⟨order, nodup, settled, left⟩ := Walk.exists_settled closed bindable invariant ended
  have all : ∀ pattern, Relation.ReflTransGen walk.graph.Leads root pattern → pattern ∈ order := by
    intro pattern member
    refine (left pattern).mp ?_
    induction member with
    | refl => exact seen
    | tail _ leads seenBefore =>
        exact (invariant.finished _ seenBefore List.not_mem_nil).leads _ leads
  refine ⟨walk.bound, walk.graph, ?_, ?_, ?_⟩
  · unfold bind
    rw [ended]
  · exact fun pattern member => settled.acyclic nodup (all pattern member)
  · exact fun handles dropped => dropped.freed nodup settled all

/-- A rule that refers to itself, and a sequence of the rule and the same reference. -/
def shared : Graph where
  slots := #[
    some { kind := .reference "rule" 0 },
    some { kind := .literal ['x'] },
    some { kind := .choice [1, 0], name := some "rule" },
    some { kind := .sequence [2, 0] }]
  cells := #[.unbound]

theorem kind_shared {pattern : PatternId} {name : String} {cell : CellId}
    (found : shared.kind pattern = .reference name cell) :
    pattern = 0 ∧ name = "rule" ∧ cell = 0 := by
  match pattern with
  | 0 =>
      cases found
      exact ⟨rfl, rfl, rfl⟩
  | 1 | 2 | 3 => cases found
  | pattern + 4 => cases found

theorem children_shared {pattern child : PatternId}
    (member : child ∈ (shared.kind pattern).children) :
    pattern = 2 ∧ (child = 1 ∨ child = 0) ∨ pattern = 3 ∧ (child = 2 ∨ child = 0) := by
  match pattern with
  | 2 | 3 => simpa [shared, kind, Graph.node, node?, Kind.children] using member
  | 0 | 1 => cases member
  | pattern + 4 => cases member

theorem bindable_shared {root : PatternId} (live : shared.isLive root = true) :
    shared.Bindable [("rule", 2)] root := by
  refine ⟨⟨fun pattern child member => ?_, fun pattern name cell found => ?_,
    fun pattern other name name' cell found foundOther => ?_⟩, live, fun name rule found => ?_,
    fun pattern name cell _ found => ?_⟩
  · rcases children_shared member with ⟨_, same | same⟩ | ⟨_, same | same⟩ <;> subst same <;> rfl
  · obtain ⟨_, _, same⟩ := kind_shared found
    subst same
    decide
  · rw [(kind_shared found).2.1, (kind_shared foundOther).2.1]
  · rw [Named.lookup_cons] at found
    split at found
    · cases found
      rfl
    · cases found
  · obtain ⟨_, _, same⟩ := kind_shared found
    subst same
    rfl

/-- Below the rule itself there is but one way to the reference. -/
theorem way_shared {path : List PatternId} (way : shared.Way [("rule", 2)] 2 path) :
    path = [] ∨ path = [2] ∨ path = [1, 2] ∨ path = [0, 2] := by
  induction way with
  | nil => exact Or.inl rfl
  | @cons path next _ enters new inductionHypothesis =>
      rcases inductionHypothesis with same | same | same | same <;> subst same
      · change next = 2 at enters
        simp [enters]
      · rcases enters with child | ⟨name, cell, reference, _⟩
        · rcases children_shared child with ⟨_, same | same⟩ | ⟨impossible, _⟩
          · simp [same]
          · simp [same]
          · cases impossible
        · cases reference
      · rcases enters with child | ⟨name, cell, reference, _⟩
        · cases child
        · cases reference
      · rcases enters with child | ⟨name, cell, reference, named⟩
        · cases child
        · cases reference
          cases named
          simp at new

theorem closedByReferences_shared : shared.ClosedByReferences [("rule", 2)] 2 := by
  refine ⟨fun pattern path way child member => ?_,
    fun pattern path name cell rule _ reference _ _ other name' _ referenceOther => ?_⟩
  · rcases way_shared way with same | same | same | same <;> cases same
    · rcases children_shared member with ⟨_, same | same⟩ | ⟨impossible, _⟩
      · simp [same]
      · simp [same]
      · cases impossible
    · cases member
    · cases member
  · rw [(kind_shared reference).1, (kind_shared referenceOther).1]

theorem bind_acyclic_shared :
    ∃ count bound, shared.bind 2 [("rule", 2)] = (.ok count, bound) ∧ bound.Dropped 2 [] ∧
      (bound.release []).isLive 2 = false := by
  obtain ⟨count, bound, ended, _, freed⟩ :=
    bind_acyclic (bindable_shared rfl) closedByReferences_shared
  have same : shared.bind 2 [("rule", 2)] = (.ok 1, { shared with cells := #[.weak 2] }) := rfl
  cases same.symm.trans ended
  have dropped : Dropped { shared with cells := #[.weak 2] } 2 [] := by
    refine ⟨nofun, fun owner pattern _ owns left => ?_⟩
    match owner with
    | 2 => exact ⟨.refl, Or.inl owns⟩
    | 3 => cases left
    | 0 | 1 => cases owns
    | owner + 4 => cases owns
  exact ⟨1, _, same, dropped, freed [] dropped 2 .refl⟩

/-- Below the sequence the reference is bound before its rule is on the path. -/
theorem bind_shared_cycle :
    shared.Bindable [("rule", 2)] 3 ∧
      ∃ count bound, shared.bind 3 [("rule", 2)] = (.ok count, bound) ∧
        Relation.ReflTransGen bound.Leads 3 0 ∧ Relation.TransGen bound.LeadsStrongly 0 0 ∧
          (bound.release []).isLive 2 = true := by
  refine ⟨bindable_shared rfl, 1, _, rfl, .single (Or.inl ?_), ?_, rfl⟩
  · decide
  · exact .tail (.single (Or.inr ⟨"rule", 0, rfl, rfl⟩)) (Or.inl (by decide))

end Graph

end PegEngine
