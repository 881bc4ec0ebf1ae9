import PegEngine.Proofs.Graph.Release
import PegEngine.Proofs.Graph.Walk

/-!
Contract: holding the root keeps a bound grammar whole.

A grammar that is bound for the first time is led to strongly from its root, so its references keep
their rules whichever other handles are dropped.
-/

namespace PegEngine

namespace Graph

variable {graph : Graph} {rules : Rules} {root : PatternId}

/-- The walk over a whole grammar that is bound for the first time. -/
theorem visit_root (bindable : graph.Bindable rules root) :
    ∃ walk, visit rules graph.slots.size [] root (.start graph) = .ok () walk ∧
      Walk.Invariant graph rules root [] walk ∧ walk.Seen root := by
  obtain ⟨walk, ended, invariant, _, seen⟩ := Walk.visits_visit bindable graph.slots.size
    (.initial bindable) List.nodup_nil (Nat.le_add_left ..) .refl .refl
  exact ⟨walk, ended, invariant, seen root (by simp)⟩

namespace Walk.Invariant

variable {walk : Walk}

/-- After the walk everything that the root leads to is led to strongly. -/
theorem leadsStrongly (invariant : Walk.Invariant graph rules root [] walk) (seen : walk.Seen root)
    {pattern : PatternId} (reaches : Relation.ReflTransGen walk.graph.Leads root pattern) :
    Relation.ReflTransGen walk.graph.LeadsStrongly root pattern := by
  apply invariant.strong
  induction reaches with
  | refl => exact seen
  | tail _ leads seenBefore =>
      exact (invariant.finished _ seenBefore List.not_mem_nil).leads _ leads

theorem seen_of_grammar (invariant : Walk.Invariant graph rules root [] walk)
    (seen : walk.Seen root) {pattern : PatternId} (member : graph.Grammar rules root pattern) :
    walk.Seen pattern := by
  induction member with
  | refl => exact seen
  | tail _ mentions seenBefore =>
      have done := invariant.finished _ seenBefore List.not_mem_nil
      rcases mentions with child | ⟨name, cell, reference, found⟩
      · exact done.leads _ (Or.inl (by rwa [invariant.kind]))
      · have sameKind := (invariant.kind _).trans reference
        exact done.leads _ (Or.inr ⟨name, cell, sameKind, done.bound name cell _ sameKind found⟩)

/-- A reference keeps the rule of its name as its target while the root is held. -/
theorem target?_releases (bindable : graph.Bindable rules root)
    (invariant : Walk.Invariant graph rules root [] walk) (seen : walk.Seen root)
    {drops : List (List PatternId)} (rootHeld : ∀ handles ∈ drops, root ∈ handles)
    {pattern : PatternId} {name : String} {cell : CellId}
    (member : graph.Grammar rules root pattern)
    (reference : graph.kind pattern = .reference name cell) :
    (walk.graph.releases drops).target? cell = rules.lookup name := by
  obtain ⟨cells, nodes⟩ := @releases_keep walk.graph root drops rootHeld
  have sameCell : (walk.graph.releases drops).cell cell = walk.graph.cell cell := by
    unfold Graph.cell
    rw [cells]
  have done := invariant.finished pattern (invariant.seen_of_grammar seen member) List.not_mem_nil
  have sameKind := (invariant.kind pattern).trans reference
  unfold target?
  rw [sameCell]
  cases bound : walk.graph.cell cell with
  | unbound =>
      cases found : rules.lookup name with
      | none => rfl
      | some rule =>
          have isBound := done.bound name cell rule sameKind found
          rw [bound] at isBound
          cases isBound
  | strong rule =>
      have own := invariant.ownRule pattern name cell rule member reference
        (congrArg Cell.rule? bound)
      exact own.symm
  | weak rule =>
      have own := invariant.ownRule pattern name cell rule member reference
        (congrArg Cell.rule? bound)
      have seenRule := invariant.weak pattern name cell rule member reference bound
      have reaches := invariant.strong rule seenRule
      have live : (walk.graph.releases drops).isLive rule = true := by
        rw [isLive_congr (nodes rule reaches), invariant.isLive]
        exact bindable.rulesLive name rule own
      simp only [live, if_true]
      exact own.symm

end Walk.Invariant

/-- Binding a grammar for the first time raises no error. Whatever the root then leads to, through
bindings of either kind, it leads to strongly. So the references of the grammar keep the rules of
their names as their targets, whichever other handles are dropped. -/
theorem bind_keeps_grammar (bindable : graph.Bindable rules root) :
    ∃ count bound, graph.bind root rules = (.ok count, bound) ∧
      (∀ pattern, Relation.ReflTransGen bound.Leads root pattern →
        Relation.ReflTransGen bound.LeadsStrongly root pattern) ∧
      ∀ drops, (∀ handles ∈ drops, root ∈ handles) → ∀ pattern name cell,
        graph.Grammar rules root pattern → graph.kind pattern = .reference name cell →
          (bound.releases drops).kind pattern = .reference name cell ∧
            (bound.releases drops).target? cell = rules.lookup name := by
  obtain ⟨walk, ended, invariant, seen⟩ := visit_root bindable
  refine ⟨walk.bound, walk.graph, ?_, fun pattern => invariant.leadsStrongly seen, ?_⟩
  · unfold bind
    rw [ended]
  · intro drops rootHeld pattern name cell member reference
    refine ⟨?_, invariant.target?_releases bindable seen rootHeld member reference⟩
    have reaches := invariant.strong pattern (invariant.seen_of_grammar seen member)
    rw [kind_congr ((releases_keep rootHeld).2 pattern reaches), invariant.kind]
    exact reference

/-- A recursive rule with two references to itself that share a cell, beside a reference to a rule
that nothing else holds. -/
def copies : Graph where
  slots := #[
    some { kind := .literal ['a'] },
    some { kind := .reference "rule" 0 },
    some { kind := .reference "rule" 0, name := some "copy" },
    some { kind := .sequence [0, 1, 2], name := some "rule" },
    some { kind := .reference "word" 1 },
    some { kind := .literal ['w'], name := some "word" },
    some { kind := .choice [3, 4] }]
  cells := #[.unbound, .unbound]

theorem bindable_copies : copies.Bindable [("rule", 3), ("word", 5)] 6 := by
  have references : ∀ pattern name cell, copies.kind pattern = .reference name cell →
      cell = 0 ∧ name = "rule" ∨ cell = 1 ∧ name = "word" := by
    intro pattern name cell found
    match pattern with
    | 1 | 2 | 4 => cases found; decide
    | 0 | 3 | 5 | 6 => cases found
    | pattern + 7 => cases found
  refine ⟨⟨fun pattern child member => ?_, fun pattern name cell found => ?_,
    fun pattern other name name' cell found foundOther => ?_⟩, rfl, fun name rule found => ?_,
    fun pattern name cell _ found => ?_⟩
  · have live : ∀ child ∈ [0, 1, 2, 3, 4], copies.isLive child = true := by decide
    match pattern with
    | 3 => exact live child (List.mem_append_left [3, 4] member)
    | 6 => exact live child (List.mem_append_right [0, 1, 2] member)
    | 0 | 1 | 2 | 4 | 5 => cases member
    | pattern + 7 => cases member
  · rcases references pattern name cell found with ⟨same, _⟩ | ⟨same, _⟩ <;> subst same <;> decide
  · rcases references pattern name cell found with ⟨same, own⟩ | ⟨same, own⟩ <;>
      rcases references other name' cell foundOther with ⟨same', own'⟩ | ⟨same', own'⟩ <;>
        simp_all
  · rw [Named.lookup_cons, Named.lookup_cons] at found
    split at found
    · cases found
      rfl
    · split at found
      · cases found
        rfl
      · cases found
  · rcases references pattern name cell found with ⟨same, _⟩ | ⟨same, _⟩ <;> subst same <;> rfl

theorem bind_keeps_grammar_copies :
    copies.Bindable [("rule", 3), ("word", 5)] 6 ∧
      ∃ count bound, copies.bind 6 [("rule", 3), ("word", 5)] = (.ok count, bound) ∧
        ∀ pattern, Relation.ReflTransGen bound.Leads 6 pattern →
          Relation.ReflTransGen bound.LeadsStrongly 6 pattern := by
  obtain ⟨count, bound, ended, strong, _⟩ := bind_keeps_grammar bindable_copies
  exact ⟨bindable_copies, count, bound, ended, strong⟩

end Graph

end PegEngine
