import PegEngine.Proofs.Graph.Binding
import PegEngine.Proofs.Graph.Course

/-!
Contract: strong edges without cycles.

The walk that binds a grammar leaves a node once all that it leads to has been come by. If nothing
but references closes the ways from the root, a node that is left leads strongly only to nodes that
were left before it: a rule on the path is bound weakly. So strong edges lead from newer to older
nodes and never back.

Owns:
- `Way`, a way from the root that does not repeat itself, and `ClosedByReferences`;
- `Settled`, the order in which the walk has left its nodes;
- `Walk.Ordered`, with a lemma for a whole course of the walk;
- `exists_settled`, the order for a grammar that is bound for the first time.
-/

namespace PegEngine

namespace Graph

/-- The pattern comes next below a path from the root, whose head is its last pattern. -/
def Enters (graph : Graph) (rules : Rules) (root : PatternId) :
    (path : List PatternId) → PatternId → Prop
  | [], next => next = root
  | last :: _, next => graph.Mentions rules last next

/-- A way from the root down to the pattern at its head. It does not repeat itself. -/
inductive Way (graph : Graph) (rules : Rules) (root : PatternId) : List PatternId → Prop where
  | nil : Way graph rules root []
  | cons {path : List PatternId} {next : PatternId} (way : Way graph rules root path)
      (enters : graph.Enters rules root path next) (new : next ∉ path) :
      Way graph rules root (next :: path)

/-- Only references lead back to where a way from the root has come through, and they share their
cells with no other reference. -/
structure ClosedByReferences (graph : Graph) (rules : Rules) (root : PatternId) : Prop where
  parts : ∀ pattern path, graph.Way rules root (pattern :: path) →
    ∀ child ∈ (graph.kind pattern).children, child ∉ pattern :: path
  cells : ∀ pattern path name cell rule, graph.Way rules root (pattern :: path) →
    graph.kind pattern = .reference name cell → rules.lookup name = some rule →
      rule ∈ pattern :: path → ∀ other name', graph.Grammar rules root other →
        graph.kind other = .reference name' cell → other = pattern

theorem Way.grammar_of_enters {graph : Graph} {rules : Rules} {root next : PatternId}
    {path : List PatternId} (way : graph.Way rules root path)
    (enters : graph.Enters rules root path next) : graph.Grammar rules root next := by
  induction way generalizing next with
  | nil =>
      change next = root at enters
      exact enters ▸ .refl
  | cons _ entersLast _ inductionHypothesis => exact (inductionHypothesis entersLast).tail enters

theorem Way.grammar {graph : Graph} {rules : Rules} {root pattern : PatternId}
    {path : List PatternId} (way : graph.Way rules root (pattern :: path)) :
    graph.Grammar rules root pattern := by
  cases way with
  | cons above enters _ => exact above.grammar_of_enters enters

/-! ## Orders -/

/-- Patterns in the order in which they were left, the newest first. Each leads to older ones
only. -/
def Settled (leads : PatternId → PatternId → Prop) : List PatternId → Prop
  | [] => True
  | pattern :: older => (∀ next, leads pattern next → next ∈ older) ∧ Settled leads older

namespace Settled

variable {leads : PatternId → PatternId → Prop} {order : List PatternId} {pattern next : PatternId}

/-- What a pattern leads to comes after it. -/
theorem idxOf_lt (settled : Settled leads order) (nodup : order.Nodup) (member : pattern ∈ order)
    (step : leads pattern next) : next ∈ order ∧ order.idxOf pattern < order.idxOf next := by
  induction order with
  | nil => cases member
  | cons newest older inductionHypothesis =>
      obtain ⟨leadsToOlder, settledOlder⟩ := settled
      obtain ⟨fresh, nodupOlder⟩ := List.nodup_cons.mp nodup
      have further : next ∈ older → (newest :: older).idxOf next = older.idxOf next + 1 :=
        fun among => List.idxOf_cons_ne older fun same => fresh (same ▸ among)
      by_cases same : pattern = newest
      · subst same
        have among := leadsToOlder next step
        refine ⟨List.mem_cons_of_mem pattern among, ?_⟩
        rw [further among, List.idxOf_cons_self]
        exact Nat.succ_pos _
      · have memberOlder := (List.mem_cons.mp member).resolve_left same
        obtain ⟨among, later⟩ := inductionHypothesis settledOlder nodupOlder memberOlder
        refine ⟨List.mem_cons_of_mem newest among, ?_⟩
        rw [further among, List.idxOf_cons_ne older (Ne.symm same)]
        exact Nat.succ_lt_succ later

theorem idxOf_lt_of_transGen (settled : Settled leads order) (nodup : order.Nodup)
    (member : pattern ∈ order) (steps : Relation.TransGen leads pattern next) :
    next ∈ order ∧ order.idxOf pattern < order.idxOf next := by
  induction steps with
  | single step => exact settled.idxOf_lt nodup member step
  | tail _ step inductionHypothesis =>
      obtain ⟨among, before⟩ := inductionHypothesis
      obtain ⟨amongNext, after⟩ := settled.idxOf_lt nodup among step
      exact ⟨amongNext, Nat.lt_trans before after⟩

/-- No pattern leads back to itself. -/
theorem acyclic (settled : Settled leads order) (nodup : order.Nodup) (member : pattern ∈ order) :
    ¬ Relation.TransGen leads pattern pattern :=
  fun cycle => Nat.lt_irrefl _ (settled.idxOf_lt_of_transGen nodup member cycle).2

end Settled

/-! ## The order of a walk -/

namespace Walk

/-- What holds of a walk below the nodes of `path` that has left the nodes of `order`. -/
structure Ordered (start : Graph) (rules : Rules) (root : PatternId)
    (leads : PatternId → PatternId → Prop) (path order : List PatternId) (walk : Walk) : Prop where
  slots : walk.graph.slots = start.slots
  cells : walk.graph.cells.size = start.cells.size
  seen : ∀ pattern, walk.Seen pattern ↔ pattern ∈ path ∨ pattern ∈ order
  apart : ∀ pattern ∈ path, pattern ∉ order
  nodup : order.Nodup
  settled : Settled leads order
  /-- A reference that closes a way is bound by its own visit only. -/
  fresh : ∀ pattern below name cell rule, start.Way rules root (pattern :: below) →
    start.kind pattern = .reference name cell → rules.lookup name = some rule →
      rule ∈ pattern :: below → ¬ walk.Seen pattern → walk.graph.cell cell = .unbound

section Course

variable {start : Graph} {rules : Rules} {root : PatternId}
  {leads : PatternId → PatternId → Prop} {path order patterns : List PatternId}
  {pattern : PatternId} {walk later : Walk}

namespace Ordered

theorem kind (ordered : Ordered start rules root leads path order walk) (pattern : PatternId) :
    walk.graph.kind pattern = start.kind pattern :=
  kind_congr (node?_eq ordered.slots pattern)

theorem not_mem_of_new (ordered : Ordered start rules root leads path order walk)
    (new : walk.hasVisited pattern = false) : pattern ∉ path := by
  intro onPath
  have seen := (ordered.seen pattern).mpr (Or.inl onPath)
  rw [(hasVisited_iff (inside_of_new new)).mpr seen] at new
  cases new

/-- The walk goes into a new pattern. -/
theorem mark (ordered : Ordered start rules root leads path order walk)
    (new : walk.hasVisited pattern = false) :
    Ordered start rules root leads (pattern :: path) order (walk.mark pattern) := by
  have inside := inside_of_new new
  have notSeen := not_seen_of_new new
  refine ⟨ordered.slots, ordered.cells, fun other => ?_, fun other member => ?_, ordered.nodup,
    ordered.settled, ?_⟩
  · rw [seen_mark_iff inside, ordered.seen, List.mem_cons, or_assoc]
  · rcases List.mem_cons.mp member with same | below
    · exact fun left => notSeen ((ordered.seen pattern).mpr (Or.inr (same ▸ left)))
    · exact ordered.apart other below
  · intro other below name cell rule way reference named closes notSeenOther
    exact ordered.fresh other below name cell rule way reference named closes fun seen =>
      notSeenOther ((seen_mark_iff inside other).mpr (Or.inr seen))

/-- The walk binds the reference that it has just gone into. -/
theorem bindCell (closed : start.ClosedByReferences rules root)
    (ordered : Ordered start rules root leads (pattern :: path) order walk)
    (member : start.Grammar rules root pattern) {name : String} {cell : CellId}
    (reference : start.kind pattern = .reference name cell)
    (ended : Graph.bindCell rules (pattern :: path) name cell walk = .ok () later) :
    Ordered start rules root leads (pattern :: path) order later := by
  rcases bindCell_cases ended with ⟨same, _⟩ | ⟨rule, _, _, written⟩
  · exact same ▸ ordered
  · subst written
    refine ⟨ordered.slots, ?_, ordered.seen, ordered.apart, ordered.nodup, ordered.settled, ?_⟩
    · simpa [Walk.write] using ordered.cells
    · intro other below name' cell' rule' way referenceOther named closes notSeen
      -- A reference that closes a way has its cell to itself, so another cell was written.
      have differs : cell' ≠ cell := by
        intro same
        subst same
        have own := closed.cells other below name' cell' rule' way referenceOther named closes
          pattern name member reference
        exact notSeen ((ordered.seen other).mpr (Or.inl (own ▸ List.mem_cons_self)))
      rw [cell_write_of_ne differs]
      exact ordered.fresh other below name' cell' rule' way referenceOther named closes notSeen

/-- The walk leaves a pattern that leads only to what it has left before. -/
theorem leave (ordered : Ordered start rules root leads (pattern :: path) order walk)
    (new : pattern ∉ path) (older : ∀ next, leads pattern next → next ∈ order) :
    Ordered start rules root leads path (pattern :: order) walk := by
  have apart := ordered.apart pattern List.mem_cons_self
  refine ⟨ordered.slots, ordered.cells, fun other => ?_, fun other member left => ?_,
    List.nodup_cons.mpr ⟨apart, ordered.nodup⟩, ⟨older, ordered.settled⟩, ordered.fresh⟩
  · rw [ordered.seen, List.mem_cons, List.mem_cons, or_left_comm, or_assoc]
  · rcases List.mem_cons.mp left with same | among
    · exact new (same ▸ member)
    · exact ordered.apart other (List.mem_cons_of_mem pattern member) among

/-- What has been come by and does not lie on the path has been left. -/
theorem left_of_seen (ordered : Ordered start rules root leads path order walk)
    (seen : walk.Seen pattern) (offPath : pattern ∉ path) : pattern ∈ order :=
  ((ordered.seen pattern).mp seen).resolve_left offPath

end Ordered

/-- The walk over some patterns has left more than `order` by then. -/
def Orders (start : Graph) (rules : Rules) (root : PatternId)
    (leads : PatternId → PatternId → Prop) (path order patterns : List PatternId) (later : Walk) :
    Prop :=
  ∃ more, Ordered start rules root leads path (more ++ order) later ∧
    ∀ pattern ∈ patterns, later.Seen pattern

/-- The walk goes on after it has left a pattern. -/
theorem Orders.cons {more : List PatternId}
    (left : Ordered start rules root leads path (pattern :: (more ++ order)) walk)
    (goes : Goes rules path patterns walk later)
    (rest : Orders start rules root leads path (pattern :: (more ++ order)) patterns later) :
    Orders start rules root leads path order (pattern :: patterns) later := by
  obtain ⟨further, ordered, seen⟩ := rest
  refine ⟨further ++ pattern :: more, by simpa using ordered, fun other member => ?_⟩
  rcases List.mem_cons.mp member with same | member
  · refine goes.onward.seen other ((left.seen other).mpr (Or.inr ?_))
    exact same ▸ List.mem_cons_self
  · exact seen other member

/-- A strong edge of a reference leads to what has been left: had the rule been on the path, it
would be bound weakly. -/
theorem left_of_strong {bound final : Walk} {name : String} {cell : CellId} {next : PatternId}
    (bindable : start.Bindable rules root) (way : start.Way rules root (pattern :: path))
    (before : Ordered start rules root leads path order walk)
    (new : walk.hasVisited pattern = false) (reference : start.kind pattern = .reference name cell)
    (binds : Graph.bindCell rules (pattern :: path) name cell (walk.mark pattern) = .ok () bound)
    (ends : bound.Onward final) (named : rules.lookup name = some next)
    (strong : final.graph.cell cell = .strong next) :
    bound.graph.target? cell = some next ∧ next ∉ pattern :: path := by
  have there : cell < (walk.mark pattern).graph.cells.size :=
    before.cells ▸ bindable.coherent.cellThere pattern name cell reference
  obtain ⟨notUnbound, weak⟩ := bindCell_binds there named binds
  have boundStrong : bound.graph.cell cell = .strong next := by
    rw [← ends.bound cell notUnbound, strong]
  refine ⟨?_, fun onPath => ?_⟩
  · unfold target?
    rw [boundStrong]
  · have unbound := before.fresh pattern path name cell next way reference named onPath
      (not_seen_of_new new)
    rw [weak unbound onPath] at boundStrong
    cases boundStrong

/-- A walk over the patterns leaves those that are new, and what they lead to before them. -/
theorem Goes.ordered {final : Walk} (closed : start.ClosedByReferences rules root)
    (bindable : start.Bindable rules root) (invariant : Invariant start rules root [] final)
    (goes : Goes rules path patterns walk later) (ends : later.Onward final)
    (way : start.Way rules root path)
    (enters : ∀ pattern ∈ patterns, start.Enters rules root path pattern)
    (ordered : Ordered start rules root final.graph.LeadsStrongly path order walk) :
    Orders start rules root final.graph.LeadsStrongly path order patterns later := by
  induction goes generalizing order with
  | done => exact ⟨[], ordered, nofun⟩
  | @known path rest pattern walk later visited others inductionHypothesis =>
      obtain ⟨entersHere, entersOthers⟩ := List.forall_mem_cons.mp enters
      obtain ⟨more, orderedLater, seen⟩ := inductionHypothesis ends way entersOthers ordered
      refine ⟨more, orderedLater, fun other member => ?_⟩
      rcases List.mem_cons.mp member with same | member
      · have inside : pattern < walk.visited.size := by
          rw [← (others.onward.trans ends).size, invariant.size]
          exact lt_size_of_isLive (bindable.live (way.grammar_of_enters entersHere))
        exact same ▸ others.onward.seen pattern ((hasVisited_iff inside).mp visited)
      · exact seen other member
  | @node path rest pattern walk middle later new noReference below others belowHypothesis
      othersHypothesis =>
      obtain ⟨entersHere, entersOthers⟩ := List.forall_mem_cons.mp enters
      have notOnPath := ordered.not_mem_of_new new
      have down : start.Way rules root (pattern :: path) := .cons way entersHere notOnPath
      obtain ⟨more, orderedBelow, seen⟩ := belowHypothesis (others.onward.trans ends) down
        (fun child member => Or.inl (by simpa [ordered.kind] using member)) (ordered.mark new)
      have left := orderedBelow.leave notOnPath fun next leads => by
        rcases leads with child | ⟨name, cell, found, _⟩
        · rw [invariant.kind] at child
          refine orderedBelow.left_of_seen (seen next ?_)
            (closed.parts pattern path down next child)
          rw [List.mem_reverse, ordered.kind]
          exact child
        · rw [invariant.kind, ← ordered.kind] at found
          exact absurd found (noReference name cell)
      exact Orders.cons left others (othersHypothesis ends way entersOthers left)
  | @reference path rest pattern name cell walk bound middle later new kind binds below others
      belowHypothesis othersHypothesis =>
      obtain ⟨entersHere, entersOthers⟩ := List.forall_mem_cons.mp enters
      have notOnPath := ordered.not_mem_of_new new
      have down : start.Way rules root (pattern :: path) := .cons way entersHere notOnPath
      have reference := (ordered.kind pattern).symm.trans kind
      have member := down.grammar
      have endsBelow := others.onward.trans ends
      have endsBound := below.onward.trans endsBelow
      -- A cell is written once, so what it holds here is what it holds at the end.
      have named : ∀ rule, (bound.graph.cell cell).rule? = some rule →
          rules.lookup name = some rule := by
        intro rule content
        refine invariant.ownRule pattern name cell rule member reference ?_
        rw [endsBound.bound cell fun unbound => ?_, content]
        rw [unbound] at content
        cases content
      obtain ⟨more, orderedBelow, seen⟩ := belowHypothesis endsBelow down
        (fun rule target => Or.inr ⟨name, cell, reference, named rule (by
          exact rule?_of_target? (Option.mem_toList.mp target))⟩)
        ((ordered.mark new).bindCell closed member reference binds)
      have left := orderedBelow.leave notOnPath fun next leads => by
        rcases leads with child | ⟨name', cell', found, strong⟩
        · rw [invariant.kind, reference] at child
          cases child
        · rw [invariant.kind, reference] at found
          cases found
          have own := invariant.ownRule pattern name cell next member reference
            (congrArg Cell.rule? strong)
          obtain ⟨target, offPath⟩ := left_of_strong bindable down ordered new reference binds
            endsBound own strong
          refine orderedBelow.left_of_seen (seen next ?_) offPath
          rw [target]
          exact List.mem_singleton_self next
      exact Orders.cons left others (othersHypothesis ends way entersOthers left)

end Course

/-- Before the first node nothing has been come by, and nothing is left. -/
theorem ordered_start {graph : Graph} {rules : Rules} {root : PatternId}
    (bindable : graph.Bindable rules root) (leads : PatternId → PatternId → Prop) :
    Ordered graph rules root leads [] [] (.start graph) := by
  refine ⟨rfl, rfl, fun pattern => ?_, nofun, List.nodup_nil, trivial, ?_⟩
  · simp [Seen, Walk.start, Array.getElem?_replicate]
  · intro pattern below name cell rule way reference _ _ _
    exact bindable.unbound pattern name cell way.grammar reference

/-- The walk over a whole grammar leaves all that it has come by in an order in which strong edges
lead to older patterns only. -/
theorem exists_settled {graph : Graph} {rules : Rules} {root : PatternId} {walk : Walk}
    (closed : graph.ClosedByReferences rules root) (bindable : graph.Bindable rules root)
    (invariant : Invariant graph rules root [] walk)
    (ended : visit rules graph.slots.size [] root (.start graph) = .ok () walk) :
    ∃ order, order.Nodup ∧ Settled walk.graph.LeadsStrongly order ∧
      ∀ pattern, walk.Seen pattern ↔ pattern ∈ order := by
  have roomy : (Walk.start graph).Roomy [] graph.slots.size :=
    ⟨List.nodup_nil, by simp [Walk.start], nofun, Nat.le_add_left ..⟩
  obtain ⟨more, ordered, _⟩ := (goes_of_visit roomy ended).ordered closed bindable invariant
    (.refl walk) .nil (fun pattern member => List.mem_singleton.mp member)
    (ordered_start bindable _)
  refine ⟨more ++ [], ordered.nodup, ordered.settled, fun pattern => ?_⟩
  rw [ordered.seen]
  exact or_iff_right List.not_mem_nil

end Walk

end Graph

end PegEngine
