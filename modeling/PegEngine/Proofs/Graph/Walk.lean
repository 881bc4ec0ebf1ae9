import Mathlib.Data.Finset.Card
import Mathlib.Data.Finset.Range
import PegEngine.Graph.Binding
import PegEngine.Proofs.Graph.Coherence
import PegEngine.Proofs.Reachability

/-!
Contract: the walk that binds a grammar for the first time.

It goes down to a node for the first time only along strong edges: a rule that it binds weakly lies
on its path and has been come by. So whatever it has come by is led to strongly from the root.

Owns:
- `Grammar`, what a root comes to through sub-patterns and the rules of its references' names;
- `Bindable`, what a grammar is like that is bound for the first time;
- `Walk.Invariant`, with a lemma for the binding of one cell and one for the visit of a node.
-/

namespace PegEngine

namespace Graph

/-- From a pattern to its sub-patterns, and from a reference to the rule of its name. -/
def Mentions (graph : Graph) (rules : Rules) (pattern next : PatternId) : Prop :=
  next ∈ (graph.kind pattern).children ∨
    ∃ name cell, graph.kind pattern = .reference name cell ∧ rules.lookup name = some next

/-- The pattern belongs to the grammar of `root` with these rules. -/
def Grammar (graph : Graph) (rules : Rules) (root pattern : PatternId) : Prop :=
  Relation.ReflTransGen (graph.Mentions rules) root pattern

/-- A grammar that is put together by the builders from live rules and is not bound yet. -/
structure Bindable (graph : Graph) (rules : Rules) (root : PatternId) : Prop where
  coherent : graph.Coherent
  rootLive : graph.isLive root = true
  rulesLive : ∀ name rule, rules.lookup name = some rule → graph.isLive rule = true
  unbound : ∀ pattern name cell, graph.Grammar rules root pattern →
    graph.kind pattern = .reference name cell → graph.cell cell = .unbound

theorem Bindable.live {graph : Graph} {rules : Rules} {root pattern : PatternId}
    (bindable : graph.Bindable rules root) (member : graph.Grammar rules root pattern) :
    graph.isLive pattern = true := by
  cases member with
  | refl => exact bindable.rootLive
  | tail _ mentions =>
      rcases mentions with child | ⟨name, cell, _, rule⟩
      · exact bindable.coherent.children _ _ child
      · exact bindable.rulesLive name _ rule

namespace Walk

/-- The walk has come by the pattern. -/
def Seen (walk : Walk) (pattern : PatternId) : Prop :=
  walk.visited[pattern]? = some true

/-- What the walk has changed on the way from one moment to a later one. -/
structure Before (walk later : Walk) : Prop where
  seen : ∀ pattern, walk.Seen pattern → later.Seen pattern
  bound : ∀ cell, walk.graph.cell cell ≠ .unbound →
    later.graph.cell cell = walk.graph.cell cell

namespace Before

variable {walk middle later : Walk}

theorem refl (walk : Walk) : walk.Before walk :=
  ⟨fun _ seen => seen, fun _ _ => rfl⟩

theorem trans (first : walk.Before middle) (second : middle.Before later) :
    walk.Before later := by
  refine ⟨fun pattern seen => second.seen pattern (first.seen pattern seen), fun cell bound => ?_⟩
  have same := first.bound cell bound
  rw [second.bound cell (same ▸ bound), same]

end Before

/-- All that the pattern leads to has been come by, and it is bound if it refers to a rule. -/
structure Finished (walk : Walk) (rules : Rules) (pattern : PatternId) : Prop where
  leads : ∀ next, walk.graph.Leads pattern next → walk.Seen next
  bound : ∀ name cell rule, walk.graph.kind pattern = .reference name cell →
    rules.lookup name = some rule → (walk.graph.cell cell).rule? = some rule

/-- What holds of a walk over the grammar of `start` whenever it is below the nodes of `path`. -/
structure Invariant (start : Graph) (rules : Rules) (root : PatternId) (path : List PatternId)
    (walk : Walk) : Prop where
  slots : walk.graph.slots = start.slots
  size : walk.visited.size = start.slots.size
  cells : walk.graph.cells.size = start.cells.size
  grammar : ∀ pattern, walk.Seen pattern → start.Grammar rules root pattern
  strong : ∀ pattern, walk.Seen pattern →
    Relation.ReflTransGen walk.graph.LeadsStrongly root pattern
  /-- References of the grammar are bound to the rule of their name only. -/
  ownRule : ∀ pattern name cell rule, start.Grammar rules root pattern →
    start.kind pattern = .reference name cell → (walk.graph.cell cell).rule? = some rule →
      rules.lookup name = some rule
  weak : ∀ pattern name cell rule, start.Grammar rules root pattern →
    start.kind pattern = .reference name cell → walk.graph.cell cell = .weak rule →
      walk.Seen rule
  onPath : ∀ pattern ∈ path, walk.Seen pattern
  finished : ∀ pattern, walk.Seen pattern → pattern ∉ path → walk.Finished rules pattern

variable {start : Graph} {rules : Rules} {root : PatternId} {path : List PatternId} {walk : Walk}

theorem node?_eq (same : walk.graph.slots = start.slots) (pattern : PatternId) :
    walk.graph.node? pattern = start.node? pattern := by
  unfold node?
  rw [same]

namespace Invariant

theorem kind (invariant : Invariant start rules root path walk) (pattern : PatternId) :
    walk.graph.kind pattern = start.kind pattern :=
  kind_congr (node?_eq invariant.slots pattern)

theorem isLive (invariant : Invariant start rules root path walk) (pattern : PatternId) :
    walk.graph.isLive pattern = start.isLive pattern :=
  isLive_congr (node?_eq invariant.slots pattern)

/-- Before the first node nothing has been come by and nothing is bound. -/
theorem initial (bindable : start.Bindable rules root) :
    Invariant start rules root [] (Walk.start start) := by
  have nothing : ∀ pattern, ¬ (Walk.start start).Seen pattern := by
    intro pattern seen
    simp [Seen, Walk.start, Array.getElem?_replicate] at seen
  have unbound : ∀ pattern name cell, start.Grammar rules root pattern →
      start.kind pattern = .reference name cell →
        (Walk.start start).graph.cell cell = .unbound :=
    bindable.unbound
  refine ⟨rfl, by simp [Walk.start], rfl, fun pattern seen => absurd seen (nothing pattern),
    fun pattern seen => absurd seen (nothing pattern), ?_, ?_, ?_,
    fun pattern seen => absurd seen (nothing pattern)⟩
  · intro pattern name cell rule member reference bound
    rw [unbound pattern name cell member reference] at bound
    cases bound
  · intro pattern name cell rule member reference bound
    rw [unbound pattern name cell member reference] at bound
    cases bound
  · intro pattern member
    cases member

/-- The walk comes by a pattern of the grammar that is led to strongly. -/
theorem mark (invariant : Invariant start rules root path walk) {pattern : PatternId}
    (member : start.Grammar rules root pattern)
    (reaches : Relation.ReflTransGen walk.graph.LeadsStrongly root pattern)
    (inside : pattern < start.slots.size) :
    Invariant start rules root (pattern :: path) (walk.mark pattern) ∧
      walk.Before (walk.mark pattern) := by
  have seen : ∀ other, (walk.mark pattern).Seen other ↔ other = pattern ∨ walk.Seen other := by
    intro other
    have there : pattern < walk.visited.size := invariant.size ▸ inside
    unfold Seen Walk.mark
    rw [Array.getElem?_setIfInBounds]
    by_cases same : pattern = other
    · simp [same, same ▸ there]
    · simp [same, Ne.symm same]
  have grows : walk.Before (walk.mark pattern) :=
    ⟨fun other before => (seen other).mpr (Or.inr before), fun _ _ => rfl⟩
  refine ⟨⟨invariant.slots, ?_, invariant.cells, ?_, ?_, invariant.ownRule, ?_, ?_, ?_⟩, grows⟩
  · simpa [Walk.mark] using invariant.size
  · intro other come
    rcases (seen other).mp come with same | before
    · exact same ▸ member
    · exact invariant.grammar other before
  · intro other come
    rcases (seen other).mp come with same | before
    · exact same ▸ reaches
    · exact invariant.strong other before
  · intro other name cell rule memberOther reference bound
    exact grows.seen rule (invariant.weak other name cell rule memberOther reference bound)
  · intro other member
    rcases List.mem_cons.mp member with same | before
    · exact (seen other).mpr (Or.inl same)
    · exact grows.seen other (invariant.onPath other before)
  · intro other come offPath
    have notSame : other ≠ pattern := fun same => offPath (by simp [same])
    have before := ((seen other).mp come).resolve_left notSame
    have done := invariant.finished other before fun below => offPath (by simp [below])
    exact ⟨fun next leads => grows.seen next (done.leads next leads), done.bound⟩

/-- The walk leaves a finished pattern. -/
theorem leave {pattern : PatternId} (invariant : Invariant start rules root (pattern :: path) walk)
    (done : walk.Finished rules pattern) : Invariant start rules root path walk where
  slots := invariant.slots
  size := invariant.size
  cells := invariant.cells
  grammar := invariant.grammar
  strong := invariant.strong
  ownRule := invariant.ownRule
  weak := invariant.weak
  onPath other member := invariant.onPath other (by simp [member])
  finished other seen offPath := by
    by_cases same : other = pattern
    · exact same ▸ done
    · exact invariant.finished other seen (by simp [same, offPath])

/-- A cell with a rule in it has that rule as its target, since the rules are live. -/
theorem target?_eq (bindable : start.Bindable rules root)
    (invariant : Invariant start rules root path walk) {pattern : PatternId} {name : String}
    {cell : CellId} (member : start.Grammar rules root pattern)
    (reference : start.kind pattern = .reference name cell) :
    walk.graph.target? cell = (walk.graph.cell cell).rule? := by
  unfold target?
  cases bound : walk.graph.cell cell with
  | unbound | strong rule => rfl
  | weak rule =>
      have own := invariant.ownRule pattern name cell rule member reference
        (congrArg Cell.rule? bound)
      have live : walk.graph.isLive rule = true :=
        (invariant.isLive rule).trans (bindable.rulesLive name rule own)
      simp only [live, if_true]
      rfl

end Invariant

/-! ## Binding one cell -/

/-- The walk after a cell is bound for the first time. -/
def write (walk : Walk) (cell : CellId) (binding : Cell) : Walk :=
  { walk with
    graph := { walk.graph with cells := walk.graph.cells.setIfInBounds cell binding }
    bound := walk.bound + 1 }

theorem cell_write {cell : CellId} (there : cell < walk.graph.cells.size) (binding : Cell)
    (other : CellId) :
    (walk.write cell binding).graph.cell other =
      if other = cell then binding else walk.graph.cell other := by
  unfold write Graph.cell
  by_cases same : cell = other
  · subst same
    simp [there]
  · simp [same, Ne.symm same]

namespace Invariant

/-- An unbound cell of a reference on the path is bound to the rule of its name. -/
theorem write (bindable : start.Bindable rules root)
    (invariant : Invariant start rules root path walk) {pattern rule : PatternId} {name : String}
    {cell : CellId} {binding : Cell} (reference : start.kind pattern = .reference name cell)
    (found : rules.lookup name = some rule) (unbound : walk.graph.cell cell = .unbound)
    (toRule : binding.rule? = some rule) (weakSeen : binding = .weak rule → walk.Seen rule) :
    Invariant start rules root path (walk.write cell binding) ∧
      walk.Before (walk.write cell binding) := by
  have there : cell < walk.graph.cells.size :=
    invariant.cells ▸ bindable.coherent.cellThere pattern name cell reference
  have cells := cell_write there binding
  have ownName : ∀ other name', start.kind other = .reference name' cell → name' = name :=
    fun other name' foundOther =>
      bindable.coherent.oneName other pattern name' name cell foundOther reference
  have grows : walk.Before (walk.write cell binding) := by
    refine ⟨fun _ seen => seen, fun other bound => ?_⟩
    rw [cells, if_neg]
    exact fun same => bound (same ▸ unbound)
  -- A finished reference is bound already if it has a rule, so its cell is another one.
  have otherCell : ∀ other, walk.Finished rules other → ∀ name' cell',
      walk.graph.kind other = .reference name' cell' → cell' ≠ cell := by
    intro other done name' cell' foundOther same
    subst same
    have sameName := ownName other name' ((invariant.kind other).symm.trans foundOther)
    have bound := done.bound name' cell' rule foundOther (sameName ▸ found)
    rw [unbound] at bound
    cases bound
  refine ⟨⟨invariant.slots, invariant.size, ?_, invariant.grammar, ?_, ?_, ?_, invariant.onPath,
    ?_⟩, grows⟩
  · simpa [Walk.write] using invariant.cells
  · intro other seen
    refine Relation.ReflTransGen.mono ?_ _ _ (invariant.strong other seen)
    rintro before next (child | ⟨name', cell', foundBefore, strong⟩)
    · exact Or.inl child
    · refine Or.inr ⟨name', cell', foundBefore, ?_⟩
      rw [grows.bound cell' (by rw [strong]; exact fun same => nomatch same), strong]
  · intro other name' cell' rule' memberOther foundOther bound
    rw [cells] at bound
    split at bound
    · next same =>
        subst same
        rw [ownName other name' foundOther, found, ← toRule, bound]
    · exact invariant.ownRule other name' cell' rule' memberOther foundOther bound
  · intro other name' cell' rule' memberOther foundOther bound
    rw [cells] at bound
    split at bound
    · subst bound
      cases toRule
      exact weakSeen rfl
    · exact invariant.weak other name' cell' rule' memberOther foundOther bound
  · intro other seen offPath
    have done := invariant.finished other seen offPath
    refine ⟨fun next leads => ?_, fun name' cell' rule' foundOther lookup => ?_⟩
    · rcases leads with child | ⟨name', cell', foundOther, bound⟩
      · exact done.leads next (Or.inl child)
      · have differs := otherCell other done name' cell' foundOther
        rw [cells, if_neg differs] at bound
        exact done.leads next (Or.inr ⟨name', cell', foundOther, bound⟩)
    · have differs := otherCell other done name' cell' foundOther
      rw [cells, if_neg differs]
      exact done.bound name' cell' rule' foundOther lookup

/-- Binding the cell of a reference raises no error, and binds it if there is a rule of its name. -/
theorem bindCell (bindable : start.Bindable rules root)
    (invariant : Invariant start rules root path walk) {pattern : PatternId} {name : String}
    {cell : CellId} (member : start.Grammar rules root pattern)
    (reference : start.kind pattern = .reference name cell) :
    ∃ later, Graph.bindCell rules path name cell walk = .ok () later ∧
      Invariant start rules root path later ∧ walk.Before later ∧
      ∀ rule, rules.lookup name = some rule → (later.graph.cell cell).rule? = some rule := by
  have target := invariant.target?_eq bindable member reference
  unfold Graph.bindCell
  cases found : rules.lookup name with
  | none => exact ⟨walk, rfl, invariant, .refl walk, fun rule named => nomatch named⟩
  | some rule =>
      dsimp only
      cases bound : walk.graph.cell cell with
      | strong existing | weak existing =>
          rw [bound] at target
          have own := invariant.ownRule pattern name cell existing member reference
            (congrArg Cell.rule? bound)
          have same : existing = rule := Option.some.inj (own.symm.trans found)
          subst same
          rw [target]
          simp only [Cell.rule?, if_true]
          refine ⟨walk, rfl, invariant, .refl walk, fun other named => ?_⟩
          cases named
          rw [bound]
      | unbound =>
          rw [bound] at target
          rw [target]
          have there : cell < walk.graph.cells.size :=
            invariant.cells ▸ bindable.coherent.cellThere pattern name cell reference
          have toRule : (if rule ∈ path then Cell.weak rule else .strong rule).rule? =
              some rule := by
            split <;> rfl
          have weakSeen : (if rule ∈ path then Cell.weak rule else .strong rule) = .weak rule →
              walk.Seen rule := by
            intro weak
            split at weak
            · next enclosing => exact invariant.onPath rule enclosing
            · cases weak
          generalize (if rule ∈ path then Cell.weak rule else .strong rule) = binding
            at toRule weakSeen ⊢
          obtain ⟨written, grows⟩ :=
            invariant.write bindable reference found bound toRule weakSeen
          refine ⟨walk.write cell binding, rfl, written, grows, fun other named => ?_⟩
          cases named
          rw [cell_write there, if_pos rfl]
          exact toRule

end Invariant

/-! ## Visiting nodes -/

/-- A visit came to its end: it has kept the invariant and has come by the pattern. -/
def Visits (start : Graph) (rules : Rules) (root : PatternId) (path : List PatternId)
    (action : WalkM Unit) (walk : Walk) (patterns : List PatternId) : Prop :=
  ∃ later, action walk = .ok () later ∧ Invariant start rules root path later ∧
    walk.Before later ∧ ∀ pattern ∈ patterns, later.Seen pattern

theorem bind_ok {α β : Type} {action : WalkM α} {next : α → WalkM β} {walk later : Walk} {value : α}
    (ended : action walk = .ok value later) : (action >>= next) walk = next value later := by
  change EStateM.bind action next walk = _
  unfold EStateM.bind
  rw [ended]

theorem hasVisited_iff {pattern : PatternId} (inside : pattern < walk.visited.size) :
    walk.hasVisited pattern = true ↔ walk.Seen pattern := by
  unfold hasVisited Seen
  simp [inside]

/-- A node that was come by before is left at once. -/
theorem visit_of_seen {pattern : PatternId} (inside : pattern < walk.visited.size)
    (seen : walk.Seen pattern) (room : Nat) :
    visit rules (room + 1) path pattern walk = .ok () walk := by
  have arrived : arrive pattern walk = .ok false walk := by
    unfold arrive
    rw [if_pos ((hasVisited_iff inside).mpr seen)]
  unfold visit
  rw [bind_ok arrived]
  rfl

/-- A node that is new is gone into. -/
theorem visit_of_new {pattern : PatternId} (inside : pattern < walk.visited.size)
    (new : ¬ walk.Seen pattern) (room : Nat) :
    visit rules (room + 1) path pattern walk =
      (match walk.graph.kind pattern with
        | .reference name cell => do
            bindCell rules (pattern :: path) name cell
            match (← get).graph.target? cell with
            | some rule => visit rules room (pattern :: path) rule
            | none => pure ()
        | kind => kind.children.reverse.forM (visit rules room (pattern :: path)) : WalkM Unit)
        (walk.mark pattern) := by
  have arrived : arrive pattern walk = .ok true (walk.mark pattern) := by
    unfold arrive
    rw [if_neg fun come => new ((hasVisited_iff inside).mp come)]
  rw [visit, bind_ok arrived]
  rfl

theorem visit_of_new_reference {pattern : PatternId} {name : String} {cell : CellId}
    (inside : pattern < walk.visited.size) (new : ¬ walk.Seen pattern)
    (reference : walk.graph.kind pattern = .reference name cell) (room : Nat) :
    visit rules (room + 1) path pattern walk =
      (do
        bindCell rules (pattern :: path) name cell
        match (← get).graph.target? cell with
        | some rule => visit rules room (pattern :: path) rule
        | none => pure () : WalkM Unit) (walk.mark pattern) := by
  rw [visit_of_new inside new, reference]

theorem visit_of_new_other {pattern : PatternId} (inside : pattern < walk.visited.size)
    (new : ¬ walk.Seen pattern)
    (noReference : ∀ name cell, walk.graph.kind pattern ≠ .reference name cell) (room : Nat) :
    visit rules (room + 1) path pattern walk =
      ((walk.graph.kind pattern).children.reverse.forM (visit rules room (pattern :: path)))
        (walk.mark pattern) := by
  rw [visit_of_new inside new]
  cases kind : walk.graph.kind pattern with
  | reference name cell => exact absurd kind (noReference name cell)
  | _ => rfl

/-- Visits one after the other. -/
theorem visits_forM {visitOne : PatternId → WalkM Unit} {patterns : List PatternId}
    (each : ∀ pattern ∈ patterns, ∀ walk, Invariant start rules root path walk →
      Relation.ReflTransGen walk.graph.LeadsStrongly root pattern →
        Visits start rules root path (visitOne pattern) walk [pattern])
    (invariant : Invariant start rules root path walk)
    (reached : ∀ pattern ∈ patterns, ∀ later, walk.Before later →
      Invariant start rules root path later →
        Relation.ReflTransGen later.graph.LeadsStrongly root pattern) :
    Visits start rules root path (patterns.forM visitOne) walk patterns := by
  induction patterns generalizing walk with
  | nil => exact ⟨walk, rfl, invariant, .refl walk, fun pattern member => nomatch member⟩
  | cons first rest inductionHypothesis =>
      obtain ⟨middle, ended, kept, grows, seen⟩ := each first (by simp) walk invariant
        (reached first (by simp) walk (.refl walk) invariant)
      obtain ⟨later, endedRest, keptRest, growsRest, seenRest⟩ := inductionHypothesis
        (fun pattern member => each pattern (by simp [member])) kept
        fun pattern member later further => reached pattern (by simp [member]) later
          (grows.trans further)
      refine ⟨later, ?_, keptRest, grows.trans growsRest, fun pattern member => ?_⟩
      · change (visitOne first >>= fun _ => rest.forM visitOne) walk = _
        rw [bind_ok ended]
        exact endedRest
      · rcases List.mem_cons.mp member with same | member
        · exact growsRest.seen pattern (seen pattern (by simp [same]))
        · exact seenRest pattern member

/-- What is done below a new pattern keeps the invariant and finishes the pattern. -/
def Finishes (start : Graph) (rules : Rules) (root : PatternId) (path : List PatternId)
    (body : WalkM Unit) (walk : Walk) (pattern : PatternId) : Prop :=
  ∃ later, body walk = .ok () later ∧ Invariant start rules root (pattern :: path) later ∧
    walk.Before later ∧ later.Finished rules pattern

section Body

variable {pattern : PatternId} {visitOne : PatternId → WalkM Unit}

/-- Sub-patterns are led to strongly from the pattern. -/
theorem finishes_children
    (each : ∀ next walk, start.Grammar rules root next →
      Invariant start rules root (pattern :: path) walk →
        Relation.ReflTransGen walk.graph.LeadsStrongly root next →
          Visits start rules root (pattern :: path) (visitOne next) walk [next])
    (invariant : Invariant start rules root (pattern :: path) walk)
    (noReference : ∀ name cell, start.kind pattern ≠ .reference name cell) :
    Finishes start rules root path ((start.kind pattern).children.reverse.forM visitOne) walk
      pattern := by
  have seen := invariant.onPath pattern (by simp)
  have member := invariant.grammar pattern seen
  obtain ⟨later, ended, kept, grows, seenChildren⟩ := visits_forM
    (fun child isChild walk =>
      each child walk (member.tail (Or.inl (List.mem_reverse.mp isChild)))) invariant
    fun child isChild later further still => (still.strong pattern (further.seen pattern seen)).tail
      (Or.inl (by rw [still.kind]; exact List.mem_reverse.mp isChild))
  refine ⟨later, ended, kept, grows, fun next leads => ?_, fun name cell rule reference => ?_⟩
  · rcases leads with child | ⟨name, cell, reference, _⟩
    · rw [kept.kind] at child
      exact seenChildren next (List.mem_reverse.mpr child)
    · rw [kept.kind] at reference
      exact absurd reference (noReference name cell)
  · rw [kept.kind] at reference
    exact absurd reference (noReference name cell)

/-- A rule that is bound weakly has been come by, and one that is bound strongly is led to strongly
from the reference. -/
theorem finishes_reference (bindable : start.Bindable rules root)
    (each : ∀ next walk, start.Grammar rules root next →
      Invariant start rules root (pattern :: path) walk →
        Relation.ReflTransGen walk.graph.LeadsStrongly root next →
          Visits start rules root (pattern :: path) (visitOne next) walk [next])
    (invariant : Invariant start rules root (pattern :: path) walk) {name : String} {cell : CellId}
    (reference : start.kind pattern = .reference name cell) :
    Finishes start rules root path
      (do
        bindCell rules (pattern :: path) name cell
        match (← get).graph.target? cell with
        | some rule => visitOne rule
        | none => pure ()) walk pattern := by
  have member := invariant.grammar pattern (invariant.onPath pattern (by simp))
  obtain ⟨bound, ended, kept, grows, binds⟩ := invariant.bindCell bindable member reference
  have target := kept.target?_eq bindable member reference
  unfold Finishes
  rw [bind_ok ended]
  change ∃ later, (match bound.graph.target? cell with
    | some rule => visitOne rule
    | none => pure ()) bound = .ok () later ∧ _
  rw [target]
  cases content : (bound.graph.cell cell).rule? with
  | none =>
      refine ⟨bound, rfl, kept, grows, fun next leads => ?_, fun name' cell' rule found => ?_⟩
      · rcases leads with child | ⟨name', cell', found, leads⟩
        · rw [kept.kind, reference] at child
          cases child
        · rw [kept.kind, reference] at found
          cases found
          rw [content] at leads
          cases leads
      · rw [kept.kind, reference] at found
        cases found
        exact binds rule
  | some rule =>
      have own := kept.ownRule pattern name cell rule member reference content
      have memberRule := member.tail (Or.inr ⟨name, cell, reference, own⟩)
      have reaches : Relation.ReflTransGen bound.graph.LeadsStrongly root rule := by
        cases shape : bound.graph.cell cell with
        | unbound =>
            rw [shape] at content
            cases content
        | strong other =>
            rw [shape] at content
            cases content
            refine (kept.strong pattern (kept.onPath pattern (by simp))).tail ?_
            exact Or.inr ⟨name, cell, (kept.kind pattern).trans reference, shape⟩
        | weak other =>
            rw [shape] at content
            cases content
            exact kept.strong rule (kept.weak pattern name cell rule member reference shape)
      obtain ⟨later, endedRule, keptRule, growsRule, seenRule⟩ :=
        each rule bound memberRule kept reaches
      have notUnbound : bound.graph.cell cell ≠ .unbound := by
        intro same
        rw [same] at content
        cases content
      have still : (later.graph.cell cell).rule? = some rule := by
        rw [growsRule.bound cell notUnbound, content]
      refine ⟨later, endedRule, keptRule, grows.trans growsRule, fun next leads => ?_,
        fun name' cell' rule' found => ?_⟩
      · rcases leads with child | ⟨name', cell', found, leads⟩
        · rw [keptRule.kind, reference] at child
          cases child
        · rw [keptRule.kind, reference] at found
          cases found
          rw [still] at leads
          cases leads
          exact seenRule rule (by simp)
      · rw [keptRule.kind, reference] at found
        cases found
        intro named
        rw [still, ← own, named]

end Body

/-- A path without repetitions that is as long as the graph is large has every pattern on it. -/
theorem mem_path_of_full (nodup : path.Nodup)
    (inside : ∀ pattern ∈ path, pattern < start.slots.size)
    (full : start.slots.size ≤ path.length) {pattern : PatternId}
    (there : pattern < start.slots.size) : pattern ∈ path := by
  have below : path.toFinset ⊆ Finset.range start.slots.size := by
    intro other member
    exact Finset.mem_range.mpr (inside other (List.mem_toFinset.mp member))
  have same : path.toFinset = Finset.range start.slots.size := by
    apply Finset.eq_of_subset_of_card_le below
    rw [Finset.card_range, List.toFinset_card_of_nodup nodup]
    exact full
  exact List.mem_toFinset.mp (same ▸ Finset.mem_range.mpr there)

/-- Visiting a pattern of the grammar that is led to strongly raises no error and comes by it. The
room is enough because the path does not repeat itself. -/
theorem visits_visit (bindable : start.Bindable rules root) (room : Nat) {pattern : PatternId}
    (invariant : Invariant start rules root path walk) (nodup : path.Nodup)
    (enough : start.slots.size ≤ path.length + room)
    (member : start.Grammar rules root pattern)
    (reaches : Relation.ReflTransGen walk.graph.LeadsStrongly root pattern) :
    Visits start rules root path (visit rules room path pattern) walk [pattern] := by
  have inside : pattern < start.slots.size := lt_size_of_isLive (bindable.live member)
  have insideWalk : pattern < walk.visited.size := invariant.size ▸ inside
  induction room generalizing path walk pattern with
  | zero =>
      have onPath : pattern ∈ path := by
        refine mem_path_of_full nodup (fun other below => ?_) enough inside
        have memberOther := invariant.grammar other (invariant.onPath other below)
        exact lt_size_of_isLive (bindable.live memberOther)
      refine ⟨walk, rfl, invariant, .refl walk, fun other same => ?_⟩
      rw [List.mem_singleton.mp same]
      exact invariant.onPath pattern onPath
  | succ room inductionHypothesis =>
      by_cases seen : walk.Seen pattern
      · refine ⟨walk, visit_of_seen insideWalk seen room, invariant, .refl walk, ?_⟩
        intro other same
        rw [List.mem_singleton.mp same]
        exact seen
      · have longer : (pattern :: path).Nodup :=
          List.nodup_cons.mpr ⟨fun onPath => seen (invariant.onPath pattern onPath), nodup⟩
        obtain ⟨marked, grows⟩ := invariant.mark member reaches inside
        have each : ∀ next walk, start.Grammar rules root next →
            Invariant start rules root (pattern :: path) walk →
              Relation.ReflTransGen walk.graph.LeadsStrongly root next →
                Visits start rules root (pattern :: path) (visit rules room (pattern :: path) next)
                  walk [next] := by
          intro next walk memberNext kept reachesNext
          have there := lt_size_of_isLive (bindable.live memberNext)
          refine inductionHypothesis kept longer ?_ memberNext reachesNext there (kept.size ▸ there)
          rw [List.length_cons]
          omega
        have finishes : ∃ later, visit rules (room + 1) path pattern walk = .ok () later ∧
            Invariant start rules root (pattern :: path) later ∧
              (walk.mark pattern).Before later ∧ later.Finished rules pattern := by
          by_cases reference : ∃ name cell, start.kind pattern = .reference name cell
          · obtain ⟨name, cell, reference⟩ := reference
            have sameKind := (invariant.kind pattern).trans reference
            rw [visit_of_new_reference insideWalk seen sameKind room]
            exact finishes_reference bindable each marked reference
          · have noReference : ∀ name cell, start.kind pattern ≠ .reference name cell :=
              fun name cell found => reference ⟨name, cell, found⟩
            have sameKind := invariant.kind pattern
            rw [visit_of_new_other insideWalk seen (sameKind ▸ noReference) room, sameKind]
            exact finishes_children each marked noReference
        obtain ⟨later, ended, kept, growsLater, finished⟩ := finishes
        refine ⟨later, ended, kept.leave finished, grows.trans growsLater, fun other same => ?_⟩
        rw [List.mem_singleton.mp same]
        exact kept.onPath pattern (by simp)

end Walk

end Graph

end PegEngine
