import PegEngine.Proofs.Graph.Steps

/-!
Contract: what binding comes to, for any root and any rules.

References may have been bound before, may share their cells and may lead back to where they are.
Binding never changes a cell that is bound. If it raises no error, every reference that can be
reached then resolves to the rule of its name, unless it held a rule weakly that is gone, and
binding once more finds nothing left to do.

Owns:
- `visit_room`, that there is room enough for every node;
- `Walk.Done`, that the walk has gone on from a node and its reference is bound;
- `Completes` and `Clashes`, the two ends of binding, and `bind_completes`.
-/

namespace PegEngine

namespace Graph

namespace Walk

variable {rules : Rules} {root pattern : PatternId} {path patterns : List PatternId}
  {walk middle later final : Walk}

/-! ## Room for every node -/

theorem Onward.hasVisited (onward : walk.Onward later) (visited : walk.hasVisited pattern = true) :
    later.hasVisited pattern = true := by
  by_cases inside : pattern < walk.visited.size
  · have seen := onward.seen pattern ((hasVisited_iff inside).mp visited)
    exact (hasVisited_iff (onward.size ▸ inside)).mpr seen
  · have outside : ¬ pattern < later.visited.size := onward.size ▸ inside
    simp [Walk.hasVisited, Array.getD, outside]

/-- Two actions do the same if their first parts do, and then what follows. -/
theorem bind_congr {α β : Type} {action other : WalkM α} {next otherNext : α → WalkM β}
    (first : action walk = other walk)
    (rest : ∀ value middle, action walk = .ok value middle →
      next value middle = otherNext value middle) :
    (action >>= next) walk = (other >>= otherNext) walk := by
  change EStateM.bind action next walk = EStateM.bind other otherNext walk
  unfold EStateM.bind
  rw [← first]
  cases ended : action walk with
  | ok value middle => exact rest value middle ended
  | error error middle => rfl

/-- Where there is room enough, more room makes no difference. -/
theorem visit_room {room : Nat} (roomy : walk.Roomy path room) (pattern : PatternId) :
    visit rules (room + 1) path pattern walk = visit rules room path pattern walk := by
  induction room generalizing path pattern walk with
  | zero => exact visit_of_hasVisited (roomy.hasVisited pattern) 0
  | succ room inductionHypothesis =>
      cases visited : walk.hasVisited pattern with
      | true => rw [visit_of_hasVisited visited, visit_of_hasVisited visited]
      | false =>
          have inside := inside_of_new visited
          have new := not_seen_of_new visited
          have below := roomy.mark visited
          by_cases reference : ∃ name cell, walk.graph.kind pattern = .reference name cell
          · obtain ⟨name, cell, kind⟩ := reference
            rw [visit_of_new_reference inside new kind, visit_of_new_reference inside new kind]
            apply bind_congr rfl
            intro _ bound binds
            rw [get_bind_apply, get_bind_apply]
            cases bound.graph.target? cell with
            | none => rfl
            | some rule => exact inductionHypothesis (below.onward (onward_bindCell binds)) rule
          · have noReference : ∀ name cell, walk.graph.kind pattern ≠ .reference name cell :=
              fun name cell found => reference ⟨name, cell, found⟩
            rw [visit_of_new_other inside new noReference, visit_of_new_other inside new noReference]
            generalize (walk.graph.kind pattern).children.reverse = patterns
            generalize walk.mark pattern = marked at below
            induction patterns generalizing marked with
            | nil => rfl
            | cons first rest restHypothesis =>
                apply bind_congr (inductionHypothesis below first)
                intro _ middle ended
                rw [inductionHypothesis below first] at ended
                exact restHypothesis middle (below.onward (goes_of_visit below ended).onward)

/-! ## Nodes that the walk has gone on from -/

theorem Goes.visited (goes : Goes rules path patterns walk later) :
    ∀ pattern ∈ patterns, later.hasVisited pattern = true := by
  induction goes with
  | done => nofun
  | known visited others inductionHypothesis =>
      exact List.forall_mem_cons.mpr ⟨others.onward.hasVisited visited, inductionHypothesis⟩
  | @node path rest pattern walk middle later new noReference below others _ inductionHypothesis =>
      have onward := below.onward.trans others.onward
      have seen := onward.seen pattern
        ((seen_mark_iff (inside_of_new new) pattern).mpr (Or.inl rfl))
      exact List.forall_mem_cons.mpr ⟨(hasVisited_iff seen.lt_size).mpr seen, inductionHypothesis⟩
  | @reference path rest pattern name cell walk bound middle later new kind binds below others _
      inductionHypothesis =>
      have onward := (onward_bindCell binds).trans (below.onward.trans others.onward)
      have seen := onward.seen pattern
        ((seen_mark_iff (inside_of_new new) pattern).mpr (Or.inl rfl))
      exact List.forall_mem_cons.mpr ⟨(hasVisited_iff seen.lt_size).mpr seen, inductionHypothesis⟩

/-- In the end the walk has come by all that the pattern leads to. If it refers to a rule, its cell
is bound, and to no other rule. -/
structure Done (rules : Rules) (final : Walk) (pattern : PatternId) : Prop where
  leads : ∀ next, final.graph.Resolves pattern next → final.hasVisited next = true
  bound : ∀ name cell rule, final.graph.kind pattern = .reference name cell →
    rules.lookup name = some rule → final.graph.cell cell ≠ .unbound ∧
      ∀ other, final.graph.target? cell = some other → other = rule

/-- A cell that is the same at the end as at the beginning is so between. -/
theorem Onward.between (first : walk.Onward middle) (second : middle.Onward later) {cell : CellId}
    (same : later.graph.cell cell = walk.graph.cell cell) :
    later.graph.cell cell = middle.graph.cell cell := by
  by_cases bound : middle.graph.cell cell = .unbound
  · by_cases before : walk.graph.cell cell = .unbound
    · rw [same, before, bound]
    · exact absurd ((first.bound cell before).symm.trans bound) before
  · exact second.bound cell bound

theorem Onward.target?_eq (onward : walk.Onward later) {cell : CellId}
    (same : later.graph.cell cell = walk.graph.cell cell) :
    later.graph.target? cell = walk.graph.target? cell := by
  have live : later.graph.isLive = walk.graph.isLive := funext onward.isLive
  unfold Graph.target?
  rw [same, live]

/-- A reference that is left or bound without an error resolves to no other rule than that of its
name. -/
theorem eq_of_bindCell {name : String} {cell : CellId} {rule other : PatternId}
    (there : cell < walk.graph.cells.size) (named : rules.lookup name = some rule)
    (ended : bindCell rules path name cell walk = .ok () later)
    (target : later.graph.target? cell = some other) : other = rule := by
  rcases bindCell_cases ended with ⟨same, _⟩ | ⟨named', found, _, written⟩
  · subst same
    unfold bindCell at ended
    rw [named] at ended
    simp only [target] at ended
    split at ended
    · next same => exact same
    · cases ended
  · cases named.symm.trans found
    have content := cell_write there (if rule ∈ path then .weak rule else .strong rule) cell
    rw [if_pos rfl, ← written] at content
    have isRule := rule?_of_target? target
    rw [content] at isRule
    split at isRule <;> exact (Option.some.inj isRule).symm

theorem size_cells_bindCell {name : String} {cell : CellId}
    (ended : bindCell rules path name cell walk = .ok () later) :
    later.graph.cells.size = walk.graph.cells.size := by
  rcases bindCell_cases ended with ⟨same, _⟩ | ⟨rule, _, _, written⟩
  · rw [same]
  · simp [written, write]

theorem Goes.size_cells (goes : Goes rules path patterns walk later) :
    later.graph.cells.size = walk.graph.cells.size := by
  induction goes with
  | done => rfl
  | known _ _ inductionHypothesis => exact inductionHypothesis
  | node _ _ _ _ below others => exact others.trans below
  | reference _ _ binds _ _ below others =>
      rw [others, below, size_cells_bindCell binds]
      rfl

/-- The walk is on the way to `final`. References have cells, and those that no rule has the name of
stay as they are. -/
structure Towards (rules : Rules) (final walk : Walk) : Prop where
  onward : walk.Onward final
  there : ∀ pattern name cell, final.graph.kind pattern = .reference name cell →
    cell < walk.graph.cells.size
  unnamed : ∀ pattern name cell, final.graph.kind pattern = .reference name cell →
    rules.lookup name = none → final.graph.cell cell = walk.graph.cell cell

theorem Towards.further (towards : Towards rules final walk) (first : walk.Onward middle)
    (second : middle.Onward final)
    (size : middle.graph.cells.size = walk.graph.cells.size) : Towards rules final middle where
  onward := second
  there pattern name cell reference := by
    rw [size]
    exact towards.there pattern name cell reference
  unnamed pattern name cell reference nameless :=
    first.between second (towards.unnamed pattern name cell reference nameless)

/-- A reference is done once the walk has come by the rule that it resolves to. -/
theorem done_of_reference {name : String} {cell : CellId} {bound : Walk}
    (towards : Towards rules final walk) (kind : final.graph.kind pattern = .reference name cell)
    (binds : bindCell rules path name cell walk = .ok () bound) (onward : bound.Onward final)
    (target : ∀ next, bound.graph.target? cell = some next → final.hasVisited next = true) :
    Done rules final pattern := by
  have there := towards.there pattern name cell kind
  have first := onward_bindCell binds
  -- From here on the cell does not change, whether or not there is a rule of its name.
  have same : final.graph.cell cell = bound.graph.cell cell := by
    cases named : rules.lookup name with
    | none => exact first.between onward (towards.unnamed pattern name cell kind named)
    | some rule => exact onward.bound cell (bindCell_binds there named binds).1
  have sameTarget := onward.target?_eq same
  refine ⟨fun next resolves => ?_, fun name' cell' rule found named => ?_⟩
  · rcases resolves with child | ⟨name', cell', found, leads⟩
    · rw [kind] at child
      cases child
    · rw [kind] at found
      cases found
      exact target next (sameTarget ▸ leads)
  · rw [kind] at found
    cases found
    rw [same]
    refine ⟨(bindCell_binds there named binds).1, fun other leads => ?_⟩
    exact eq_of_bindCell there named binds (sameTarget ▸ leads)

/-- Any other node is done once the walk has come by its sub-patterns. -/
theorem done_of_noReference
    (noReference : ∀ name cell, final.graph.kind pattern ≠ .reference name cell)
    (children : ∀ child ∈ (final.graph.kind pattern).children, final.hasVisited child = true) :
    Done rules final pattern where
  leads next resolves := by
    rcases resolves with child | ⟨name, cell, found, _⟩
    · exact children next child
    · exact absurd found (noReference name cell)
  bound name cell rule found := absurd found (noReference name cell)

/-- What a walk goes into it is done with in the end. -/
theorem Goes.finishes (goes : Goes rules path patterns walk later) (onward : later.Onward final)
    (towards : Towards rules final walk) (visited : later.hasVisited pattern = true) :
    walk.hasVisited pattern = true ∨ Done rules final pattern := by
  induction goes with
  | done => exact Or.inl visited
  | known _ _ inductionHypothesis => exact inductionHypothesis onward towards visited
  | @node path rest entered walk middle later new noReference below others belowHypothesis
      othersHypothesis =>
      have marked := onward_mark (inside_of_new new)
      have onwardMiddle := others.onward.trans onward
      have towardsMarked := towards.further marked (below.onward.trans onwardMiddle) rfl
      have towardsMiddle := towardsMarked.further below.onward onwardMiddle below.size_cells
      rcases othersHypothesis onward towardsMiddle visited with before | finished
      · rcases belowHypothesis onwardMiddle towardsMarked before with before | finished
        · rw [hasVisited_mark, Bool.or_eq_true, beq_iff_eq] at before
          rcases before with same | before
          · subst same
            have sameKind := (marked.trans (below.onward.trans onwardMiddle)).kind pattern
            refine Or.inr (done_of_noReference (sameKind ▸ noReference) fun child member => ?_)
            rw [sameKind] at member
            exact onwardMiddle.hasVisited (below.visited child (List.mem_reverse.mpr member))
          · exact Or.inl before
        · exact Or.inr finished
      · exact Or.inr finished
  | @reference path rest entered name cell walk bound middle later new kind binds below others
      belowHypothesis othersHypothesis =>
      have marked := onward_mark (inside_of_new new)
      have onwardMiddle := others.onward.trans onward
      have onwardBound := below.onward.trans onwardMiddle
      have first := onward_bindCell binds
      have towardsMarked := towards.further marked (first.trans onwardBound) rfl
      have towardsBound := towardsMarked.further first onwardBound (size_cells_bindCell binds)
      have towardsMiddle := towardsBound.further below.onward onwardMiddle below.size_cells
      rcases othersHypothesis onward towardsMiddle visited with before | finished
      · rcases belowHypothesis onwardMiddle towardsBound before with before | finished
        · have earlier : (walk.mark entered).hasVisited pattern = true := by
            rcases bindCell_cases binds with ⟨same, _⟩ | ⟨_, _, _, written⟩
            · exact same ▸ before
            · rw [written] at before
              exact before
          rw [hasVisited_mark, Bool.or_eq_true, beq_iff_eq] at earlier
          rcases earlier with same | earlier
          · subst same
            have sameKind := (marked.trans (first.trans onwardBound)).kind pattern
            refine Or.inr (done_of_reference towardsMarked (sameKind.trans kind) binds onwardBound ?_)
            intro next target
            exact onwardMiddle.hasVisited (below.visited next (by simp [target]))
          · exact Or.inl earlier
        · exact Or.inr finished
      · exact Or.inr finished

end Walk

/-! ## Binding -/

section Binding

variable {graph bound : Graph} {rules : Rules} {root : PatternId}

/-- What binding has come to when it raised no error. -/
structure Completes (graph : Graph) (rules : Rules) (root : PatternId) (count : Nat)
    (bound : Graph) : Prop where
  /-- A reference that can be reached resolves to the rule of its name, unless it held a rule weakly
  before that is gone. -/
  resolved : ∀ pattern name cell rule, Relation.ReflTransGen bound.Resolves root pattern →
    bound.kind pattern = .reference name cell → rules.lookup name = some rule →
      bound.target? cell = some rule ∨
        ∃ gone, graph.cell cell = .weak gone ∧ graph.isLive gone = false
  /-- A reference without a rule of its name is as before. -/
  unnamed : ∀ pattern name cell, bound.kind pattern = .reference name cell →
    rules.lookup name = none → bound.cell cell = graph.cell cell
  counted : count = (graph.boundSince bound).card
  /-- There is nothing left to bind. -/
  again : bound.bind root rules = (.ok 0, bound)

/-- A reference that can be reached was bound before, and resolves to another rule than the one of
its name. -/
def Clashes (graph : Graph) (rules : Rules) (root : PatternId) (error : PatternError)
    (bound : Graph) : Prop :=
  ∃ pattern name cell rule other, Relation.ReflTransGen bound.Resolves root pattern ∧
    bound.kind pattern = .reference name cell ∧ rules.lookup name = some rule ∧
    graph.target? cell = some other ∧ other ≠ rule ∧ error = .referenceRebound name

namespace Walk

theorem not_seen_start (graph : Graph) (pattern : PatternId) : ¬ (start graph).Seen pattern := by
  intro seen
  simp [Seen, start, Array.getElem?_replicate] at seen

theorem roomy_start (graph : Graph) (more : Nat) :
    (start graph).Roomy [] (graph.slots.size + more) where
  nodup := List.nodup_nil
  size := by simp [start]
  visited pattern member := nomatch member
  enough := by simp [start]

theorem takes_start (graph : Graph) (rules : Rules) (root : PatternId) (room : Nat) :
    Takes rules root (visit rules room [] root) (start graph) :=
  takes_visit room (Or.inl rfl) fun _ member => nomatch member

/-- At the beginning only places outside of the graph count as visited. -/
theorem done_of_visited {walk : Walk} {pattern : PatternId}
    (goes : Goes rules [] [root] (start graph) walk) (coherent : graph.Coherent)
    (unnamed : ∀ pattern name cell, walk.graph.kind pattern = .reference name cell →
      rules.lookup name = none → walk.graph.cell cell = graph.cell cell)
    (visited : walk.hasVisited pattern = true) : Done rules walk pattern := by
  have kinds := goes.onward.kind
  have towards : Towards rules walk (start graph) :=
    ⟨goes.onward, fun other name cell found =>
      coherent.cellThere other name cell ((kinds other).symm.trans found), unnamed⟩
  rcases goes.finishes (.refl walk) towards visited with before | finished
  · have outside : graph.kind pattern = .constant false := by
      apply kind_of_node?_eq_none
      by_contra there
      obtain ⟨node, found⟩ := Option.ne_none_iff_exists'.mp there
      have inside : pattern < (start graph).visited.size := by
        simpa [start] using lt_size_of_node? found
      exact not_seen_start graph pattern ((hasVisited_iff inside).mp before)
    have sameKind := (kinds pattern).trans outside
    apply done_of_noReference
    · intro name cell found
      rw [sameKind] at found
      cases found
    · intro child member
      rw [sameKind] at member
      cases member
  · exact finished

theorem visited_of_reaches {walk : Walk} {pattern : PatternId}
    (visitedRoot : walk.hasVisited root = true)
    (done : ∀ pattern, walk.hasVisited pattern = true → Done rules walk pattern)
    (reaches : Relation.ReflTransGen walk.graph.Resolves root pattern) :
    walk.hasVisited pattern = true := by
  induction reaches with
  | refl => exact visitedRoot
  | tail _ resolves visited => exact (done _ visited).leads _ resolves

/-- Where every reference is bound to the rule of its name, a walk changes nothing. -/
theorem Steps.still {entered : List PatternId} {later : Walk}
    (steps : Steps rules root (start bound) entered later)
    (isBound : ∀ pattern name cell rule, Relation.ReflTransGen bound.Resolves root pattern →
      bound.kind pattern = .reference name cell → rules.lookup name = some rule →
        bound.cell cell ≠ .unbound) : later.graph = bound ∧ later.bound = 0 := by
  induction steps with
  | none => exact ⟨rfl, rfl⟩
  | enter _ _ _ inductionHypothesis => exact inductionHypothesis
  | @bind entered path walk later pattern name cell before seen reference above ended
      inductionHypothesis =>
      obtain ⟨same, count⟩ := inductionHypothesis
      rcases bindCell_cases ended with ⟨sameWalk, _⟩ | ⟨rule, named, unbound, _⟩
      · exact sameWalk ▸ ⟨same, count⟩
      · have reaches := before.reaches (not_seen_start bound) seen
        rw [same] at reaches reference unbound
        exact absurd unbound (isBound pattern name cell rule reaches reference named)

end Walk

theorem bind_again
    (isBound : ∀ pattern name cell rule, Relation.ReflTransGen bound.Resolves root pattern →
      bound.kind pattern = .reference name cell → rules.lookup name = some rule →
        bound.cell cell ≠ .unbound ∧ ∀ other, bound.target? cell = some other → other = rule) :
    bound.bind root rules = (.ok 0, bound) := by
  have takes := Walk.takes_start bound rules root bound.slots.size
  obtain ⟨entered, steps⟩ := takes.steps
  obtain ⟨same, count⟩ := steps.still fun pattern name cell rule reaches reference named =>
    (isBound pattern name cell rule reaches reference named).1
  unfold bind
  cases ended : visit rules bound.slots.size [] root (.start bound) with
  | ok value walk =>
      rw [ended] at same count
      simp only [Walk.reached] at same count
      simp only [same, count]
  | error error walk =>
      rw [ended] at same steps
      simp only [Walk.reached] at same steps
      obtain ⟨pattern, name, cell, rule, other, seen, reference, named, target, differs, _⟩ :=
        takes.refuses error walk ended
      have reaches := steps.reaches (Walk.not_seen_start bound) seen
      rw [same] at reaches reference target
      exact absurd ((isBound pattern name cell rule reaches reference named).2 other target) differs

theorem bind_snd (graph : Graph) (root : PatternId) (rules : Rules) :
    (graph.bind root rules).2 =
      (Walk.reached (visit rules graph.slots.size [] root (.start graph))).graph := by
  unfold bind
  split <;> next ended => rw [ended]; rfl

theorem visit_of_room (graph : Graph) (rules : Rules) (root : PatternId) {room : Nat}
    (enough : graph.slots.size ≤ room) :
    visit rules room [] root (.start graph) =
      visit rules graph.slots.size [] root (.start graph) := by
  induction room, enough using Nat.le_induction with
  | base => rfl
  | succ room enough inductionHypothesis =>
      have roomy := Walk.roomy_start graph (room - graph.slots.size)
      rw [Nat.add_sub_cancel' enough] at roomy
      rw [Walk.visit_room roomy, inductionHypothesis]

/-- A cell that is bound and resolves to nothing holds a rule weakly that is gone. -/
theorem weak_of_target? {cell : CellId} (bound : graph.cell cell ≠ .unbound)
    (target : graph.target? cell = none) :
    ∃ gone, graph.cell cell = .weak gone ∧ graph.isLive gone = false := by
  unfold target? at target
  split at target
  · next unbound => exact absurd unbound bound
  · cases target
  · next gone weak =>
      split at target
      · cases target
      · next dead => exact ⟨gone, weak, by simpa using dead⟩

/-- A call that raises no error has bound all that it can. -/
theorem completes_of_ok (coherent : graph.Coherent) {walk : Walk}
    (ended : visit rules graph.slots.size [] root (.start graph) = .ok () walk) :
    Completes graph rules root walk.bound walk.graph := by
  have goes := Walk.goes_of_visit (Walk.roomy_start graph 0) ended
  obtain ⟨entered, steps⟩ := (Walk.takes_start graph rules root graph.slots.size).steps
  rw [ended, Walk.reached] at steps
  have kinds := goes.onward.kind
  -- References that share a cell have the rule of one name.
  have written : ∀ pattern name cell, walk.graph.kind pattern = .reference name cell →
      graph.cell cell = .unbound → walk.graph.cell cell ≠ .unbound →
        ∃ rule, rules.lookup name = some rule ∧ walk.graph.target? cell = some rule := by
    intro pattern name cell kind unbound bound
    obtain ⟨other, name', rule, _, kindOther, named, target⟩ := steps.written unbound bound
    have sameName := coherent.oneName pattern other name name' cell
      ((kinds pattern).symm.trans kind) kindOther
    exact ⟨rule, sameName ▸ named, target⟩
  have unnamed : ∀ pattern name cell, walk.graph.kind pattern = .reference name cell →
      rules.lookup name = none → walk.graph.cell cell = graph.cell cell := by
    intro pattern name cell kind nameless
    by_cases before : graph.cell cell = .unbound
    · by_contra changed
      obtain ⟨rule, named, _⟩ := written pattern name cell kind before (before ▸ changed)
      rw [nameless] at named
      cases named
    · exact goes.onward.bound cell before
  have done : ∀ pattern, walk.hasVisited pattern = true → Walk.Done rules walk pattern :=
    fun pattern => Walk.done_of_visited goes coherent unnamed
  have bounds : ∀ pattern name cell rule, Relation.ReflTransGen walk.graph.Resolves root pattern →
      walk.graph.kind pattern = .reference name cell → rules.lookup name = some rule →
        walk.graph.cell cell ≠ .unbound ∧
          ∀ other, walk.graph.target? cell = some other → other = rule := by
    intro pattern name cell rule reaches kind named
    have visited := Walk.visited_of_reaches (goes.visited root (by simp)) done reaches
    exact (done pattern visited).bound name cell rule kind named
  refine ⟨fun pattern name cell rule reaches kind named => ?_, unnamed, ?_, bind_again bounds⟩
  · obtain ⟨bound, only⟩ := bounds pattern name cell rule reaches kind named
    cases target : walk.graph.target? cell with
    | some other => exact Or.inl (congrArg some (only other target))
    | none =>
        right
        by_cases before : graph.cell cell = .unbound
        · obtain ⟨other, _, found⟩ := written pattern name cell kind before bound
          rw [target] at found
          cases found
        · have same := goes.onward.bound cell before
          exact weak_of_target? before ((goes.onward.target?_eq same).symm.trans target)
  · have counted := (steps.count coherent.cellThere).2
    simpa [Walk.start] using counted

/-- A call breaks off at a reference that was bound before. -/
theorem clashes_of_error (coherent : graph.Coherent) {error : PatternError} {walk : Walk}
    (ended : visit rules graph.slots.size [] root (.start graph) = .error error walk) :
    Clashes graph rules root error walk.graph := by
  have takes := Walk.takes_start graph rules root graph.slots.size
  obtain ⟨entered, steps⟩ := takes.steps
  rw [ended, Walk.reached] at steps
  obtain ⟨pattern, name, cell, rule, other, seen, kind, named, target, differs, isError⟩ :=
    takes.refuses error walk ended
  have reaches := steps.reaches (Walk.not_seen_start graph) seen
  refine ⟨pattern, name, cell, rule, other, reaches, kind, named, ?_, differs, isError⟩
  by_cases before : graph.cell cell = .unbound
  · have bound : walk.graph.cell cell ≠ .unbound := by
      intro unbound
      simp [target?, unbound] at target
    obtain ⟨first, name', rule', _, kindFirst, named', target'⟩ := steps.written before bound
    have sameName := coherent.oneName pattern first name name' cell
      ((steps.onward.kind pattern).symm.trans kind) kindFirst
    subst sameName
    cases named.symm.trans named'
    exact absurd (Option.some.inj (target.symm.trans target')) differs
  · exact (steps.onward.target?_eq (steps.onward.bound cell before)).symm.trans target

/-- Binding ends for every root and every set of rules, and goes into no node twice. It changes no
cell that was bound, also when it ends in an error. Without an error all references that can be
reached are bound to their rules and binding again changes nothing; the error is that one of them
was bound to something else before. -/
theorem bind_completes (coherent : graph.Coherent) (root : PatternId) (rules : Rules) :
    let walked := visit rules graph.slots.size [] root (.start graph)
    let bound := (graph.bind root rules).2
    (∀ room, graph.slots.size ≤ room → visit rules room [] root (.start graph) = walked) ∧
      (∃ entered, Walk.Steps rules root (.start graph) entered (Walk.reached walked) ∧
        entered.Nodup) ∧
      (∀ cell, graph.cell cell ≠ .unbound → bound.cell cell = graph.cell cell) ∧
      (∀ count, (graph.bind root rules).1 = .ok count →
        Completes graph rules root count bound) ∧
      ∀ error, (graph.bind root rules).1 = .error error →
        Clashes graph rules root error bound := by
  intro walked bound
  obtain ⟨entered, steps⟩ := (Walk.takes_start graph rules root graph.slots.size).steps
  have same : bound = (Walk.reached walked).graph := bind_snd graph root rules
  refine ⟨fun room => visit_of_room graph rules root, ⟨entered, steps, steps.nodup.1⟩,
    fun cell before => ?_, fun count found => ?_, fun error failed => ?_⟩
  · rw [same]
    exact steps.onward.bound cell before
  · unfold bind at found
    cases ended : visit rules graph.slots.size [] root (.start graph) with
    | ok value walk =>
        rw [ended] at found
        cases found
        rw [same, show walked = .ok value walk from ended]
        exact completes_of_ok coherent ended
    | error error walk =>
        rw [ended] at found
        cases found
  · unfold bind at failed
    cases ended : visit rules graph.slots.size [] root (.start graph) with
    | ok value walk =>
        rw [ended] at failed
        cases failed
    | error error walk =>
        rw [ended] at failed
        cases failed
        rw [same, show walked = .error _ walk from ended]
        exact clashes_of_error coherent ended

end Binding

/-- A recursive rule with two references to itself that share a cell, beside a reference that was
bound before, one whose rule is gone, and one to a rule that there is not. -/
def partlyBound : Graph where
  slots := #[
    some { kind := .literal ['a'] },
    some { kind := .reference "rule" 0 },
    some { kind := .reference "rule" 0, name := some "copy" },
    some { kind := .sequence [0, 1, 2], name := some "rule" },
    some { kind := .reference "word" 1 },
    some { kind := .literal ['w'], name := some "word" },
    some { kind := .reference "lost" 2 },
    none,
    some { kind := .reference "other" 3 },
    some { kind := .choice [3, 4, 6, 8] }]
  cells := #[.unbound, .strong 5, .weak 7, .unbound]

theorem coherent_partlyBound : partlyBound.Coherent :=
  .of_slots (by decide) (by decide) (by decide)

/-- Only the recursive rule is bound, and weakly. With another rule for the word there is an
error, and the reference to the word stays as it is. -/
theorem bind_completes_partlyBound :
    let rules := [("rule", 3), ("word", 5), ("lost", 5)]
    let bound := (partlyBound.bind 9 rules).2
    bound.cells = #[.weak 3, .strong 5, .weak 7, .unbound] ∧
      Completes partlyBound rules 9 1 bound ∧ bound.bind 9 rules = (.ok 0, bound) ∧
      Clashes partlyBound [("word", 0)] 9 (.referenceRebound "word")
        (partlyBound.bind 9 [("word", 0)]).2 := by
  intro rules bound
  obtain ⟨-, -, -, completes, -⟩ := bind_completes coherent_partlyBound 9 rules
  obtain ⟨-, -, -, -, clashes⟩ := bind_completes coherent_partlyBound 9 [("word", 0)]
  have ended := completes 1 rfl
  exact ⟨by decide, ended, ended.again, clashes _ rfl⟩

end Graph

end PegEngine
