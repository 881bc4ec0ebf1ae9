import Mathlib.Data.Finset.Range
import PegEngine.Proofs.Graph.Course

/-!
Contract: the steps of a binding walk, whether it comes to its end or breaks off with an error.

A walk goes into a node, or it binds the cell of a reference that it has come by. What holds of it
at any moment is shown for one step here and for any number of steps by induction on them, without
regard to the order in which nodes are visited.

Owns:
- `Graph.Resolves`, from a pattern to those that a walk goes on to;
- `Graph.boundSince`, the cells that are bound in a later graph only;
- `Walk.Steps`, any number of steps, with the nodes gone into;
- `takes_visit`, that every visit takes such steps, and why it breaks off if it does.
-/

namespace PegEngine

namespace Graph

/-- From a pattern to its sub-patterns, and from a reference to the rule that it resolves to. -/
def Resolves (graph : Graph) (pattern next : PatternId) : Prop :=
  next ∈ (graph.kind pattern).children ∨
    ∃ name cell, graph.kind pattern = .reference name cell ∧ graph.target? cell = some next

/-- The cells that are unbound in a graph and bound in a later one. -/
def boundSince (graph later : Graph) : Finset CellId :=
  (Finset.range later.cells.size).filter fun cell =>
    graph.cell cell = .unbound ∧ later.cell cell ≠ .unbound

namespace Walk

variable {rules : Rules} {root pattern : PatternId} {path entered : List PatternId}
  {first walk middle later : Walk}

/-- The walk goes on to the pattern: it begins with it, or has come by one that leads to it. -/
def ComesTo (root : PatternId) (walk : Walk) (pattern : PatternId) : Prop :=
  pattern = root ∨ ∃ earlier, walk.Seen earlier ∧ walk.graph.Resolves earlier pattern

/-- Steps of a walk from its moment `first`. The nodes gone into come with them, the last one
first. -/
inductive Steps (rules : Rules) (root : PatternId) (first : Walk) :
    List PatternId → Walk → Prop where
  | none : Steps rules root first [] first
  | enter {entered : List PatternId} {walk : Walk} {pattern : PatternId}
      (before : Steps rules root first entered walk) (new : walk.hasVisited pattern = false)
      (comes : walk.ComesTo root pattern) :
      Steps rules root first (pattern :: entered) (walk.mark pattern)
  | bind {entered path : List PatternId} {walk later : Walk} {pattern : PatternId} {name : String}
      {cell : CellId} (before : Steps rules root first entered walk) (seen : walk.Seen pattern)
      (reference : walk.graph.kind pattern = .reference name cell)
      (above : ∀ other ∈ path, walk.graph.isLive other = true)
      (ended : bindCell rules path name cell walk = .ok () later) :
      Steps rules root first entered later

/-- The walk has come by a reference that resolves to another rule than the one of its name. -/
def Refuses (rules : Rules) (walk : Walk) (error : PatternError) : Prop :=
  ∃ pattern name cell rule other, walk.Seen pattern ∧
    walk.graph.kind pattern = .reference name cell ∧ rules.lookup name = some rule ∧
    walk.graph.target? cell = some other ∧ other ≠ rule ∧ error = .referenceRebound name

theorem bindCell_error {name : String} {cell : CellId} {error : PatternError}
    (ended : bindCell rules path name cell walk = .error error later) :
    later = walk ∧ ∃ rule other, rules.lookup name = some rule ∧
      walk.graph.target? cell = some other ∧ other ≠ rule ∧ error = .referenceRebound name := by
  unfold bindCell at ended
  cases found : rules.lookup name with
  | none =>
      rw [found] at ended
      cases ended
  | some rule =>
      rw [found] at ended
      dsimp only at ended
      split at ended
      · next other target =>
          split at ended
          · cases ended
          · next differs =>
              cases ended
              exact ⟨rfl, rule, other, rfl, target, differs, rfl⟩
      · split at ended <;> cases ended

/-- Binding a cell comes by no pattern. -/
theorem seen_of_bindCell {name : String} {cell : CellId}
    (ended : bindCell rules path name cell walk = .ok () later) (seen : later.Seen pattern) :
    walk.Seen pattern := by
  rcases bindCell_cases ended with ⟨same, _⟩ | ⟨rule, _, _, written⟩
  · exact same ▸ seen
  · rw [written] at seen
    exact seen

/-- A cell that is bound for the first time is one more than before. -/
theorem boundSince_write {graph : Graph} {cell : CellId} {rule : PatternId} {binding : Cell}
    (there : cell < walk.graph.cells.size) (unbound : graph.cell cell = .unbound)
    (toRule : binding.rule? = some rule) :
    graph.boundSince (walk.write cell binding).graph =
      insert cell (graph.boundSince walk.graph) := by
  have bound : binding ≠ .unbound := by
    intro same
    subst same
    cases toRule
  have size : (walk.write cell binding).graph.cells.size = walk.graph.cells.size := by
    simp [write]
  ext other
  simp only [boundSince, Finset.mem_insert, Finset.mem_filter, Finset.mem_range, size,
    cell_write there]
  by_cases same : other = cell
  · subst same
    simp [there, unbound, bound]
  · simp [same]

/-! ## What holds after any number of steps -/

theorem Onward.kind (onward : walk.Onward later) (pattern : PatternId) :
    later.graph.kind pattern = walk.graph.kind pattern :=
  kind_congr (node?_eq onward.slots pattern)

theorem Onward.isLive (onward : walk.Onward later) (pattern : PatternId) :
    later.graph.isLive pattern = walk.graph.isLive pattern :=
  isLive_congr (node?_eq onward.slots pattern)

/-- A reference that resolves to a rule still does later. -/
theorem Onward.target? (onward : walk.Onward later) {cell : CellId} {rule : PatternId}
    (target : walk.graph.target? cell = some rule) : later.graph.target? cell = some rule := by
  have bound : walk.graph.cell cell ≠ .unbound := by
    intro unbound
    simp [Graph.target?, unbound] at target
  have live : later.graph.isLive = walk.graph.isLive := funext onward.isLive
  unfold Graph.target? at target ⊢
  rw [onward.bound cell bound, live]
  exact target

theorem Onward.resolves (onward : walk.Onward later) {next : PatternId}
    (resolves : walk.graph.Resolves pattern next) : later.graph.Resolves pattern next := by
  unfold Resolves at resolves ⊢
  rw [onward.kind]
  rcases resolves with child | ⟨name, cell, reference, target⟩
  · exact Or.inl child
  · exact Or.inr ⟨name, cell, reference, onward.target? target⟩

theorem ComesTo.onward (comes : walk.ComesTo root pattern) (onward : walk.Onward later) :
    later.ComesTo root pattern := by
  rcases comes with isRoot | ⟨earlier, seen, resolves⟩
  · exact Or.inl isRoot
  · exact Or.inr ⟨earlier, onward.seen earlier seen, onward.resolves resolves⟩

namespace Steps

theorem trans {others : List PatternId} (steps : Steps rules root first entered middle)
    (further : Steps rules root middle others later) :
    Steps rules root first (others ++ entered) later := by
  induction further with
  | none => exact steps
  | enter _ new comes inductionHypothesis => exact .enter inductionHypothesis new comes
  | bind _ seen reference above ended inductionHypothesis =>
      exact .bind inductionHypothesis seen reference above ended

theorem onward (steps : Steps rules root first entered later) : first.Onward later := by
  induction steps with
  | none => exact .refl first
  | enter _ new _ inductionHypothesis =>
      exact inductionHypothesis.trans (onward_mark (inside_of_new new))
  | bind _ _ _ _ ended inductionHypothesis =>
      exact inductionHypothesis.trans (onward_bindCell ended)

/-- No node is gone into twice, since it has been come by then. -/
theorem nodup (steps : Steps rules root first entered later) :
    entered.Nodup ∧ ∀ pattern ∈ entered, later.Seen pattern := by
  induction steps with
  | none => exact ⟨List.nodup_nil, fun pattern member => nomatch member⟩
  | enter _ new _ inductionHypothesis =>
      obtain ⟨distinct, seen⟩ := inductionHypothesis
      refine ⟨List.nodup_cons.mpr ⟨fun again => not_seen_of_new new (seen _ again), distinct⟩, ?_⟩
      intro other member
      rw [seen_mark_iff (inside_of_new new)]
      exact (List.mem_cons.mp member).imp_right (seen other)
  | bind _ _ _ _ ended inductionHypothesis =>
      obtain ⟨distinct, seen⟩ := inductionHypothesis
      exact ⟨distinct, fun other member => (onward_bindCell ended).seen other (seen other member)⟩

/-- What a walk has come by can be reached from where it began. -/
theorem reaches (steps : Steps rules root first entered later)
    (nothing : ∀ pattern, ¬ first.Seen pattern) (seen : later.Seen pattern) :
    Relation.ReflTransGen later.graph.Resolves root pattern := by
  induction steps generalizing pattern with
  | none => exact absurd seen (nothing pattern)
  | enter _ new comes inductionHypothesis =>
      rcases (seen_mark_iff (inside_of_new new) pattern).mp seen with same | before
      · subst same
        rcases comes with isRoot | ⟨earlier, seenEarlier, resolves⟩
        · exact isRoot ▸ .refl
        · exact (inductionHypothesis seenEarlier).tail resolves
      · exact inductionHypothesis before
  | bind _ _ _ _ ended inductionHypothesis =>
      apply Relation.ReflTransGen.mono _ _ _ (inductionHypothesis (seen_of_bindCell ended seen))
      exact fun _ _ => (onward_bindCell ended).resolves

/-- A cell that is bound on the way is that of a reference that the walk has come by, which then
resolves to the rule of its name. -/
theorem written (steps : Steps rules root first entered later) {cell : CellId}
    (unbound : first.graph.cell cell = .unbound) (bound : later.graph.cell cell ≠ .unbound) :
    ∃ pattern name rule, later.Seen pattern ∧ first.graph.kind pattern = .reference name cell ∧
      rules.lookup name = some rule ∧ later.graph.target? cell = some rule := by
  induction steps with
  | none => exact absurd unbound bound
  | enter _ new _ inductionHypothesis =>
      obtain ⟨pattern, name, rule, seen, rest⟩ := inductionHypothesis bound
      exact ⟨pattern, name, rule, (onward_mark (inside_of_new new)).seen pattern seen, rest⟩
  | @bind entered path walk later pattern name other before seen reference above ended
      inductionHypothesis =>
      have onward := onward_bindCell ended
      by_cases earlier : walk.graph.cell cell = .unbound
      · rcases bindCell_cases ended with ⟨same, _⟩ | ⟨rule, named, _, written⟩
        · exact absurd (same ▸ earlier) bound
        · have same : cell = other := by
            by_contra differs
            rw [written, cell_write_of_ne differs] at bound
            exact bound earlier
          subst same
          have there : cell < walk.graph.cells.size := by
            by_contra outside
            rw [written] at bound
            simp [write, Graph.cell, Array.getD, outside] at bound
          refine ⟨pattern, name, rule, onward.seen pattern seen,
            (before.onward.kind pattern).symm.trans reference, named, ?_⟩
          have content := cell_write there (if rule ∈ path then .weak rule else .strong rule) cell
          rw [if_pos rfl] at content
          rw [written, Graph.target?, content]
          by_cases onPath : rule ∈ path
          · have live : (walk.write cell (.weak rule)).graph.isLive rule = true := above rule onPath
            simp [onPath, live]
          · simp [onPath]
      · obtain ⟨other, name', rule, seenOther, kind, named, target⟩ := inductionHypothesis earlier
        exact ⟨other, name', rule, onward.seen other seenOther, kind, named, onward.target? target⟩

/-- The number kept by the walk is that of the cells bound on the way. -/
theorem count (steps : Steps rules root first entered later)
    (there : ∀ pattern name cell, first.graph.kind pattern = .reference name cell →
      cell < first.graph.cells.size) :
    later.graph.cells.size = first.graph.cells.size ∧
      later.bound = first.bound + (first.graph.boundSince later.graph).card := by
  induction steps with
  | none =>
      refine ⟨rfl, ?_⟩
      have nothing : first.graph.boundSince first.graph = ∅ := by
        apply Finset.filter_eq_empty_iff.mpr
        exact fun cell _ bound => bound.2 bound.1
      rw [nothing]
      rfl
  | enter _ _ _ inductionHypothesis => exact inductionHypothesis
  | @bind entered path walk later pattern name cell before seen reference above ended
      inductionHypothesis =>
      rcases bindCell_cases ended with ⟨same, _⟩ | ⟨rule, _, unbound, written⟩
      · exact same ▸ inductionHypothesis
      · obtain ⟨size, counted⟩ := inductionHypothesis
        have inside : cell < walk.graph.cells.size :=
          size ▸ there pattern name cell ((before.onward.kind pattern).symm.trans reference)
        have unboundFirst : first.graph.cell cell = .unbound := by
          by_contra bound
          exact bound ((before.onward.bound cell bound).symm.trans unbound)
        have new : cell ∉ first.graph.boundSince walk.graph := by
          simp [boundSince, unbound]
        have toRule : (if rule ∈ path then Cell.weak rule else .strong rule).rule? = some rule := by
          split <;> rfl
        rw [written, boundSince_write inside unboundFirst toRule, Finset.card_insert_of_notMem new]
        refine ⟨?_, ?_⟩
        · simpa [write] using size
        · simp only [write, counted]
          omega

end Steps

/-! ## Every visit takes steps -/

/-- The moment at which a walk ended. -/
def reached : EStateM.Result PatternError Walk Unit → Walk
  | .ok _ walk | .error _ walk => walk

/-- From this moment, the action takes steps. It breaks off at a reference that it cannot bind. -/
structure Takes (rules : Rules) (root : PatternId) (action : WalkM Unit) (walk : Walk) :
    Prop where
  steps : ∃ entered, Steps rules root walk entered (reached (action walk))
  refuses : ∀ error later, action walk = .error error later → later.Refuses rules error

theorem Takes.still {action : WalkM Unit} (ended : action walk = .ok () walk) :
    Takes rules root action walk where
  steps := ⟨[], by rw [ended]; exact .none⟩
  refuses error later failed := by
    rw [ended] at failed
    cases failed

theorem Takes.after {action body : WalkM Unit} (steps : Steps rules root walk entered middle)
    (takes : Takes rules root body middle) (same : action walk = body middle) :
    Takes rules root action walk where
  steps := by
    obtain ⟨others, further⟩ := takes.steps
    rw [same]
    exact ⟨_, steps.trans further⟩
  refuses error later failed := takes.refuses error later (same.symm.trans failed)

/-- One action after the other. -/
theorem Takes.andThen {action rest : WalkM Unit} (takes : Takes rules root action walk)
    (later : ∀ middle, walk.Onward middle → Takes rules root rest middle) :
    Takes rules root (action >>= fun _ => rest) walk := by
  obtain ⟨entered, steps⟩ := takes.steps
  cases ended : action walk with
  | ok value middle =>
      rw [ended] at steps
      exact (later middle steps.onward).after steps (bind_ok ended)
  | error error middle =>
      have same : (action >>= fun _ => rest) walk = action walk := by
        change EStateM.bind action _ walk = _
        unfold EStateM.bind
        rw [ended]
      exact ⟨⟨entered, same ▸ steps⟩, fun error later failed =>
        takes.refuses error later (same.symm.trans failed)⟩

theorem takes_forM {visitOne : PatternId → WalkM Unit} {patterns : List PatternId}
    (each : ∀ pattern ∈ patterns, ∀ later, walk.Onward later →
      Takes rules root (visitOne pattern) later) :
    Takes rules root (patterns.forM visitOne) walk := by
  induction patterns generalizing walk with
  | nil => exact .still rfl
  | cons first rest inductionHypothesis =>
      apply (each first (by simp) walk (.refl walk)).andThen
      intro middle onward
      apply inductionHypothesis
      exact fun pattern member later further =>
        each pattern (by simp [member]) later (onward.trans further)

theorem takes_bindCell {name : String} {cell : CellId} (seen : walk.Seen pattern)
    (reference : walk.graph.kind pattern = .reference name cell)
    (above : ∀ other ∈ path, walk.graph.isLive other = true) :
    Takes rules root (bindCell rules path name cell) walk := by
  cases ended : bindCell rules path name cell walk with
  | ok value later =>
      refine ⟨⟨[], ?_⟩, fun error later failed => ?_⟩
      · rw [ended]
        exact .bind .none seen reference above ended
      · rw [ended] at failed
        cases failed
  | error error later =>
      obtain ⟨same, rule, other, named, target, differs, isError⟩ := bindCell_error ended
      subst same
      refine ⟨⟨[], ?_⟩, fun error later failed => ?_⟩
      · rw [ended]
        exact .none
      · rw [ended] at failed
        cases failed
        exact ⟨pattern, name, cell, rule, other, seen, reference, named, target, differs, isError⟩

/-- A visit of a pattern that the walk comes to takes steps, whatever the room. The nodes above it
are live, since they lead to it. -/
theorem takes_visit (room : Nat) (comes : walk.ComesTo root pattern)
    (above : ∀ other ∈ path, walk.graph.isLive other = true) :
    Takes rules root (visit rules room path pattern) walk := by
  induction room generalizing path pattern walk with
  | zero => exact .still rfl
  | succ room inductionHypothesis =>
      cases visited : walk.hasVisited pattern with
      | true => exact .still (visit_of_hasVisited visited room)
      | false =>
          have inside := inside_of_new visited
          have new := not_seen_of_new visited
          have entered : Steps rules root walk [pattern] (walk.mark pattern) :=
            .enter .none visited comes
          have seen : (walk.mark pattern).Seen pattern :=
            (seen_mark_iff inside pattern).mpr (Or.inl rfl)
          have longer : walk.graph.kind pattern ≠ .constant false →
              ∀ later, (walk.mark pattern).Onward later → ∀ other ∈ pattern :: path,
                later.graph.isLive other = true := by
            intro leads later onward
            have live : ∀ other ∈ pattern :: path, walk.graph.isLive other = true :=
              List.forall_mem_cons.mpr ⟨isLive_of_kind leads, above⟩
            exact fun other member => (onward.isLive other).trans (live other member)
          by_cases reference : ∃ name cell, walk.graph.kind pattern = .reference name cell
          · obtain ⟨name, cell, kind⟩ := reference
            have leads : walk.graph.kind pattern ≠ .constant false := by
              rw [kind]
              intro same
              cases same
            apply Takes.after entered _ (visit_of_new_reference inside new kind room)
            apply (takes_bindCell seen kind (longer leads _ (.refl _))).andThen
            intro bound onward
            cases target : bound.graph.target? cell with
            | none =>
                have nothing : Takes rules root (pure ()) bound := .still rfl
                refine nothing.after .none ?_
                rw [get_bind_apply, target]
            | some rule =>
                have resolved : bound.ComesTo root rule :=
                  Or.inr ⟨pattern, onward.seen pattern seen,
                    Or.inr ⟨name, cell, (onward.kind pattern).trans kind, target⟩⟩
                have going := inductionHypothesis resolved (longer leads bound onward)
                refine going.after .none ?_
                rw [get_bind_apply, target]
          · have noReference : ∀ name cell, walk.graph.kind pattern ≠ .reference name cell :=
              fun name cell found => reference ⟨name, cell, found⟩
            apply Takes.after entered _ (visit_of_new_other inside new noReference room)
            apply takes_forM
            intro child member later onward
            have isChild := List.mem_reverse.mp member
            have leads : walk.graph.kind pattern ≠ .constant false := by
              intro same
              rw [same] at isChild
              cases isChild
            apply inductionHypothesis _ (longer leads later onward)
            exact ComesTo.onward (Or.inr ⟨pattern, seen, Or.inl isChild⟩) onward

end Walk

end Graph

end PegEngine
