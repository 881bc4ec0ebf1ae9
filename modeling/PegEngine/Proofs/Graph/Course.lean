import PegEngine.Proofs.Graph.Walk

/-!
Contract: the course of a binding walk that raises no error.

Owns:
- `Walk.Goes`, the course of a walk over some patterns, with one rule for a pattern that was come by
  before, one for a node that is no reference, and one for a reference;
- `Walk.Onward`, what a walk leaves as it is from one moment to a later one;
- `goes_of_visit`, by which every walk that ends without an error takes such a course.
-/

namespace PegEngine

namespace Graph.Walk

variable {rules : Rules} {path patterns : List PatternId} {pattern : PatternId}
  {walk middle later : Walk}

/-- The course of a walk over some patterns, one after the other, below the nodes of the path. -/
inductive Goes (rules : Rules) : List PatternId → List PatternId → Walk → Walk → Prop where
  | done {path : List PatternId} {walk : Walk} : Goes rules path [] walk walk
  | known {path rest : List PatternId} {pattern : PatternId} {walk later : Walk}
      (visited : walk.hasVisited pattern = true) (others : Goes rules path rest walk later) :
      Goes rules path (pattern :: rest) walk later
  | node {path rest : List PatternId} {pattern : PatternId} {walk middle later : Walk}
      (new : walk.hasVisited pattern = false)
      (noReference : ∀ name cell, walk.graph.kind pattern ≠ .reference name cell)
      (below : Goes rules (pattern :: path) (walk.graph.kind pattern).children.reverse
        (walk.mark pattern) middle)
      (others : Goes rules path rest middle later) :
      Goes rules path (pattern :: rest) walk later
  | reference {path rest : List PatternId} {pattern : PatternId} {name : String} {cell : CellId}
      {walk bound middle later : Walk} (new : walk.hasVisited pattern = false)
      (kind : walk.graph.kind pattern = .reference name cell)
      (binds : bindCell rules (pattern :: path) name cell (walk.mark pattern) = .ok () bound)
      (below : Goes rules (pattern :: path) (bound.graph.target? cell).toList bound middle)
      (others : Goes rules path rest middle later) :
      Goes rules path (pattern :: rest) walk later

/-- A course over one pattern and one over others make a course over all of them. -/
theorem Goes.cons (first : Goes rules path [pattern] walk middle)
    (others : Goes rules path patterns middle later) :
    Goes rules path (pattern :: patterns) walk later := by
  cases first with
  | known visited ended =>
      cases ended
      exact .known visited others
  | node new noReference below ended =>
      cases ended
      exact .node new noReference below others
  | reference new kind binds below ended =>
      cases ended
      exact .reference new kind binds below others

/-! ## What stays -/

/-- What has been come by and what is bound stays so, and nodes stay as they are. -/
structure Onward (walk later : Walk) : Prop extends Before walk later where
  slots : later.graph.slots = walk.graph.slots
  size : later.visited.size = walk.visited.size

namespace Onward

theorem refl (walk : Walk) : walk.Onward walk :=
  ⟨.refl walk, rfl, rfl⟩

theorem trans (first : walk.Onward middle) (second : middle.Onward later) : walk.Onward later :=
  ⟨first.toBefore.trans second.toBefore, second.slots.trans first.slots,
    second.size.trans first.size⟩

end Onward

theorem inside_of_new (new : walk.hasVisited pattern = false) : pattern < walk.visited.size := by
  unfold hasVisited at new
  by_contra outside
  simp [Array.getD, outside] at new

theorem not_seen_of_new (new : walk.hasVisited pattern = false) : ¬ walk.Seen pattern := by
  rw [← hasVisited_iff (inside_of_new new), new]
  exact Bool.false_ne_true

theorem seen_mark_iff (inside : pattern < walk.visited.size) (other : PatternId) :
    (walk.mark pattern).Seen other ↔ other = pattern ∨ walk.Seen other := by
  unfold Seen mark
  rw [Array.getElem?_setIfInBounds]
  by_cases same : pattern = other
  · subst same
    simp [inside]
  · simp [same, Ne.symm same]

theorem onward_mark (inside : pattern < walk.visited.size) : walk.Onward (walk.mark pattern) :=
  ⟨⟨fun other seen => (seen_mark_iff inside other).mpr (Or.inr seen), fun _ _ => rfl⟩, rfl,
    by simp [mark]⟩

theorem cell_write_of_ne {cell other : CellId} (differs : other ≠ cell) (binding : Cell) :
    (walk.write cell binding).graph.cell other = walk.graph.cell other := by
  unfold write Graph.cell
  simp [Ne.symm differs]

/-- A reference is left as it is or bound to the rule of its name, weakly if the rule lies on the
path. -/
theorem bindCell_cases {name : String} {cell : CellId}
    (ended : bindCell rules path name cell walk = .ok () later) :
    later = walk ∧ (rules.lookup name = none ∨ walk.graph.cell cell ≠ .unbound) ∨
      ∃ rule, rules.lookup name = some rule ∧ walk.graph.cell cell = .unbound ∧
        later = walk.write cell (if rule ∈ path then .weak rule else .strong rule) := by
  unfold bindCell at ended
  cases found : rules.lookup name with
  | none =>
      rw [found] at ended
      cases ended
      exact Or.inl ⟨rfl, Or.inl rfl⟩
  | some rule =>
      rw [found] at ended
      dsimp only at ended
      split at ended
      · next existing target =>
          split at ended
          · cases ended
            refine Or.inl ⟨rfl, Or.inr fun unbound => ?_⟩
            unfold target? at target
            rw [unbound] at target
            cases target
          · cases ended
      · split at ended
        · next unbound =>
            cases ended
            exact Or.inr ⟨rule, rfl, unbound, rfl⟩
        · next notUnbound =>
            cases ended
            exact Or.inl ⟨rfl, Or.inr notUnbound⟩

/-- A reference whose name has a rule is bound afterwards, and weakly if the rule lies on the path
and it was not bound before. -/
theorem bindCell_binds {name : String} {cell : CellId} {rule : PatternId}
    (there : cell < walk.graph.cells.size) (named : rules.lookup name = some rule)
    (ended : bindCell rules path name cell walk = .ok () later) :
    later.graph.cell cell ≠ .unbound ∧
      (walk.graph.cell cell = .unbound → rule ∈ path → later.graph.cell cell = .weak rule) := by
  rcases bindCell_cases ended with ⟨same, unnamed | bound⟩ | ⟨other, namedOther, _, written⟩
  · rw [named] at unnamed
    cases unnamed
  · subst same
    exact ⟨bound, fun unbound => absurd unbound bound⟩
  · cases named.symm.trans namedOther
    rw [written, cell_write there, if_pos rfl]
    refine ⟨?_, fun _ onPath => if_pos onPath⟩
    split <;> nofun

theorem onward_write {cell : CellId} (unbound : walk.graph.cell cell = .unbound)
    (binding : Cell) : walk.Onward (walk.write cell binding) := by
  refine ⟨⟨fun _ seen => seen, fun other bound => ?_⟩, rfl, rfl⟩
  refine cell_write_of_ne (fun same => bound ?_) binding
  rw [same, unbound]

theorem onward_bindCell {name : String} {cell : CellId}
    (ended : bindCell rules path name cell walk = .ok () later) : walk.Onward later := by
  rcases bindCell_cases ended with ⟨same, _⟩ | ⟨rule, _, unbound, written⟩
  · exact same ▸ .refl walk
  · exact written ▸ onward_write unbound _

theorem Goes.onward (goes : Goes rules path patterns walk later) : walk.Onward later := by
  induction goes with
  | done => exact .refl _
  | known _ _ inductionHypothesis => exact inductionHypothesis
  | node new _ _ _ below others =>
      exact (onward_mark (inside_of_new new)).trans (below.trans others)
  | reference new _ binds _ _ below others =>
      exact (onward_mark (inside_of_new new)).trans
        ((onward_bindCell binds).trans (below.trans others))

/-! ## Courses of visits -/

/-- The walk has come by the nodes of the path, and the room is enough for all others. -/
structure Roomy (walk : Walk) (path : List PatternId) (room : Nat) : Prop where
  nodup : path.Nodup
  size : walk.visited.size = walk.graph.slots.size
  visited : ∀ pattern ∈ path, walk.Seen pattern
  enough : walk.graph.slots.size ≤ path.length + room

theorem Seen.lt_size (seen : walk.Seen pattern) : pattern < walk.visited.size :=
  (Array.getElem?_eq_some_iff.mp seen).1

theorem Roomy.onward {room : Nat} (roomy : walk.Roomy path room) (onward : walk.Onward later) :
    later.Roomy path room where
  nodup := roomy.nodup
  size := by rw [onward.size, onward.slots, roomy.size]
  visited pattern member := onward.seen pattern (roomy.visited pattern member)
  enough := by
    rw [onward.slots]
    exact roomy.enough

/-- One node further down there is room for one node less. -/
theorem Roomy.mark {room : Nat} (roomy : walk.Roomy path (room + 1))
    (new : walk.hasVisited pattern = false) : (walk.mark pattern).Roomy (pattern :: path) room := by
  have inside := inside_of_new new
  have seen := seen_mark_iff inside
  refine ⟨List.nodup_cons.mpr ⟨fun onPath => ?_, roomy.nodup⟩, ?_, fun other member => ?_, ?_⟩
  · rw [(hasVisited_iff inside).mpr (roomy.visited pattern onPath)] at new
    cases new
  · simpa [Walk.mark] using roomy.size
  · rcases List.mem_cons.mp member with same | below
    · exact (seen other).mpr (Or.inl same)
    · exact (seen other).mpr (Or.inr (roomy.visited other below))
  · have enough : walk.graph.slots.size ≤ path.length + (room + 1) := roomy.enough
    change walk.graph.slots.size ≤ path.length + 1 + room
    omega

/-- Without room there is nothing left to come by. -/
theorem Roomy.hasVisited (roomy : walk.Roomy path 0) (pattern : PatternId) :
    walk.hasVisited pattern = true := by
  by_contra notVisited
  have inside := inside_of_new (Bool.eq_false_iff.mpr notVisited)
  have onPath : pattern ∈ path := by
    refine @mem_path_of_full walk.graph path roomy.nodup (fun other below => ?_) roomy.enough
      pattern (roomy.size ▸ inside)
    exact roomy.size ▸ (roomy.visited other below).lt_size
  exact notVisited ((hasVisited_iff inside).mpr (roomy.visited pattern onPath))

theorem ok_of_bind {α β : Type} {action : WalkM α} {next : α → WalkM β} {value : β}
    (ended : (action >>= next) walk = .ok value later) :
    ∃ first middle, action walk = .ok first middle ∧ next first middle = .ok value later := by
  change EStateM.bind action next walk = _ at ended
  unfold EStateM.bind at ended
  split at ended
  · next first middle endedFirst => exact ⟨first, middle, endedFirst, ended⟩
  · cases ended

theorem get_bind_apply {α : Type} {next : Walk → WalkM α} (walk : Walk) :
    ((get : WalkM Walk) >>= next) walk = next walk walk :=
  rfl

/-- Visits one after the other take the course of all of them. -/
theorem goes_of_forM {room : Nat} {visitOne : PatternId → WalkM Unit}
    (each : ∀ pattern walk later, walk.Roomy path room → visitOne pattern walk = .ok () later →
      Goes rules path [pattern] walk later)
    (roomy : walk.Roomy path room) (ended : patterns.forM visitOne walk = .ok () later) :
    Goes rules path patterns walk later := by
  induction patterns generalizing walk with
  | nil =>
      cases ended
      exact .done
  | cons first rest inductionHypothesis =>
      change (visitOne first >>= fun _ => rest.forM visitOne) walk = _ at ended
      obtain ⟨_, middle, endedFirst, endedRest⟩ := ok_of_bind ended
      have goes := each first walk middle roomy endedFirst
      exact goes.cons (inductionHypothesis (roomy.onward goes.onward) endedRest)

theorem visit_of_hasVisited (visited : walk.hasVisited pattern = true) (room : Nat) :
    visit rules (room + 1) path pattern walk = .ok () walk := by
  have arrived : arrive pattern walk = .ok false walk := by
    unfold arrive
    rw [if_pos visited]
  unfold visit
  rw [bind_ok arrived]
  rfl

/-- A visit that ends without an error takes the course of a walk over the pattern. -/
theorem goes_of_visit {room : Nat} (roomy : walk.Roomy path room)
    (ended : visit rules room path pattern walk = .ok () later) :
    Goes rules path [pattern] walk later := by
  induction room generalizing path pattern walk later with
  | zero =>
      cases ended
      exact .known (roomy.hasVisited pattern) .done
  | succ room inductionHypothesis =>
      cases visited : walk.hasVisited pattern with
      | true =>
          rw [visit_of_hasVisited visited] at ended
          cases ended
          exact .known visited .done
      | false =>
          have inside := inside_of_new visited
          have new := not_seen_of_new visited
          have below := roomy.mark visited
          by_cases reference : ∃ name cell, walk.graph.kind pattern = .reference name cell
          · obtain ⟨name, cell, kind⟩ := reference
            rw [visit_of_new_reference inside new kind] at ended
            obtain ⟨_, bound, binds, endedBound⟩ := ok_of_bind ended
            have roomyBound := below.onward (onward_bindCell binds)
            refine .reference visited kind binds ?_ .done
            rw [get_bind_apply] at endedBound
            cases target : bound.graph.target? cell with
            | none =>
                simp only [target] at endedBound
                cases endedBound
                exact .done
            | some rule =>
                simp only [target] at endedBound
                exact inductionHypothesis roomyBound endedBound
          · have noReference : ∀ name cell, walk.graph.kind pattern ≠ .reference name cell :=
              fun name cell found => reference ⟨name, cell, found⟩
            rw [visit_of_new_other inside new noReference] at ended
            refine .node visited noReference (goes_of_forM ?_ below ended) .done
            exact fun next walk later roomy ended => inductionHypothesis roomy ended

end Graph.Walk

end PegEngine
