import PegEngine.Graph.Ownership
import PegEngine.Proofs.Graph.Coherence
import PegEngine.Proofs.Reachability

/-!
Contract: a release keeps everything that the handles own, directly or through other nodes.

The owner counts of a release under way are never below the true number of owners, and its orphans
have none. So only nodes without an owner go.

Owns:
- `Release.Sound`, the invariant, with a lemma for one orphan and one for the whole run;
- `release_keeps`, for what every single erasure keeps;
- `node?_release_of_held` and `Coherent.release`;
- `releases_keep`, what any number of releases keeps below a handle that is never given up.
-/

namespace PegEngine

namespace Graph

/-- From a pattern to those that its node owns. -/
def Owns (graph : Graph) (pattern next : PatternId) : Prop :=
  next ∈ graph.ownedByNode (graph.node pattern)

/-- A handle owns the pattern, directly or through other nodes. -/
def Held (graph : Graph) (handles : List PatternId) (pattern : PatternId) : Prop :=
  ∃ handle ∈ handles, Relation.ReflTransGen graph.Owns handle pattern

theorem owns_of_leadsStrongly {graph : Graph} {pattern next : PatternId}
    (leads : graph.LeadsStrongly pattern next) : graph.Owns pattern next := by
  unfold Owns ownedByNode
  rcases leads with child | ⟨name, cell, reference, bound⟩
  · change next ∈ (graph.node pattern).kind.children at child
    split
    · next callback found =>
        rw [found] at child
        cases child
    · next name cell found =>
        rw [found] at child
        cases child
    · exact child
  · change (graph.node pattern).kind = _ at reference
    rw [reference]
    simp [bound]

theorem children_subset_owns {graph : Graph} {pattern child : PatternId}
    (member : child ∈ (graph.kind pattern).children) : graph.Owns pattern child :=
  owns_of_leadsStrongly (Or.inl member)

/-! ## Counting owners -/

section Count

variable {graph : Graph} {handles : List PatternId}

/-- Emptying one place of a list of places takes off what that place contributed. -/
private theorem count_flatMap_set (slots : List (Option Node))
    (owned : Option Node → List PatternId) (nothing : owned none = [])
    (erased pattern : PatternId) :
    ((slots.set erased none).flatMap owned).count pattern +
        (owned (slots[erased]?).join).count pattern =
      (slots.flatMap owned).count pattern := by
  induction slots generalizing erased with
  | nil => simp [nothing]
  | cons slot rest inductionHypothesis =>
      cases erased with
      | zero => simp [nothing, Nat.add_comm]
      | succ erased =>
          have others := inductionHypothesis erased
          simp only [List.set_cons_succ, List.flatMap_cons, List.count_append,
            List.getElem?_cons_succ]
          omega

/-- An erased node takes its ownership with it. -/
theorem count_owned_erase (erased pattern : PatternId) :
    ((graph.erase erased).owned handles).count pattern +
        (graph.ownedByNode (graph.node erased)).count pattern =
      (graph.owned handles).count pattern := by
  have counted := count_flatMap_set graph.slots.toList graph.ownedBySlot rfl erased pattern
  have sameNode : graph.ownedByNode (graph.node erased) =
      graph.ownedBySlot (graph.slots.toList[erased]?).join := by
    rw [Array.getElem?_toList]
    unfold Graph.node node?
    cases (graph.slots[erased]?).join <;> rfl
  have erasedSlots : (graph.erase erased).owned handles =
      handles ++ (graph.slots.toList.set erased none).flatMap graph.ownedBySlot := by
    unfold owned erase
    rw [Array.toList_setIfInBounds]
    rfl
  rw [erasedSlots, sameNode]
  unfold owned
  simp only [List.count_append]
  omega

theorem mem_owned_of_handle {pattern : PatternId} (held : pattern ∈ handles) :
    pattern ∈ graph.owned handles :=
  List.mem_append_left _ held

theorem slot_of_owns {pattern next : PatternId} (owns : graph.Owns pattern next) :
    ∃ node, graph.slots[pattern]? = some (some node) ∧ next ∈ graph.ownedByNode node := by
  unfold Owns Graph.node node? at owns
  cases place : graph.slots[pattern]? with
  | none =>
      rw [place] at owns
      cases owns
  | some slot =>
      cases slot with
      | none =>
          rw [place] at owns
          cases owns
      | some node =>
          rw [place] at owns
          exact ⟨node, rfl, owns⟩

theorem mem_owned_of_owns {pattern next : PatternId} (owns : graph.Owns pattern next) :
    next ∈ graph.owned handles := by
  obtain ⟨node, place, owned⟩ := slot_of_owns owns
  apply List.mem_append_right
  refine List.mem_flatMap.mpr ⟨some node, ?_, owned⟩
  exact Array.mem_toList_iff.mpr (Array.mem_of_getElem? place)

end Count

/-! ## One orphan -/

namespace Release

theorem graph_foldl_disown (patterns : List PatternId) (release : Release) :
    (patterns.foldl disown release).graph = release.graph := by
  induction patterns generalizing release with
  | nil => rfl
  | cons pattern rest inductionHypothesis => exact inductionHypothesis _

theorem graph_letGo (release : Release) (orphan : PatternId) :
    (release.letGo orphan).graph = release.graph.erase orphan :=
  graph_foldl_disown _ _

theorem owners_foldl_disown (patterns : List PatternId) (release : Release) (pattern : PatternId) :
    (patterns.foldl disown release).owners[pattern]? =
      release.owners[pattern]?.map (· - patterns.count pattern) := by
  induction patterns generalizing release with
  | nil => simp
  | cons head rest inductionHypothesis =>
      rw [List.foldl_cons, inductionHypothesis]
      simp only [disown, Array.getElem?_modify]
      by_cases same : head = pattern
      · subst same
        rw [if_pos rfl, List.count_cons_self]
        cases release.owners[head]? with
        | none => rfl
        | some count =>
            simp only [Option.map_some, Option.some.injEq]
            omega
      · rw [if_neg same, List.count_cons_of_ne same]

/-- A pattern becomes an orphan when it has lost its last owner. -/
theorem orphans_foldl_disown (patterns : List PatternId) (release : Release) {pattern : PatternId}
    (orphan : pattern ∈ (patterns.foldl disown release).orphans) :
    pattern ∈ release.orphans ∨ (patterns.foldl disown release).owners[pattern]? = some 0 := by
  induction patterns generalizing release with
  | nil => exact Or.inl orphan
  | cons head rest inductionHypothesis =>
      rw [List.foldl_cons] at orphan ⊢
      rcases inductionHypothesis _ orphan with before | after
      · simp only [disown] at before
        split at before
        · next last =>
            rcases List.mem_cons.mp before with same | before
            · right
              have now : (release.disown head).owners[pattern]? = some 0 := by
                rw [same]
                exact last
              rw [owners_foldl_disown, now]
              simp
            · exact Or.inl before
        · exact Or.inl before
      · exact Or.inr after

/-- A release of the nodes of `start` under way. -/
structure Sound (start : Graph) (handles : List PatternId) (release : Release) : Prop where
  cells : release.graph.cells = start.cells
  /-- The counts are not below the true numbers of owners. -/
  owners : ∀ pattern count, release.owners[pattern]? = some count →
    (release.graph.owned handles).count pattern ≤ count
  orphans : ∀ pattern ∈ release.orphans, pattern ∉ release.graph.owned handles
  kept : ∀ pattern, start.Held handles pattern → release.graph.node? pattern = start.node? pattern

namespace Sound

variable {start : Graph} {handles : List PatternId} {release : Release}

theorem ownedByNode_congr {graph other : Graph} (same : graph.cells = other.cells) (node : Node) :
    graph.ownedByNode node = other.ownedByNode node := by
  unfold ownedByNode cell
  rw [same]

/-- What is held still has an owner. -/
theorem mem_owned_of_held (sound : Sound start handles release) {pattern : PatternId}
    (held : start.Held handles pattern) : pattern ∈ release.graph.owned handles := by
  obtain ⟨handle, member, reaches⟩ := held
  cases reaches with
  | refl => exact mem_owned_of_handle member
  | @tail middle _ before owns =>
      have same := sound.kept middle ⟨handle, member, before⟩
      have stillOwns : release.graph.Owns middle pattern := by
        unfold Owns Graph.node at owns ⊢
        rw [same, ownedByNode_congr sound.cells]
        exact owns
      exact mem_owned_of_owns stillOwns

theorem letGo {orphan : PatternId} {rest : List PatternId} (sound : Sound start handles release)
    (next : release.orphans = orphan :: rest) :
    Sound start handles ({ release with orphans := rest }.letGo orphan) := by
  have noOwner := sound.orphans orphan (by simp [next])
  have graph : ({ release with orphans := rest }.letGo orphan).graph =
      release.graph.erase orphan := graph_letGo _ _
  have counted := fun pattern =>
    @count_owned_erase release.graph handles orphan pattern
  have owners : ∀ pattern count,
      ({ release with orphans := rest }.letGo orphan).owners[pattern]? = some count →
        ((release.graph.erase orphan).owned handles).count pattern ≤ count := by
    intro pattern count found
    unfold Release.letGo at found
    rw [owners_foldl_disown] at found
    obtain ⟨before, foundBefore, same⟩ := Option.map_eq_some_iff.mp found
    dsimp only at same
    have atLeast := sound.owners pattern before foundBefore
    have fewer := counted pattern
    omega
  refine ⟨?_, ?_, ?_, ?_⟩
  · rw [graph]
    exact sound.cells
  · rw [graph]
    exact owners
  · intro pattern member
    rw [graph]
    intro owned
    have some := List.count_pos_iff.mpr owned
    rcases orphans_foldl_disown _ _ member with before | none
    · have still := counted pattern
      have notOwned := sound.orphans pattern (by simp [next, before])
      exact notOwned (List.count_pos_iff.mp (by omega))
    · have few := owners pattern 0 none
      omega
  · intro pattern held
    have other : pattern ≠ orphan := fun same => noOwner (same ▸ sound.mem_owned_of_held held)
    rw [graph, node?_erase, if_neg other]
    exact sound.kept pattern held

/-- A run ends in a sound release, with what every erasure of a node without an owner keeps. -/
theorem ends {property : Graph → Prop}
    (keeps : ∀ graph orphan, orphan ∉ graph.owned handles → property graph →
      property (graph.erase orphan))
    (sound : Sound start handles release) (holds : property release.graph) (most : Nat) :
    ∃ last : Release, last.graph = Release.run most release ∧ Sound start handles last ∧
      property last.graph := by
  induction most generalizing release with
  | zero => exact ⟨release, rfl, sound, holds⟩
  | succ most inductionHypothesis =>
      unfold Release.run
      split
      · exact ⟨release, rfl, sound, holds⟩
      · next orphan rest next =>
          refine inductionHypothesis (sound.letGo next) ?_
          rw [graph_letGo]
          exact keeps _ _ (sound.orphans orphan (by simp [next])) holds

end Sound

/-- A release starts out with the true numbers of owners. -/
theorem sound_start (graph : Graph) (handles : List PatternId) :
    let owners := counts graph.slots.size (graph.owned handles)
    let orphans := (List.range graph.slots.size).filter fun pattern =>
      graph.isLive pattern && owners[pattern]? == some 0
    Sound graph handles { graph, owners, orphans } := by
  intro owners orphans
  have counted : ∀ pattern count, owners[pattern]? = some count →
      (graph.owned handles).count pattern = count := by
    intro pattern count found
    rw [getElem?_counts] at found
    split at found
    · exact Option.some.inj found
    · cases found
  refine ⟨rfl, fun pattern count found => Nat.le_of_eq (counted pattern count found), ?_,
    fun _ _ => rfl⟩
  intro pattern orphan owned
  have noOwner : owners[pattern]? = some 0 := by
    have both := (List.mem_filter.mp orphan).2
    simp only [Bool.and_eq_true, beq_iff_eq] at both
    exact both.2
  exact List.count_eq_zero.mp (counted pattern 0 noOwner) owned

end Release

section Keeping

variable {graph : Graph} {handles : List PatternId}

theorem release_ends {property : Graph → Prop}
    (keeps : ∀ graph orphan, orphan ∉ graph.owned handles → property graph →
      property (graph.erase orphan))
    (holds : property graph) :
    ∃ last : Release, last.graph = graph.release handles ∧ Release.Sound graph handles last ∧
      property last.graph :=
  (Release.sound_start graph handles).ends keeps holds graph.slots.size

/-- What every erasure of a node without an owner keeps, a release keeps. -/
theorem release_keeps {property : Graph → Prop}
    (keeps : ∀ graph orphan, orphan ∉ graph.owned handles → property graph →
      property (graph.erase orphan))
    (holds : property graph) : property (graph.release handles) := by
  obtain ⟨last, same, _, stillHolds⟩ := release_ends keeps holds
  exact same ▸ stillHolds

theorem release_sound (graph : Graph) (handles : List PatternId) :
    (graph.release handles).cells = graph.cells ∧
      ∀ pattern, graph.Held handles pattern →
        (graph.release handles).node? pattern = graph.node? pattern := by
  obtain ⟨last, same, sound, _⟩ := @release_ends graph handles (fun _ => True)
    (fun _ _ _ holds => holds) trivial
  rw [← same]
  exact ⟨sound.cells, sound.kept⟩

theorem cells_release : (graph.release handles).cells = graph.cells :=
  (release_sound graph handles).1

/-- A release keeps every node that is held. -/
theorem node?_release_of_held {pattern : PatternId} (held : graph.Held handles pattern) :
    (graph.release handles).node? pattern = graph.node? pattern :=
  (release_sound graph handles).2 pattern held

theorem Coherent.release (coherent : graph.Coherent) (handles : List PatternId) :
    (graph.release handles).Coherent := by
  refine release_keeps (fun graph orphan noOwner coherent => ?_) coherent
  refine coherent.erase fun pattern member => noOwner ?_
  exact mem_owned_of_owns (children_subset_owns member)

end Keeping

/-- A sequence of releases, each with the handles that are held by then. -/
def releases (graph : Graph) (drops : List (List PatternId)) : Graph :=
  drops.foldl release graph

/-- As long as `root` is held, everything that it leads to strongly stays as it is. -/
theorem releases_keep {graph : Graph} {root : PatternId} {drops : List (List PatternId)}
    (rootHeld : ∀ handles ∈ drops, root ∈ handles) :
    (graph.releases drops).cells = graph.cells ∧
      ∀ pattern, Relation.ReflTransGen graph.LeadsStrongly root pattern →
        (graph.releases drops).node? pattern = graph.node? pattern := by
  induction drops generalizing graph with
  | nil => exact ⟨rfl, fun _ _ => rfl⟩
  | cons handles drops inductionHypothesis =>
      have held := rootHeld handles (by simp)
      have kept : ∀ pattern, Relation.ReflTransGen graph.LeadsStrongly root pattern →
          (graph.release handles).node? pattern = graph.node? pattern := fun pattern reaches =>
        node?_release_of_held ⟨root, held, Relation.ReflTransGen.mono
          (fun _ _ => owns_of_leadsStrongly) _ _ reaches⟩
      have stillReaches : ∀ pattern, Relation.ReflTransGen graph.LeadsStrongly root pattern →
          Relation.ReflTransGen (graph.release handles).LeadsStrongly root pattern := by
        intro pattern reaches
        induction reaches with
        | refl => exact .refl
        | @tail middle next before leads reachesMiddle =>
            refine reachesMiddle.tail ?_
            unfold LeadsStrongly cell at leads ⊢
            rw [kind_congr (kept middle before), cells_release]
            exact leads
      obtain ⟨cells, nodes⟩ := inductionHypothesis fun other member =>
        rootHeld other (by simp [member])
      refine ⟨cells.trans cells_release, fun pattern reaches => ?_⟩
      exact (nodes pattern (stillReaches pattern reaches)).trans (kept pattern reaches)

end Graph

end PegEngine
