import Mathlib.Data.Finset.Card
import Mathlib.Data.Finset.Range
import PegEngine.Proofs.Graph.Release

/-!
Contract: a release leaves nothing behind that has no owner.

The counts of a release are exact, and a pattern becomes an orphan when its count comes down to
zero, which happens once. So there is room for all orphans, and none is left at the end.

Owns:
- `Release.Complete`, with a lemma for the letting go of one orphan;
- `exists_owner_of_isLive_release`, the owner of what is left.
-/

namespace PegEngine

namespace Graph

namespace Release

variable {release : Release} {pattern : PatternId} {patterns : List PatternId}

/-! ## Losing owners -/

theorem owners_disown (release : Release) (other pattern : PatternId) :
    (release.disown other).owners[pattern]? =
      release.owners[pattern]?.map (· - if other = pattern then 1 else 0) := by
  simpa [List.count_singleton] using owners_foldl_disown [other] release pattern

theorem orphans_disown_of_last (last : (release.disown pattern).owners[pattern]? = some 0) :
    (release.disown pattern).orphans = pattern :: release.orphans :=
  if_pos last

theorem orphans_disown_of_not_last
    (notLast : (release.disown pattern).owners[pattern]? ≠ some 0) :
    (release.disown pattern).orphans = release.orphans :=
  if_neg notLast

theorem mem_orphans_foldl_disown (patterns : List PatternId)
    (orphan : pattern ∈ release.orphans) : pattern ∈ (patterns.foldl disown release).orphans := by
  induction patterns generalizing release with
  | nil => exact orphan
  | cons head rest inductionHypothesis =>
      refine inductionHypothesis ?_
      by_cases last : (release.disown head).owners[head]? = some 0
      · rw [orphans_disown_of_last last]
        exact List.mem_cons_of_mem head orphan
      · rw [orphans_disown_of_not_last last]
        exact orphan

/-- A pattern that loses its last owner is an orphan. -/
theorem mem_orphans_of_last {count : Nat} (before : release.owners[pattern]? = some (count + 1))
    (none : (patterns.foldl disown release).owners[pattern]? = some 0) :
    pattern ∈ (patterns.foldl disown release).orphans := by
  induction patterns generalizing release count with
  | nil =>
      rw [List.foldl_nil, before] at none
      cases none
  | cons head rest inductionHypothesis =>
      rw [List.foldl_cons] at none ⊢
      have after := owners_disown release head pattern
      rw [before, Option.map_some] at after
      by_cases same : head = pattern
      · rw [if_pos same, Nat.add_sub_cancel] at after
        subst same
        cases count with
        | zero =>
            apply mem_orphans_foldl_disown
            rw [orphans_disown_of_last after]
            exact List.mem_cons_self
        | succ count => exact inductionHypothesis after none
      · rw [if_neg same, Nat.sub_zero] at after
        exact inductionHypothesis after none

/-! ## The work that is left -/

/-- The patterns that are counted and have owners. -/
def withOwners (release : Release) : Finset PatternId :=
  (Finset.range release.owners.size).filter fun pattern => release.owners[pattern]? ≠ some 0

/-- How many patterns are orphans or may still become orphans. -/
def work (release : Release) : Nat :=
  release.orphans.length + release.withOwners.card

theorem mem_withOwners_iff :
    pattern ∈ release.withOwners ↔
      pattern < release.owners.size ∧ release.owners[pattern]? ≠ some 0 := by
  rw [withOwners, Finset.mem_filter, Finset.mem_range]

theorem size_owners_disown (release : Release) (pattern : PatternId) :
    (release.disown pattern).owners.size = release.owners.size := by
  simp [disown]

/-- A pattern that loses an owner becomes an orphan at most once. -/
theorem work_disown (hasOwner : release.owners[pattern]? ≠ some 0) :
    (release.disown pattern).work ≤ release.work := by
  have fewer : ∀ other, other ∈ (release.disown pattern).withOwners →
      other ∈ release.withOwners := by
    intro other memberOther
    obtain ⟨inside, hasOwnerOther⟩ := mem_withOwners_iff.mp memberOther
    rw [size_owners_disown] at inside
    refine mem_withOwners_iff.mpr ⟨inside, fun nothing => hasOwnerOther ?_⟩
    rw [owners_disown, nothing, Option.map_some, Nat.zero_sub]
  unfold work
  by_cases last : (release.disown pattern).owners[pattern]? = some 0
  · have inside : pattern < release.owners.size := by
      rw [← size_owners_disown release pattern]
      exact (Array.getElem?_eq_some_iff.mp last).1
    have member : pattern ∈ release.withOwners := mem_withOwners_iff.mpr ⟨inside, hasOwner⟩
    have subset : (release.disown pattern).withOwners ⊆ release.withOwners.erase pattern := by
      intro other memberOther
      refine Finset.mem_erase.mpr ⟨fun same => ?_, fewer other memberOther⟩
      exact (mem_withOwners_iff.mp memberOther).2 (same ▸ last)
    have atMost := Finset.card_le_card subset
    have one := Finset.card_erase_add_one member
    rw [orphans_disown_of_last last, List.length_cons]
    omega
  · have atMost := Finset.card_le_card fewer
    rw [orphans_disown_of_not_last last]
    omega

theorem work_foldl_disown (enough : ∀ pattern count, release.owners[pattern]? = some count →
      patterns.count pattern ≤ count) :
    (patterns.foldl disown release).work ≤ release.work := by
  induction patterns generalizing release with
  | nil => exact Nat.le_refl _
  | cons head rest inductionHypothesis =>
      have hasOwner : release.owners[head]? ≠ some 0 := by
        intro nothing
        have none := enough head 0 nothing
        rw [List.count_cons_self] at none
        omega
      refine Nat.le_trans (inductionHypothesis fun pattern count found => ?_) (work_disown hasOwner)
      rw [owners_disown] at found
      obtain ⟨before, foundBefore, same⟩ := Option.map_eq_some_iff.mp found
      have all := enough pattern before foundBefore
      by_cases here : head = pattern
      · subst here
        rw [List.count_cons_self] at all
        rw [if_pos rfl] at same
        omega
      · rw [List.count_cons_of_ne here] at all
        rw [if_neg here] at same
        omega

/-! ## Releases -/

/-- A release that counts exactly and has room for all the work that is left. -/
structure Complete (handles : List PatternId) (release : Release) (most : Nat) : Prop where
  owners : ∀ pattern, release.owners[pattern]? =
    if pattern < release.graph.slots.size then
      some ((release.graph.owned handles).count pattern) else none
  orphans : ∀ pattern, release.graph.isLive pattern = true →
    pattern ∉ release.graph.owned handles → pattern ∈ release.orphans
  room : release.work ≤ most

namespace Complete

variable {handles : List PatternId}

/-- When an orphan is let go of, the counts stay exact. -/
theorem owners_letGo {most : Nat} (complete : Complete handles release most) (orphan : PatternId)
    (rest : List PatternId) (pattern : PatternId) :
    ({ release with orphans := rest }.letGo orphan).owners[pattern]? =
      if pattern < release.graph.slots.size then
        some (((release.graph.erase orphan).owned handles).count pattern) else none := by
  have counted := @count_owned_erase release.graph handles orphan pattern
  have exact := complete.owners pattern
  rw [Release.letGo, owners_foldl_disown]
  change release.owners[pattern]?.map _ = _
  rw [exact]
  split
  · rw [Option.map_some, ← counted, Nat.add_sub_cancel]
  · rfl

/-- No more work comes up than was counted on. -/
theorem work_letGo {most : Nat} (complete : Complete handles release most) (orphan : PatternId)
    (rest : List PatternId) :
    ({ release with orphans := rest }.letGo orphan).work ≤
      rest.length + release.withOwners.card := by
  refine work_foldl_disown fun pattern count found => ?_
  have exact := complete.owners pattern
  rw [exact] at found
  have counted := @count_owned_erase release.graph handles orphan pattern
  split at found
  · cases found
    exact Nat.le_of_add_left_le (Nat.le_of_eq counted)
  · cases found

theorem letGo {orphan : PatternId} {rest : List PatternId} {most : Nat}
    (complete : Complete handles release (most + 1)) (next : release.orphans = orphan :: rest) :
    Complete handles ({ release with orphans := rest }.letGo orphan) most := by
  refine ⟨fun pattern => ?_, fun pattern live noOwner => ?_, ?_⟩
  · have sameSize : (release.graph.erase orphan).slots.size = release.graph.slots.size := by
      simp [Graph.erase]
    rw [graph_letGo, sameSize]
    exact complete.owners_letGo orphan rest pattern
  · rw [graph_letGo] at live noOwner
    have other : pattern ≠ orphan := by
      intro same
      rw [isLive, node?_erase, if_pos same] at live
      cases live
    have liveBefore : release.graph.isLive pattern = true := by
      rwa [isLive, node?_erase, if_neg other] at live
    by_cases ownedBefore : pattern ∈ release.graph.owned handles
    · -- The count was positive and is zero now, so the orphan was the last owner.
      have inside := lt_size_of_isLive liveBefore
      obtain ⟨count, positive⟩ := Nat.exists_eq_add_of_le' (List.count_pos_iff.mpr ownedBefore)
      have before := complete.owners pattern
      have after := complete.owners_letGo orphan rest pattern
      rw [if_pos inside] at before after
      rw [positive] at before
      rw [List.count_eq_zero.mpr noOwner] at after
      exact mem_orphans_of_last before after
    · have orphanBefore := complete.orphans pattern liveBefore ownedBefore
      rw [next] at orphanBefore
      exact mem_orphans_foldl_disown _ ((List.mem_cons.mp orphanBefore).resolve_left other)
  · have room := complete.room
    have less := complete.work_letGo orphan rest
    rw [work, next, List.length_cons] at room
    omega

/-- At the end of a run nothing is left that has no owner. -/
theorem mem_owned_of_isLive_run {most : Nat} (complete : Complete handles release most)
    (live : (Release.run most release).isLive pattern = true) :
    pattern ∈ (Release.run most release).owned handles := by
  induction most generalizing release with
  | zero =>
      by_contra noOwner
      have orphan := List.length_pos_of_mem (complete.orphans pattern live noOwner)
      have room := complete.room
      rw [work] at room
      omega
  | succ most inductionHypothesis =>
      unfold Release.run at live ⊢
      split at live
      · next none =>
          by_contra noOwner
          have orphan := complete.orphans pattern live noOwner
          rw [none] at orphan
          cases orphan
      · next orphan rest next => exact inductionHypothesis (complete.letGo next) live

end Complete

/-- A release starts out with room for all of its work. -/
theorem complete_start (graph : Graph) (handles : List PatternId) :
    let owners := counts graph.slots.size (graph.owned handles)
    let orphans := (List.range graph.slots.size).filter fun pattern =>
      graph.isLive pattern && owners[pattern]? == some 0
    Complete handles { graph, owners, orphans } graph.slots.size := by
  intro owners orphans
  have counted : ∀ pattern, owners[pattern]? =
      if pattern < graph.slots.size then some ((graph.owned handles).count pattern) else none :=
    getElem?_counts graph.slots.size (graph.owned handles)
  refine ⟨counted, fun pattern live noOwner => ?_, ?_⟩
  · have inside := lt_size_of_isLive live
    refine List.mem_filter.mpr ⟨List.mem_range.mpr inside, ?_⟩
    simp [live, counted, inside, List.count_eq_zero.mpr noOwner]
  · have sized : owners.size ≤ graph.slots.size := by
      refine Array.getElem?_eq_none_iff.mp ?_
      rw [counted, if_neg (Nat.lt_irrefl _)]
    let start : Release := { graph, owners, orphans }
    have noOwner : ∀ pattern ∈ orphans, pattern < graph.slots.size ∧ owners[pattern]? = some 0 := by
      intro pattern orphan
      obtain ⟨inside, both⟩ := List.mem_filter.mp orphan
      simp only [Bool.and_eq_true, beq_iff_eq] at both
      exact ⟨List.mem_range.mp inside, both.2⟩
    have apart : Disjoint orphans.toFinset start.withOwners := by
      refine Finset.disjoint_left.mpr fun pattern orphan hasOwner => ?_
      exact (mem_withOwners_iff.mp hasOwner).2 (noOwner pattern (List.mem_toFinset.mp orphan)).2
    have inside : orphans.toFinset ∪ start.withOwners ⊆ Finset.range graph.slots.size := by
      intro pattern member
      refine Finset.mem_range.mpr ?_
      rcases Finset.mem_union.mp member with orphan | hasOwner
      · exact (noOwner pattern (List.mem_toFinset.mp orphan)).1
      · exact Nat.lt_of_lt_of_le (mem_withOwners_iff.mp hasOwner).1 sized
    have nodup : orphans.Nodup := List.nodup_range.filter _
    have atMost := Finset.card_le_card inside
    rw [Finset.card_union_of_disjoint apart, List.toFinset_card_of_nodup nodup,
      Finset.card_range] at atMost
    exact atMost

end Release

variable {graph : Graph} {handles : List PatternId} {pattern : PatternId}

/-- What is left after a release has an owner still. -/
theorem mem_owned_of_isLive_release (live : (graph.release handles).isLive pattern = true) :
    pattern ∈ (graph.release handles).owned handles :=
  (Release.complete_start graph handles).mem_owned_of_isLive_run live

/-- What is left after a release is a handle or owned by what is left. -/
theorem exists_owner_of_isLive_release (live : (graph.release handles).isLive pattern = true) :
    pattern ∈ handles ∨
      ∃ owner, (graph.release handles).isLive owner = true ∧ graph.Owns owner pattern := by
  have leftOrGone : ∀ owner, (graph.release handles).node? owner = none ∨
      (graph.release handles).node? owner = graph.node? owner := by
    refine @release_keeps graph handles
      (fun left => ∀ owner, left.node? owner = none ∨ left.node? owner = graph.node? owner)
      (fun left orphan _ before owner => ?_) fun _ => Or.inr rfl
    rw [node?_erase]
    split
    · exact Or.inl rfl
    · exact before owner
  refine (List.mem_append.mp (mem_owned_of_isLive_release live)).imp_right fun among => ?_
  obtain ⟨slot, place, owns⟩ := List.mem_flatMap.mp among
  cases slot with
  | none => cases owns
  | some node =>
      obtain ⟨owner, found⟩ := List.mem_iff_getElem?.mp place
      rw [Array.getElem?_toList] at found
      have left : (graph.release handles).node? owner = some node := by
        rw [node?, found]
        rfl
      refine ⟨owner, by rw [isLive, left]; rfl, ?_⟩
      have same : graph.node? owner = some node := by
        rcases leftOrGone owner with gone | kept
        · rw [gone] at left
          cases left
        · rw [← kept, left]
      unfold Owns Graph.node
      rw [same, ← Release.Sound.ownedByNode_congr cells_release]
      exact owns

end Graph

end PegEngine
