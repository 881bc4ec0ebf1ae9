import PegEngine.StackTable

/-!
Contract: what the undo journal of a stack table gives back.

A table extends another one when it was reached from it by changes that its journal records.
Rolling back to the older table's checkpoint then gives back its journal and the entries of all
its stacks.

Owns:
- `StackChange.stack`, what a change concerns;
- `StackTable.Alike`, equality of tables up to the stacks that they merely know;
- `StackTable.Extends`, a preorder that every recorded change and every rollback not below the
  older table's checkpoint respects.
-/

namespace PegEngine

/-- The stack that a change is about. -/
def StackChange.stack : StackChange → String
  | .pushed stack | .popped stack _ => stack

namespace StackTable

/-- Two tables with the same entries and the same journal. A stack that was never pushed to and
one that is empty again count as the same. -/
structure Alike (table other : StackTable) : Prop where
  entries : ∀ stack, table.entries stack = other.entries stack
  journal : table.journal = other.journal

namespace Alike

theorem refl (table : StackTable) : table.Alike table :=
  ⟨fun _ => rfl, rfl⟩

theorem symm {table other : StackTable} (alike : table.Alike other) : other.Alike table :=
  ⟨fun stack => (alike.entries stack).symm, alike.journal.symm⟩

theorem trans {first second third : StackTable} (left : first.Alike second)
    (right : second.Alike third) : first.Alike third :=
  ⟨fun stack => (left.entries stack).trans (right.entries stack),
    left.journal.trans right.journal⟩

end Alike

/-! ## Undoing changes -/

theorem undo_of_journal_nil {table : StackTable} (empty : table.journal = []) (count : Nat) :
    table.undo count = table := by
  cases count with
  | zero => rfl
  | succ count => simp [undo, empty]

theorem undo_add (table : StackTable) (first second : Nat) :
    table.undo (first + second) = (table.undo first).undo second := by
  induction first generalizing table with
  | zero => simp [undo]
  | succ first inductionHypothesis =>
      rw [Nat.succ_add]
      cases recorded : table.journal with
      | nil => simp only [undo_of_journal_nil recorded]
      | cons change journal =>
          simp only [undo, recorded]
          exact inductionHypothesis _

theorem journal_undo (table : StackTable) (count : Nat) :
    (table.undo count).journal = table.journal.drop count := by
  induction count generalizing table with
  | zero => rfl
  | succ count inductionHypothesis =>
      cases recorded : table.journal with
      | nil => simp [undo, recorded]
      | cons change journal => simp [undo, recorded, inductionHypothesis]

@[simp] theorem length_journal_rollback (table : StackTable) (checkpoint : Checkpoint) :
    (table.rollback checkpoint).journal.length =
      min table.journal.length checkpoint.changes := by
  change (table.undo (table.journal.length - checkpoint.changes)).journal.length = _
  rw [journal_undo, List.length_drop]
  omega

/-- There is nothing to undo down to a checkpoint that the journal does not exceed. -/
theorem rollback_of_length_le {table : StackTable} {checkpoint : Checkpoint}
    (short : table.journal.length ≤ checkpoint.changes) : table.rollback checkpoint = table := by
  unfold rollback
  rw [Nat.sub_eq_zero_of_le short]
  rfl

/-- Going back in two steps is going back to the earlier of the two checkpoints. -/
theorem rollback_rollback (table : StackTable) {early late : Checkpoint}
    (order : early.changes ≤ late.changes) :
    (table.rollback late).rollback early = table.rollback early := by
  change (table.undo (table.journal.length - late.changes)).undo
    ((table.rollback late).journal.length - early.changes) =
      table.undo (table.journal.length - early.changes)
  rw [← undo_add, length_journal_rollback]
  congr 1
  omega

/-- Reverting a change looks at the entries only. -/
private theorem entries_revert_congr {contents other : NamedStacks}
    (same : ∀ stack, contents.entries stack = other.entries stack) (change : StackChange)
    (stack : String) :
    (change.revert contents).entries stack = (change.revert other).entries stack := by
  cases change <;> simp [StackChange.revert, same]

theorem Alike.contents {table other : StackTable} (alike : table.Alike other)
    (stack : String) : table.contents.entries stack = other.contents.entries stack :=
  List.reverse_inj.mp (alike.entries stack)

/-- Tables that are alike stay alike when both are undone equally far. -/
theorem Alike.undo {table other : StackTable} (alike : table.Alike other) (count : Nat) :
    (table.undo count).Alike (other.undo count) := by
  induction count generalizing table other with
  | zero => exact alike
  | succ count inductionHypothesis =>
      have journals := alike.journal
      cases recorded : table.journal with
      | nil =>
          rw [undo_of_journal_nil recorded, undo_of_journal_nil (journals ▸ recorded)]
          exact alike
      | cons change journal =>
          simp only [StackTable.undo, recorded, ← journals]
          apply inductionHypothesis
          refine ⟨fun stack => ?_, rfl⟩
          simp only [StackTable.entries]
          rw [entries_revert_congr alike.contents]

/-! ## Tables that are alike go on so -/

section Going

variable {table other : StackTable} (alike : table.Alike other)

include alike

theorem Alike.size (stack : String) : table.size stack = other.size stack := by
  rw [size_eq_length, size_eq_length, alike.entries]

theorem Alike.checkpoint : table.checkpoint = other.checkpoint :=
  congrArg (fun journal : List StackChange => Checkpoint.mk journal.length) alike.journal

theorem Alike.push (stack : String) (value : Capture) :
    (table.push stack value).Alike (other.push stack value) := by
  refine ⟨fun another => ?_, congrArg (StackChange.pushed stack :: ·) alike.journal⟩
  rw [entries_push, entries_push, alike.entries, alike.entries]

theorem Alike.pushAll (stack : String) (values : List Capture) :
    (table.pushAll stack values).Alike (other.pushAll stack values) := by
  induction values generalizing table other with
  | nil => exact alike
  | cons value rest inductionHypothesis => exact inductionHypothesis (alike.push stack value)

theorem Alike.pop (stack : String) :
    (table.pop stack).1 = (other.pop stack).1 ∧ (table.pop stack).2.Alike (other.pop stack).2 := by
  refine ⟨?_, fun another => ?_, ?_⟩
  · rw [pop_fst, pop_fst, alike.entries]
  · rw [entries_pop, entries_pop, alike.entries, alike.entries]
  · have same := alike.contents stack
    unfold StackTable.pop
    rw [same]
    cases other.contents.entries stack with
    | nil => exact alike.journal
    | cons value rest => exact congrArg (StackChange.popped stack value :: ·) alike.journal

theorem Alike.popUpTo (stack : String) (count : Nat) :
    (table.popUpTo stack count).1 = (other.popUpTo stack count).1 ∧
      (table.popUpTo stack count).2.Alike (other.popUpTo stack count).2 := by
  induction count generalizing table other with
  | zero => exact ⟨rfl, alike⟩
  | succ count inductionHypothesis =>
      obtain ⟨sameValue, left⟩ := alike.pop stack
      unfold StackTable.popUpTo
      generalize table.pop stack = popped at sameValue left
      generalize other.pop stack = otherPopped at sameValue left
      obtain ⟨value, rest⟩ := popped
      obtain ⟨otherValue, otherRest⟩ := otherPopped
      cases sameValue
      cases value with
      | none => exact ⟨rfl, left⟩
      | some value =>
          obtain ⟨sameValues, leftOver⟩ := inductionHypothesis left
          exact ⟨congrArg (value :: ·) sameValues, leftOver⟩

theorem Alike.rollback (checkpoint : Checkpoint) :
    (table.rollback checkpoint).Alike (other.rollback checkpoint) := by
  unfold StackTable.rollback
  rw [alike.journal]
  exact alike.undo _

theorem Alike.commit : table.commit.Alike other.commit :=
  ⟨alike.entries, rfl⟩

end Going

/-! ## Tables that extend another one -/

/-- The table was reached from `base` by changes that its journal records. -/
structure Extends (table base : StackTable) : Prop where
  /-- What was recorded before is still there, under the newer changes. -/
  journal : base.journal <:+ table.journal
  rollback : (table.rollback base.checkpoint).Alike base

namespace Extends

theorem length_le {table base : StackTable} (grown : table.Extends base) :
    base.journal.length ≤ table.journal.length :=
  grown.journal.length_le

theorem undo {table base : StackTable} (grown : table.Extends base) :
    (table.undo (table.journal.length - base.journal.length)).Alike base :=
  grown.rollback

theorem refl (table : StackTable) : table.Extends table := by
  refine ⟨List.suffix_refl _, ?_⟩
  rw [rollback_checkpoint]
  exact Alike.refl table

theorem of_alike {table base : StackTable} (alike : table.Alike base) : table.Extends base := by
  refine ⟨alike.journal ▸ List.suffix_refl _, ?_⟩
  have nothing : table.rollback base.checkpoint = table := by
    simp [StackTable.rollback, checkpoint, alike.journal, StackTable.undo]
  rw [nothing]
  exact alike

/-- Undoing the way from `middle` to `table` and then that from `base` to `middle` undoes the whole
way. -/
theorem trans {table middle base : StackTable} (later : table.Extends middle)
    (earlier : middle.Extends base) : table.Extends base := by
  refine ⟨earlier.journal.trans later.journal, ?_⟩
  have split : table.journal.length - base.journal.length =
      (table.journal.length - middle.journal.length) +
        (middle.journal.length - base.journal.length) := by
    have := later.length_le
    have := earlier.length_le
    omega
  change (table.undo (table.journal.length - base.journal.length)).Alike base
  rw [split, undo_add]
  exact (later.undo.undo _).trans earlier.undo

/-- A change in one recorded step. -/
private theorem of_undo_one {table base : StackTable} {change : StackChange}
    (recorded : table.journal = change :: base.journal) (undone : (table.undo 1).Alike base) :
    table.Extends base := by
  refine ⟨by rw [recorded]; exact List.suffix_cons _ _, ?_⟩
  have one : table.journal.length - base.journal.length = 1 := by simp [recorded]
  change (table.undo (table.journal.length - base.journal.length)).Alike base
  rw [one]
  exact undone

theorem push (table : StackTable) (stack : String) (value : Capture) :
    (table.push stack value).Extends table :=
  of_undo_one rfl ⟨fun other => entries_undo_push table stack other value, rfl⟩

theorem pushAll (table : StackTable) (stack : String) (values : List Capture) :
    (table.pushAll stack values).Extends table := by
  induction values generalizing table with
  | nil => exact refl table
  | cons value values inductionHypothesis =>
      exact (inductionHypothesis (table.push stack value)).trans (push table stack value)

theorem pop (table : StackTable) (stack : String) : (table.pop stack).2.Extends table := by
  cases found : table.contents.entries stack with
  | nil =>
      simp only [StackTable.pop, found]
      exact refl table
  | cons value rest =>
      simp only [StackTable.pop, found]
      refine of_undo_one rfl ⟨fun other => ?_, rfl⟩
      by_cases same : other = stack
      · subst same
        simp [StackTable.undo, StackChange.revert, StackTable.entries, found]
      · simp [StackTable.undo, StackChange.revert, StackTable.entries, same]

theorem popUpTo (table : StackTable) (stack : String) (count : Nat) :
    (table.popUpTo stack count).2.Extends table := by
  induction count generalizing table with
  | zero => exact refl table
  | succ count inductionHypothesis =>
      have first := pop table stack
      rcases popped : table.pop stack with ⟨value, rest⟩
      rw [popped] at first
      cases value with
      | none => simpa [StackTable.popUpTo, popped] using first
      | some value =>
          have others := inductionHypothesis rest
          simp only [StackTable.popUpTo, popped]
          exact others.trans first

theorem popMany {table rest : StackTable} {stack : String} {count position : Nat}
    {values : List Capture} (popped : table.popMany stack count position = .ok (values, rest)) :
    rest.Extends table := by
  unfold StackTable.popMany at popped
  split at popped
  · cases popped
  · have same := Except.ok.inj popped
    have grown := popUpTo table stack count
    rw [same] at grown
    exact grown

/-- A checkpoint that is no later than the older table gives the same from both tables. -/
theorem rollback_alike {table base : StackTable} (grown : table.Extends base)
    {checkpoint : Checkpoint} (early : checkpoint.changes ≤ base.journal.length) :
    (table.rollback checkpoint).Alike (base.rollback checkpoint) := by
  have twice : (table.rollback base.checkpoint).rollback checkpoint = table.rollback checkpoint :=
    rollback_rollback table early
  have journals := grown.rollback.journal
  rw [← twice]
  change ((table.rollback base.checkpoint).undo
    ((table.rollback base.checkpoint).journal.length - checkpoint.changes)).Alike
      (base.undo (base.journal.length - checkpoint.changes))
  rw [journals]
  exact grown.rollback.undo _

/-- A rollback that does not go below the checkpoint of `base` leaves an extension of it. -/
theorem rollback_of_le {table base : StackTable} (grown : table.Extends base)
    {checkpoint : Checkpoint} (notBelow : base.journal.length ≤ checkpoint.changes) :
    (table.rollback checkpoint).Extends base := by
  have longer := grown.length_le
  have recorded : (table.rollback checkpoint).journal =
      table.journal.drop (table.journal.length - checkpoint.changes) :=
    journal_undo table _
  have further : (table.rollback checkpoint).rollback base.checkpoint =
      table.rollback base.checkpoint :=
    rollback_rollback table notBelow
  constructor
  · rw [recorded]
    apply List.suffix_of_suffix_length_le grown.journal (List.drop_suffix _ _)
    rw [List.length_drop]
    omega
  · rw [further]
    exact grown.rollback

end Extends

end StackTable

end PegEngine
