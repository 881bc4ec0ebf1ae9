import Mathlib.Data.List.Induction
import PegEngine.Proofs.Journal

/-!
Contract: what a checkpoint does after a commit.

A checkpoint is a number of changes, and a commit begins to count anew. A checkpoint from before a
commit is therefore good for a moment after it: going back keeps as many of the changes since the
commit as the checkpoint counts, and takes back those that came later.

Owns:
- `StackMove`, a push or a pop, and `StackTable.after`, a table after moves;
- which moves a checkpoint from before a commit keeps, and when it takes none back.
-/

namespace PegEngine

/-- One change of one stack. -/
inductive StackMove where
  | push (stack : String) (value : Capture)
  | pop (stack : String)
deriving DecidableEq, Repr

namespace StackTable

def move (table : StackTable) : StackMove → StackTable
  | .push stack value => table.push stack value
  | .pop stack => (table.pop stack).2

/-- The table after moves, one after the other. -/
def after (table : StackTable) (moves : List StackMove) : StackTable :=
  moves.foldl move table

theorem after_concat (table : StackTable) (moves : List StackMove) (last : StackMove) :
    table.after (moves ++ [last]) = (table.after moves).move last :=
  List.foldl_append ..

theorem Extends.move (table : StackTable) (move : StackMove) : (table.move move).Extends table := by
  cases move with
  | push stack value => exact .push table stack value
  | pop stack => exact .pop table stack

/-- A move is recorded as one change, or as none if there was nothing to pop. -/
theorem length_journal_move_le (table : StackTable) (move : StackMove) :
    (table.move move).journal.length ≤ table.journal.length + 1 := by
  cases move with
  | push stack value => exact Nat.le_refl _
  | pop stack =>
      simp only [StackTable.move, pop]
      split
      · exact Nat.le_succ _
      · exact Nat.le_refl _

/-- Going back leaves what the first moves did, up to as many changes as the checkpoint counts. -/
theorem exists_kept {table : StackTable} {checkpoint : Checkpoint}
    (early : table.journal.length ≤ checkpoint.changes) (moves : List StackMove) :
    ∃ kept undone, moves = kept ++ undone ∧
      ((table.after moves).rollback checkpoint).Alike (table.after kept) ∧
      (table.after kept).journal.length =
        min (table.after moves).journal.length checkpoint.changes := by
  induction moves using List.reverseRecOn with
  | nil =>
      refine ⟨[], [], rfl, ?_, (Nat.min_eq_left early).symm⟩
      change (table.rollback checkpoint).Alike table
      rw [rollback_of_length_le early]
      exact Alike.refl table
  | append_singleton earlier last inductionHypothesis =>
      rw [after_concat]
      by_cases short : ((table.after earlier).move last).journal.length ≤ checkpoint.changes
      · refine ⟨earlier ++ [last], [], (List.append_nil _).symm, ?_, ?_⟩
        · rw [rollback_of_length_le short, after_concat]
          exact Alike.refl _
        · rw [after_concat, Nat.min_eq_left short]
      · have grown := length_journal_move_le (table.after earlier) last
        have covers : checkpoint.changes ≤ (table.after earlier).journal.length := by omega
        obtain ⟨kept, undone, split, alike, length⟩ := inductionHypothesis
        refine ⟨kept, undone ++ [last], ?_, ?_, ?_⟩
        · rw [split, List.append_assoc]
        · exact ((Extends.move _ last).rollback_alike covers).trans alike
        · rw [length]
          omega

/-- Whatever checkpoint there was before a commit: it leaves the changes made since as they are if
there are no more of them than it counts, and otherwise it takes back the later ones. -/
theorem rollback_stale (table : StackTable) (stale : Checkpoint) (moves : List StackMove) :
    let now := table.commit.after moves
    let back := now.rollback stale
    (back.Alike now ↔ now.journal.length ≤ stale.changes) ∧
      ∃ kept undone, moves = kept ++ undone ∧ back.Alike (table.commit.after kept) ∧
        (table.commit.after kept).journal.length = min now.journal.length stale.changes := by
  intro now back
  refine ⟨⟨fun same => ?_, fun short => ?_⟩, exists_kept (Nat.zero_le _) moves⟩
  · have recorded := congrArg List.length same.journal
    rw [length_journal_rollback] at recorded
    exact recorded ▸ Nat.min_le_right _ stale.changes
  · have unchanged : back = now := rollback_of_length_le short
    rw [unchanged]
    exact Alike.refl now

/-- A checkpoint from before a commit can take back a push made after it. -/
theorem rollback_stale_takes_back :
    ¬ ∀ (table : StackTable) (earlier later : List StackMove),
      let now := (table.after earlier).commit.after later
      (now.rollback table.checkpoint).Alike now := by
  intro unchanged
  have entries :=
    (unchanged {} [.push "s" (.text "a")] [.push "s" (.text "b")]).entries "s"
  exact absurd entries (by decide +kernel)

end StackTable

end PegEngine
