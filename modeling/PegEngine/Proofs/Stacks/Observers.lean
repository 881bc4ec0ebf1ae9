import PegEngine.Proofs.Matching.Isolation
import PegEngine.Proofs.Stacks.StaleCheckpoints

/-!
Contract: what can be seen of a stack table after it was rolled back.

Going back to a checkpoint gives every stack its entries again, and with them all that is worked out
from the entries. It does not make a table forget a name: a stack that was pushed to in the meantime
stays known, without entries. So does a pattern that does not match.

Owns:
- `StackTable.SameReports`, that two tables report the same of a stack, but for whether it is known;
- which stacks a table knows after moves, and after changes are undone;
- `rollback_reports`, for all moves since a checkpoint, and for matches.
-/

namespace PegEngine

namespace StackTable

/-! ## Reports -/

/-- The tables give the same answers to all questions about a stack, except for the question whether
it was ever in use. -/
structure SameReports (table other : StackTable) (stack : String) : Prop where
  entries : table.entries stack = other.entries stack
  size : table.size stack = other.size stack
  peek? : table.peek? stack = other.peek? stack
  entry? (index : Int) : table.entry? stack index = other.entry? stack index

theorem SameReports.of_entries {table other : StackTable} {stack : String}
    (same : table.entries stack = other.entries stack) : table.SameReports other stack where
  entries := same
  size := by rw [size_eq_length, size_eq_length, same]
  peek? := by rw [peek?_eq_getLast?, peek?_eq_getLast?, same]
  entry? index := congrArg (Capture.pick? · index) same

theorem Extends.after (table : StackTable) (moves : List StackMove) :
    (table.after moves).Extends table := by
  induction moves generalizing table with
  | nil => exact .refl table
  | cons move rest inductionHypothesis =>
      exact (inductionHypothesis (table.move move)).trans (.move table move)

/-! ## Stacks that are known -/

theorem isSome_lookup_set (contents : NamedStacks) (stack other : String) (values : List Capture) :
    ((Named.set stack values contents).lookup other).isSome ↔
      other = stack ∨ (contents.lookup other).isSome := by
  rw [Named.lookup_set]
  split <;> simp_all

theorem isSome_lookup_of_entries {contents : NamedStacks} {stack : String} {value : Capture}
    {rest : List Capture} (found : contents.entries stack = value :: rest) :
    (contents.lookup stack).isSome := by
  cases known : contents.lookup stack with
  | none => simp [NamedStacks.entries, known] at found
  | some _ => rfl

theorem contains_push (table : StackTable) (stack other : String) (value : Capture) :
    (table.push stack value).contains other ↔ other = stack ∨ table.contains other :=
  isSome_lookup_set _ stack other _

/-- Only a stack that is known has entries to pop. -/
theorem contains_pop (table : StackTable) (stack other : String) :
    (table.pop stack).2.contains other ↔ table.contains other := by
  cases found : table.contents.entries stack with
  | nil => simp [pop, found]
  | cons value rest =>
      have known : table.contains stack := isSome_lookup_of_entries found
      have popped := isSome_lookup_set table.contents stack other rest
      simp only [pop, found, contains] at known popped ⊢
      rw [popped, or_iff_right_of_imp]
      rintro rfl
      exact known

theorem contains_move (table : StackTable) (move : StackMove) (stack : String) :
    (table.move move).contains stack ↔
      table.contains stack ∨ ∃ value, move = .push stack value := by
  cases move with
  | push pushed value =>
      have brought : (∃ other, StackMove.push pushed value = .push stack other) ↔ stack = pushed :=
        ⟨fun ⟨_, same⟩ => (StackMove.push.inj same).1.symm, fun same => ⟨value, same ▸ rfl⟩⟩
      rw [StackTable.move, contains_push, or_comm, brought]
  | pop popped =>
      rw [StackTable.move, contains_pop]
      simp

/-- Pushes make stacks known, and nothing makes them unknown. -/
theorem contains_after (table : StackTable) (moves : List StackMove) (stack : String) :
    (table.after moves).contains stack ↔
      table.contains stack ∨ ∃ value, .push stack value ∈ moves := by
  induction moves generalizing table with
  | nil => simp [after]
  | cons move rest inductionHypothesis =>
      change ((table.move move).after rest).contains stack ↔ _
      rw [inductionHypothesis, contains_move, or_assoc, ← exists_or]
      simp only [List.mem_cons, eq_comm]

/-- Undoing a change makes its stack known too. -/
theorem contains_undo (table : StackTable) (count : Nat) (stack : String) :
    (table.undo count).contains stack ↔
      table.contains stack ∨ ∃ change ∈ table.journal.take count, change.stack = stack := by
  induction count generalizing table with
  | zero => simp [undo]
  | succ count inductionHypothesis =>
      cases recorded : table.journal with
      | nil => simp [undo, recorded]
      | cons change journal =>
          have reverted : ((change.revert table.contents).lookup stack).isSome ↔
              stack = change.stack ∨ (table.contents.lookup stack).isSome := by
            cases change <;> exact isSome_lookup_set ..
          simp only [undo, recorded, inductionHypothesis]
          simp only [contains, reverted, List.take_succ_cons, List.mem_cons, exists_eq_or_imp,
            eq_comm (a := stack)]
          tauto

/-- The changes that moves are recorded as concern stacks that are known after them. -/
theorem journal_after (table : StackTable) (moves : List StackMove) :
    ∃ changes, (table.after moves).journal = changes ++ table.journal ∧
      ∀ change ∈ changes, (table.after moves).contains change.stack := by
  induction moves using List.reverseRecOn with
  | nil => exact ⟨[], rfl, nofun⟩
  | append_singleton moves last inductionHypothesis =>
      obtain ⟨changes, recorded, known⟩ := inductionHypothesis
      have keeps {stack : String} (before : (table.after moves).contains stack) :
          ((table.after moves).move last).contains stack :=
        (contains_move _ last stack).mpr (Or.inl before)
      rw [after_concat]
      cases last with
      | push stack value =>
          refine ⟨.pushed stack :: changes, congrArg (StackChange.pushed stack :: ·) recorded, ?_⟩
          refine List.forall_mem_cons.mpr ⟨?_, fun change member => keeps (known change member)⟩
          exact (contains_push ..).mpr (Or.inl rfl)
      | pop stack =>
          cases found : (table.after moves).contents.entries stack with
          | nil =>
              have nothing : (table.after moves).move (.pop stack) = table.after moves := by
                simp [move, pop, found]
              rw [nothing]
              exact ⟨changes, recorded, known⟩
          | cons value rest =>
              refine ⟨.popped stack value :: changes, ?_, ?_⟩
              · simp [move, pop, found, recorded]
              refine List.forall_mem_cons.mpr ⟨?_, fun change member => keeps (known change member)⟩
              exact keeps (isSome_lookup_of_entries found)

/-- A rollback over moves undoes what they did to the entries of the stacks. The names that they
brought in stay. -/
theorem contains_rollback_after (table : StackTable) (moves : List StackMove) (stack : String) :
    ((table.after moves).rollback table.checkpoint).contains stack ↔
      table.contains stack ∨ ∃ value, .push stack value ∈ moves := by
  obtain ⟨changes, recorded, known⟩ := table.journal_after moves
  have undone : (table.after moves).journal.length - table.checkpoint.changes = changes.length := by
    simp [recorded, checkpoint]
  rw [rollback, undone, contains_undo, recorded, List.take_left, ← contains_after]
  refine or_iff_left_of_imp ?_
  rintro ⟨change, member, rfl⟩
  exact known change member

/-- A rollback over pushes and pops gives every stack back as it was, and a pattern with lawful
callbacks that does not match leaves every stack as it was, in all that can be asked of a stack except
for whether it is known. The stacks that a rollback leaves known are those of the checkpoint and those
that were pushed to. -/
theorem rollback_reports (table : StackTable) (moves : List StackMove) :
    let back := (table.after moves).rollback table.checkpoint
    (∀ stack, back.SameReports table stack) ∧
    (∀ stack, back.contains stack ↔ table.contains stack ∨ ∃ value, .push stack value ∈ moves) ∧
    ∀ (graph : Graph) (pattern : PatternId) (input : Input) (index : Nat) (context : Context),
      graph.Lawful input.text pattern → context.stackTable = table →
        let run := graph.matchIn pattern input index context
        (∀ m, run.result ≠ .ok (some m)) →
          ∀ stack, run.context.stackTable.SameReports table stack := by
  refine ⟨fun stack => ?_, table.contains_rollback_after moves, ?_⟩
  · exact .of_entries ((Extends.after table moves).rollback.entries stack)
  · rintro graph pattern input index context lawful rfl run noMatch stack
    exact .of_entries ((Graph.matchIn_isolated lawful index context).1.entries noMatch stack)

/-- A table with an entry on one stack. -/
def holding : StackTable :=
  push {} "t" (.text "x")

/-- A letter goes onto a stack, and then another letter is not there. -/
def pushing : Graph where
  slots := #[
    some { kind := .chars 1 },
    some { kind := .capture 0 },
    some { kind := .stackCapture "s" 1 },
    some { kind := .literal ['b'] },
    some { kind := .sequence [2, 3] }]

/-- An entry that is popped and replaced, and a match that fails after a push. -/
theorem rollback_reports_pushing :
    let moves : List StackMove := [.pop "t", .push "s" (.text "a"), .push "t" (.int 1)]
    let run := pushing.matchIn 4 (.ofString "ac") 0 { stackTable := holding }
    pushing.Lawful (Text.ofString "ac") 4 ∧ (∀ m, run.result ≠ .ok (some m)) ∧
      (∀ stack, run.context.stackTable.SameReports holding stack) ∧
      ∀ stack, ((holding.after moves).rollback holding.checkpoint).SameReports holding stack := by
  intro moves run
  have lawful : pushing.Lawful (Text.ofString "ac") 4 := by
    intro origin callback _ found
    match origin with
    | 0 | 1 | 2 | 3 | 4 => cases found
    | origin + 5 => cases found
  have failed : run.result = .ok none := by decide +kernel
  have noMatch : ∀ m, run.result ≠ .ok (some m) := by
    rw [failed]
    nofun
  obtain ⟨back, -, left⟩ := rollback_reports holding moves
  exact ⟨lawful, noMatch, left pushing 4 _ 0 _ lawful rfl noMatch, back⟩

/-- A rollback does not take a name away that came in by a push. -/
theorem rollback_keeps_name :
    ¬ ∀ (table : StackTable) (moves : List StackMove) (stack : String),
      ((table.after moves).rollback table.checkpoint).contains stack = table.contains stack := by
  intro forgets
  exact absurd (forgets {} [.push "s" (.text "a")] "s") (by decide +kernel)

end StackTable

end PegEngine
