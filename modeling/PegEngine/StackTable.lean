import PegEngine.Capture
import PegEngine.Error
import PegEngine.Named

/-!
Contract: named stacks of captures with an undo journal.

Every push and pop is recorded. A checkpoint is the length of the journal, and rolling back to
it undoes the newest changes one by one until the journal is no longer than that. `commit`
forgets how to undo, so a checkpoint taken before it undoes nothing.

A stack that was pushed to once stays known, also when it is empty again.
-/

namespace PegEngine

inductive StackChange where
  | pushed (stack : String)
  | popped (stack : String) (value : Capture)
deriving DecidableEq, Repr

/-- Stacks by name, the top entry of each stack first. -/
abbrev NamedStacks := Named (List Capture)

/-- The entries of a stack, top first. A stack that is not known has none. -/
def NamedStacks.entries (contents : NamedStacks) (stack : String) : List Capture :=
  (contents.lookup stack).getD []

@[simp] theorem NamedStacks.entries_set (contents : NamedStacks) (stack other : String)
    (values : List Capture) :
    NamedStacks.entries (Named.set stack values contents) other =
      if other = stack then values else contents.entries other := by
  by_cases same : other = stack <;> simp [entries, Named.lookup_set, same]

/-- The stacks before a change, given those after it. -/
def StackChange.revert (contents : NamedStacks) : StackChange → NamedStacks
  | .pushed stack => Named.set stack (contents.entries stack).tail contents
  | .popped stack value => Named.set stack (value :: contents.entries stack) contents

/-- A moment of a stack table: the length that its journal had. -/
structure Checkpoint where
  changes : Nat
deriving DecidableEq, Repr, Inhabited

/-- Named stacks, and the changes since the last commit with the newest first. -/
structure StackTable where
  contents : NamedStacks := []
  journal : List StackChange := []
deriving DecidableEq, Repr, Inhabited

namespace StackTable

/-- The entries of a stack, bottom first. -/
def entries (table : StackTable) (stack : String) : List Capture :=
  (table.contents.entries stack).reverse

def size (table : StackTable) (stack : String) : Nat :=
  (table.contents.entries stack).length

/-- The stack was pushed to at some time. -/
def contains (table : StackTable) (stack : String) : Bool :=
  (table.contents.lookup stack).isSome

def peek? (table : StackTable) (stack : String) : Option Capture :=
  (table.contents.entries stack).head?

/-- Entry `index` of a stack, counted from the bottom, or down from the top when negative. -/
def entry? (table : StackTable) (stack : String) (index : Int) : Option Capture :=
  Capture.pick? (table.entries stack) index

def push (table : StackTable) (stack : String) (value : Capture) : StackTable where
  contents := Named.set stack (value :: table.contents.entries stack) table.contents
  journal := .pushed stack :: table.journal

/-- Push values in order, so that the last one ends on top. -/
def pushAll (table : StackTable) (stack : String) (values : List Capture) : StackTable :=
  values.foldl (fun table value => table.push stack value) table

/-- Take the top entry off a stack. An empty stack stays as it is. -/
def pop (table : StackTable) (stack : String) : Option Capture × StackTable :=
  match table.contents.entries stack with
  | [] => (none, table)
  | value :: rest =>
      (some value,
        { contents := Named.set stack rest table.contents
          journal := .popped stack value :: table.journal })

/-- Take up to `count` entries off a stack. The values come in the order of the pops. -/
def popUpTo (table : StackTable) (stack : String) : Nat → List Capture × StackTable
  | 0 => ([], table)
  | count + 1 =>
      match table.pop stack with
      | (none, table) => ([], table)
      | (some value, table) =>
          let (values, table) := table.popUpTo stack count
          (value :: values, table)

/-- Take `count` entries off a stack, or change nothing when it holds fewer. -/
def popMany (table : StackTable) (stack : String) (count position : Nat) :
    Except MatchError (List Capture × StackTable) :=
  if table.size stack < count then
    .error (.stackUnderflow stack count (table.size stack) position none)
  else
    .ok (table.popUpTo stack count)

def checkpoint (table : StackTable) : Checkpoint :=
  ⟨table.journal.length⟩

/-- Keep all changes and forget how to undo them. -/
def commit (table : StackTable) : StackTable :=
  { table with journal := [] }

/-- Undo the newest `count` changes of the journal, or all of them when there are fewer. -/
def undo (table : StackTable) : Nat → StackTable
  | 0 => table
  | count + 1 =>
      match table.journal with
      | [] => table
      | change :: journal => undo { contents := change.revert table.contents, journal } count

/-- Undo every change made since a checkpoint. -/
def rollback (table : StackTable) (checkpoint : Checkpoint) : StackTable :=
  table.undo (table.journal.length - checkpoint.changes)

/-! ## What the operations do to the entries -/

theorem size_eq_length (table : StackTable) (stack : String) :
    table.size stack = (table.entries stack).length := by
  simp [size, entries]

theorem peek?_eq_getLast? (table : StackTable) (stack : String) :
    table.peek? stack = (table.entries stack).getLast? := by
  simp [peek?, entries]

@[simp] theorem entries_push (table : StackTable) (stack other : String) (value : Capture) :
    (table.push stack value).entries other =
      if other = stack then table.entries stack ++ [value] else table.entries other := by
  by_cases same : other = stack
  · subst same
    simp [entries, push]
  · simp [entries, push, same]

@[simp] theorem entries_pushAll (table : StackTable) (stack other : String)
    (values : List Capture) :
    (table.pushAll stack values).entries other =
      if other = stack then table.entries stack ++ values else table.entries other := by
  induction values generalizing table with
  | nil =>
      by_cases same : other = stack
      · subst same
        simp [pushAll]
      · simp [pushAll, same]
  | cons head tail inductionHypothesis =>
      have unfolded : table.pushAll stack (head :: tail) =
          (table.push stack head).pushAll stack tail := rfl
      rw [unfolded, inductionHypothesis]
      by_cases same : other = stack <;> simp [same]

/-- A pop gives the last entry and takes it off. -/
theorem pop_fst (table : StackTable) (stack : String) :
    (table.pop stack).1 = (table.entries stack).getLast? := by
  unfold pop entries
  split <;> simp_all

theorem entries_pop (table : StackTable) (stack other : String) :
    (table.pop stack).2.entries other =
      if other = stack then (table.entries stack).dropLast else table.entries other := by
  unfold pop
  split
  · rename_i empty
    by_cases same : other = stack
    · subst same
      simp [entries, empty]
    · simp [same]
  · rename_i value rest found
    by_cases same : other = stack
    · subst same
      simp [entries, found]
    · simp [entries, same]

/-- Pops take entries off the end. -/
theorem entries_popUpTo (table : StackTable) (stack other : String) (count : Nat) :
    (table.popUpTo stack count).2.entries other =
      if other = stack then
        (table.entries stack).take ((table.entries stack).length - count)
      else table.entries other := by
  induction count generalizing table with
  | zero =>
      by_cases same : other = stack
      · subst same
        simp [popUpTo]
      · simp [popUpTo, same]
  | succ count inductionHypothesis =>
      have value := pop_fst table stack
      have rest := entries_pop table stack
      rcases popped : table.pop stack with ⟨top, fewer⟩
      rw [popped] at value rest
      cases top with
      | none =>
          have empty : table.entries stack = [] := by simpa using value.symm
          simp only [popUpTo, popped]
          rw [rest other]
          by_cases same : other = stack <;> simp [same, empty]
      | some value =>
          simp only [popUpTo, popped]
          rw [inductionHypothesis, rest stack, rest other]
          by_cases same : other = stack
          · simp only [same, if_pos, List.dropLast_eq_take, List.length_take, List.take_take]
            congr 1
            omega
          · simp [same]

/-! ## Checkpoints -/

/-- Nothing has changed since a checkpoint that is taken now. -/
theorem rollback_checkpoint (table : StackTable) : table.rollback table.checkpoint = table := by
  simp [rollback, checkpoint, undo]

/-- After a commit there is nothing to undo. -/
theorem rollback_commit (table : StackTable) (checkpoint : Checkpoint) :
    table.commit.rollback checkpoint = table.commit := by
  simp [rollback, commit, undo]

/-- Undoing a push gives back the entries before it. -/
theorem entries_undo_push (table : StackTable) (stack other : String) (value : Capture) :
    ((table.push stack value).undo 1).entries other = table.entries other := by
  by_cases same : other = stack
  · subst same
    simp [undo, push, StackChange.revert, entries]
  · simp [undo, push, StackChange.revert, entries, same]

end StackTable

end PegEngine
