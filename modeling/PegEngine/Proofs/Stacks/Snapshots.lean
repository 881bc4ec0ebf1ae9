import PegEngine.Proofs.Journal

/-!
Contract: a stack table against a map that keeps whole copies of itself.

A client makes requests to a store of named stacks. A table answers them with its journal. A
`SnapshotMap` undoes nothing: before each entry that is pushed or popped it lays a copy of the whole
map aside, and going back puts one of the copies in the place of the map. No request tells the two
apart.

Owns:
- `StackStore`, what a client may ask of named stacks, with the two stores;
- `StackSession`, a client's store and the checkpoints that it took, and `StackSession.run`;
- `SnapshotMap.Tracks`, which every request keeps: each checkpoint of the table is a copy of the map;
- `StackSession.spares` and `StackSession.Keeps`, for checkpoints that are not undercut.
-/

namespace PegEngine

/-- Operations on named stacks. -/
class StackStore (σ : Type) where
  push : σ → String → Capture → σ
  pushAll : σ → String → List Capture → σ
  pop : σ → String → Option Capture × σ
  popMany : σ → String → (count position : Nat) → Except MatchError (List Capture × σ)
  checkpoint : σ → Checkpoint
  rollback : σ → Checkpoint → σ
  commit : σ → σ

instance : StackStore StackTable where
  push := StackTable.push
  pushAll := StackTable.pushAll
  pop := StackTable.pop
  popMany := StackTable.popMany
  checkpoint := StackTable.checkpoint
  rollback := StackTable.rollback
  commit := StackTable.commit

/-! ## Stacks by value -/

/-- The entries of all stacks, bottom first. -/
abbrev StackEntries := String → List Capture

/-- The stacks, and a copy of all of them from before each change since the last commit, the oldest
copy first. -/
structure SnapshotMap where
  current : StackEntries := fun _ => []
  copies : List StackEntries := []

namespace SnapshotMap

/-- Give a stack new entries, with a copy of the stacks as they are laid aside. -/
def change (map : SnapshotMap) (stack : String) (entries : List Capture) : SnapshotMap where
  current other := if other = stack then entries else map.current other
  copies := map.copies ++ [map.current]

def push (map : SnapshotMap) (stack : String) (value : Capture) : SnapshotMap :=
  map.change stack (map.current stack ++ [value])

def pushAll (map : SnapshotMap) (stack : String) (values : List Capture) : SnapshotMap :=
  values.foldl (fun map value => map.push stack value) map

def pop (map : SnapshotMap) (stack : String) : Option Capture × SnapshotMap :=
  match (map.current stack).getLast? with
  | none => (none, map)
  | some value => (some value, map.change stack (map.current stack).dropLast)

def popUpTo (map : SnapshotMap) (stack : String) : Nat → List Capture × SnapshotMap
  | 0 => ([], map)
  | count + 1 =>
      match map.pop stack with
      | (none, map) => ([], map)
      | (some value, map) =>
          let (values, map) := map.popUpTo stack count
          (value :: values, map)

def popMany (map : SnapshotMap) (stack : String) (count position : Nat) :
    Except MatchError (List Capture × SnapshotMap) :=
  let available := (map.current stack).length
  if available < count then
    .error (.stackUnderflow stack count available position none)
  else
    .ok (map.popUpTo stack count)

/-- Put the copy that was laid aside after so many changes in the place of the stacks. Newer copies
are gone. Nothing happens if there is no such copy. -/
def rollback (map : SnapshotMap) (checkpoint : Checkpoint) : SnapshotMap :=
  match map.copies[checkpoint.changes]? with
  | none => map
  | some copy => { current := copy, copies := map.copies.take checkpoint.changes }

instance : StackStore SnapshotMap where
  push := push
  pushAll := pushAll
  pop := pop
  popMany := popMany
  checkpoint map := ⟨map.copies.length⟩
  rollback := rollback
  commit map := { map with copies := [] }

end SnapshotMap

/-! ## Clients -/

/-- What a client asks of a store. -/
inductive StackRequest where
  | push (stack : String) (value : Capture)
  | pushAll (stack : String) (values : List Capture)
  | pop (stack : String)
  | popMany (stack : String) (count position : Nat)
  | checkpoint
  /-- Go back to a checkpoint, given by its place in the order in which they were taken. -/
  | rollback (number : Nat)
  | commit
deriving DecidableEq, Repr

inductive StackAnswer where
  | done
  | popped (value : Option Capture)
  | poppedMany (values : List Capture)
  | refused (error : MatchError)
deriving DecidableEq, Repr

/-- A store, and the checkpoints that its client took, in order. -/
structure StackSession (σ : Type) where
  store : σ
  taken : List Checkpoint := []

namespace StackSession

variable {σ : Type} [StackStore σ]

open StackStore in
def step (session : StackSession σ) : StackRequest → StackAnswer × StackSession σ
  | .push stack value => (.done, { session with store := push session.store stack value })
  | .pushAll stack values => (.done, { session with store := pushAll session.store stack values })
  | .pop stack =>
      let (value, store) := pop session.store stack
      (.popped value, { session with store })
  | .popMany stack count position =>
      match popMany session.store stack count position with
      | .ok (values, store) => (.poppedMany values, { session with store })
      | .error error => (.refused error, session)
  | .checkpoint =>
      (.done, { session with taken := session.taken ++ [checkpoint session.store] })
  | .rollback number =>
      match session.taken[number]? with
      | some checkpoint =>
          (.done, { session with store := rollback session.store checkpoint })
      | none => (.done, session)
  | .commit => (.done, { session with store := commit session.store })

/-- The requests one after the other, with their answers. -/
def run : List StackRequest → StackSession σ → List StackAnswer × StackSession σ
  | [], session => ([], session)
  | request :: rest, session =>
      let (answer, next) := session.step request
      let (answers, last) := run rest next
      (answer :: answers, last)

theorem run_cons (request : StackRequest) (rest : List StackRequest) (session : StackSession σ) :
    run (request :: rest) session =
      ((session.step request).1 :: (run rest (session.step request).2).1,
        (run rest (session.step request).2).2) := rfl

theorem run_append (earlier later : List StackRequest) (session : StackSession σ) :
    (run (earlier ++ later) session).2 = (run later (run earlier session).2).2 := by
  induction earlier generalizing session with
  | nil => rfl
  | cons request rest inductionHypothesis => exact inductionHypothesis (session.step request).2

end StackSession

/-! ## The table and the copies -/

namespace SnapshotMap

/-- The map has the entries of the table, and for each change that the table can undo a copy with
the entries that undoing it gives back. -/
structure Tracks (map : SnapshotMap) (table : StackTable) : Prop where
  current : ∀ stack, table.entries stack = map.current stack
  length : table.journal.length = map.copies.length
  copies : ∀ changes copy, map.copies[changes]? = some copy →
    ∀ stack, (table.rollback ⟨changes⟩).entries stack = copy stack

namespace Tracks

variable {map : SnapshotMap} {table changed : StackTable}

theorem empty : Tracks {} {} where
  current _ := rfl
  length := rfl
  copies _ _ found := nomatch found

/-- A change that the table records has its copy. -/
theorem change (tracks : map.Tracks table) (grown : changed.Extends table)
    (recorded : changed.journal.length = table.journal.length + 1) {stack : String}
    {entries : List Capture}
    (changedTo : ∀ other, changed.entries other =
      if other = stack then entries else table.entries other) :
    (map.change stack entries).Tracks changed where
  current other := by rw [changedTo, tracks.current, SnapshotMap.change]
  length := by simp [SnapshotMap.change, recorded, tracks.length]
  copies := by
    intro changes copy found other
    simp only [SnapshotMap.change] at found
    by_cases old : changes < map.copies.length
    · rw [List.getElem?_append_left old] at found
      have early : changes ≤ table.journal.length := by
        rw [tracks.length]
        exact Nat.le_of_lt old
      rw [(grown.rollback_alike early).entries other]
      exact tracks.copies changes copy found other
    · have inside := (List.getElem?_eq_some_iff.mp found).1
      have newest : changes = map.copies.length := by
        rw [List.length_append, List.length_singleton] at inside
        omega
      rw [newest, List.getElem?_concat_length] at found
      rw [← Option.some.inj found, ← tracks.current, newest, ← tracks.length]
      exact grown.rollback.entries other

theorem push (tracks : map.Tracks table) (stack : String) (value : Capture) :
    (map.push stack value).Tracks (table.push stack value) := by
  apply tracks.change (StackTable.Extends.push table stack value) rfl
  intro other
  rw [StackTable.entries_push, tracks.current]

theorem pushAll (tracks : map.Tracks table) (stack : String) (values : List Capture) :
    (map.pushAll stack values).Tracks (table.pushAll stack values) := by
  induction values generalizing map table with
  | nil => exact tracks
  | cons value rest inductionHypothesis => exact inductionHypothesis (tracks.push stack value)

/-- Both stores have the same top entry, or none. -/
theorem pop (tracks : map.Tracks table) (stack : String) :
    (table.pop stack).1 = (map.pop stack).1 ∧ (map.pop stack).2.Tracks (table.pop stack).2 := by
  have top := StackTable.pop_fst table stack
  have grown := StackTable.Extends.pop table stack
  have entries := StackTable.entries_pop table stack
  rw [tracks.current] at top
  cases found : table.contents.entries stack with
  | nil =>
      have popped : table.pop stack = (none, table) := by simp [StackTable.pop, found]
      rw [popped] at top ⊢
      simp only [SnapshotMap.pop, ← top]
      exact ⟨trivial, tracks⟩
  | cons value rest =>
      have popped : table.pop stack = (some value,
          { contents := Named.set stack rest table.contents
            journal := .popped stack value :: table.journal }) := by
        simp [StackTable.pop, found]
      rw [popped] at top grown entries ⊢
      simp only [SnapshotMap.pop, ← top]
      refine ⟨trivial, tracks.change grown rfl fun other => ?_⟩
      rw [entries, tracks.current]

theorem popUpTo (tracks : map.Tracks table) (stack : String) (count : Nat) :
    (table.popUpTo stack count).1 = (map.popUpTo stack count).1 ∧
      (map.popUpTo stack count).2.Tracks (table.popUpTo stack count).2 := by
  induction count generalizing map table with
  | zero => exact ⟨rfl, tracks⟩
  | succ count inductionHypothesis =>
      obtain ⟨sameTop, further⟩ := tracks.pop stack
      simp only [StackTable.popUpTo, SnapshotMap.popUpTo]
      generalize table.pop stack = popped at sameTop further ⊢
      generalize map.pop stack = taken at sameTop further ⊢
      obtain ⟨top, fewer⟩ := popped
      obtain ⟨same, copy⟩ := taken
      dsimp only at sameTop further
      subst sameTop
      cases top with
      | none => exact ⟨rfl, further⟩
      | some value =>
          obtain ⟨sameRest, last⟩ := inductionHypothesis further
          exact ⟨congrArg (value :: ·) sameRest, last⟩

theorem size (tracks : map.Tracks table) (stack : String) :
    table.size stack = (map.current stack).length := by
  rw [StackTable.size_eq_length, tracks.current]

/-- Going back to any checkpoint, also one that is no longer good. -/
theorem rollback (tracks : map.Tracks table) (checkpoint : Checkpoint) :
    (map.rollback checkpoint).Tracks (table.rollback checkpoint) := by
  unfold SnapshotMap.rollback
  cases found : map.copies[checkpoint.changes]? with
  | none =>
      have short : table.journal.length ≤ checkpoint.changes := by
        rw [tracks.length]
        exact List.getElem?_eq_none_iff.mp found
      rw [StackTable.rollback_of_length_le short]
      exact tracks
  | some copy =>
      have inside := (List.getElem?_eq_some_iff.mp found).1
      refine ⟨tracks.copies _ copy found, ?_, ?_⟩
      · rw [StackTable.length_journal_rollback, List.length_take, tracks.length, Nat.min_comm]
      · intro changes older foundOlder stack
        have early : changes < checkpoint.changes := by
          have bound := (List.getElem?_eq_some_iff.mp foundOlder).1
          rw [List.length_take] at bound
          omega
        have once : (table.rollback checkpoint).rollback ⟨changes⟩ = table.rollback ⟨changes⟩ :=
          table.rollback_rollback (Nat.le_of_lt early)
        rw [List.getElem?_take_of_lt early] at foundOlder
        rw [once]
        exact tracks.copies changes older foundOlder stack

theorem commit (tracks : map.Tracks table) :
    Tracks { map with copies := [] } table.commit where
  current := tracks.current
  length := rfl
  copies _ _ found := nomatch found

end Tracks

end SnapshotMap

namespace StackSession

variable {session base : StackSession StackTable} {reference : StackSession SnapshotMap}

/-- A table and its copies answer a request in the same way, and remain each other's copies. -/
theorem step_tracks (tracks : reference.store.Tracks session.store)
    (taken : session.taken = reference.taken) (request : StackRequest) :
    (session.step request).1 = (reference.step request).1 ∧
      (reference.step request).2.store.Tracks (session.step request).2.store ∧
      (session.step request).2.taken = (reference.step request).2.taken := by
  cases request with
  | push stack value => exact ⟨rfl, tracks.push stack value, taken⟩
  | pushAll stack values => exact ⟨rfl, tracks.pushAll stack values, taken⟩
  | pop stack =>
      obtain ⟨same, further⟩ := tracks.pop stack
      exact ⟨congrArg StackAnswer.popped same, further, taken⟩
  | popMany stack count position =>
      obtain ⟨same, further⟩ := tracks.popUpTo stack count
      simp only [step, StackStore.popMany, StackTable.popMany, SnapshotMap.popMany]
      rw [tracks.size]
      by_cases short : (reference.store.current stack).length < count
      · simp only [if_pos short]
        exact ⟨trivial, tracks, taken⟩
      · simp only [if_neg short]
        exact ⟨congrArg StackAnswer.poppedMany same, further, taken⟩
  | checkpoint =>
      refine ⟨rfl, tracks, ?_⟩
      simp [step, StackStore.checkpoint, StackTable.checkpoint, taken, tracks.length]
  | rollback number =>
      simp only [step, taken]
      cases reference.taken[number]? with
      | none => exact ⟨rfl, tracks, taken⟩
      | some checkpoint => exact ⟨rfl, tracks.rollback checkpoint, rfl⟩
  | commit => exact ⟨rfl, tracks.commit, taken⟩

theorem run_tracks (tracks : reference.store.Tracks session.store)
    (taken : session.taken = reference.taken) (requests : List StackRequest) :
    (run requests session).1 = (run requests reference).1 ∧
      (run requests reference).2.store.Tracks (run requests session).2.store := by
  induction requests generalizing session reference with
  | nil => exact ⟨rfl, tracks⟩
  | cons request rest inductionHypothesis =>
      obtain ⟨sameAnswer, tracksNext, takenNext⟩ := step_tracks tracks taken request
      obtain ⟨sameAnswers, tracksLast⟩ := inductionHypothesis tracksNext takenNext
      simp only [run_cons, sameAnswer, sameAnswers]
      exact ⟨trivial, tracksLast⟩

/-! ## Checkpoints that are not undercut -/

/-- A checkpoint that is taken in the session stays good when the request is made later: it is no
commit, and does not go back to a checkpoint from before that lies below. Checkpoints that are yet
to be taken do no harm. -/
def spares (session : StackSession StackTable) : StackRequest → Bool
  | .commit => false
  | .rollback number =>
      match session.taken[number]? with
      | some earlier => session.store.journal.length ≤ earlier.changes
      | none => true
  | _ => true

/-- The session was reached from `base` without losing what the checkpoints of `base` go back to. -/
structure Keeps (base session : StackSession StackTable) : Prop where
  store : session.store.Extends base.store
  taken : ∃ later, session.taken = base.taken ++ later ∧
    ∀ checkpoint ∈ later, base.store.journal.length ≤ checkpoint.changes

namespace Keeps

/-- The checkpoints that a spared session goes back to do not lie below. -/
theorem notBelow (keeps : base.Keeps session) {number : Nat}
    (spared : base.spares (.rollback number)) {checkpoint : Checkpoint}
    (found : session.taken[number]? = some checkpoint) :
    base.store.journal.length ≤ checkpoint.changes := by
  obtain ⟨later, taken, notBelow⟩ := keeps.taken
  rw [taken] at found
  by_cases old : number < base.taken.length
  · rw [List.getElem?_append_left old] at found
    simpa [spares, found] using spared
  · rw [List.getElem?_append_right (Nat.le_of_not_lt old)] at found
    exact notBelow checkpoint (List.mem_of_getElem? found)

theorem step (keeps : base.Keeps session) {request : StackRequest} (spared : base.spares request) :
    base.Keeps (session.step request).2 := by
  have grow {table : StackTable} (grown : table.Extends session.store) :
      base.Keeps { session with store := table } :=
    ⟨grown.trans keeps.store, keeps.taken⟩
  cases request with
  | push stack value => exact grow (.push session.store stack value)
  | pushAll stack values => exact grow (.pushAll session.store stack values)
  | pop stack => exact grow (.pop session.store stack)
  | popMany stack count position =>
      simp only [StackSession.step, StackStore.popMany]
      cases popped : session.store.popMany stack count position with
      | ok taken => exact grow (.popMany popped)
      | error error => exact keeps
  | checkpoint =>
      obtain ⟨later, taken, notBelow⟩ := keeps.taken
      refine ⟨keeps.store, later ++ [session.store.checkpoint], ?_, ?_⟩
      · simp [StackSession.step, StackStore.checkpoint, taken]
      · intro checkpoint member
        rcases List.mem_append.mp member with old | new
        · exact notBelow checkpoint old
        · rw [List.mem_singleton.mp new]
          exact keeps.store.length_le
  | rollback number =>
      simp only [StackSession.step]
      cases found : session.taken[number]? with
      | none => exact keeps
      | some checkpoint =>
          exact ⟨keeps.store.rollback_of_le (keeps.notBelow spared found), keeps.taken⟩
  | commit => cases spared

theorem run (keeps : base.Keeps session) {requests : List StackRequest}
    (spared : ∀ request ∈ requests, base.spares request) :
    base.Keeps (StackSession.run requests session).2 := by
  induction requests generalizing session with
  | nil => exact keeps
  | cons request rest inductionHypothesis =>
      obtain ⟨first, others⟩ := List.forall_mem_cons.mp spared
      exact inductionHypothesis (keeps.step first) others

end Keeps

/-- What a store refuses changes nothing. -/
theorem step_refused {σ : Type} [StackStore σ] {session : StackSession σ} {request : StackRequest}
    {error : MatchError} (refused : (session.step request).1 = .refused error) :
    (session.step request).2 = session := by
  cases request with
  | push | pushAll | pop | checkpoint | commit => cases refused
  | popMany stack count position =>
      simp only [step] at refused ⊢
      split at refused
      · cases refused
      · rfl
  | rollback number =>
      simp only [step] at refused
      split at refused <;> cases refused

/-- However a client uses a table, it finds what the map with copies has. A checkpoint that is
neither committed away nor undercut goes back to the moment at which it was taken. What the table
refuses leaves it as it is. -/
theorem run_refines_snapshots (requests : List StackRequest) :
    let start : StackSession StackTable := { store := {} }
    let copied : StackSession SnapshotMap := { store := {} }
    let ran := run requests start
    ran.1 = (run requests copied).1 ∧
      (∀ stack, ran.2.store.entries stack = (run requests copied).2.store.current stack) ∧
      (∀ earlier later, requests = earlier ++ .checkpoint :: later →
        let base := (run earlier start).2
        (∀ request ∈ later, base.spares request) →
          (ran.2.store.rollback base.store.checkpoint).Alike base.store) ∧
      ∀ request error, (ran.2.step request).1 = .refused error → (ran.2.step request).2 = ran.2 := by
  intro start copied ran
  have tracked : copied.store.Tracks start.store := .empty
  obtain ⟨sameAnswers, tracks⟩ := run_tracks tracked rfl requests
  refine ⟨sameAnswers, tracks.current, ?_, fun request error => step_refused⟩
  intro earlier later whole base spared
  have taken : base.Keeps (base.step .checkpoint).2 := by
    refine ⟨.refl _, [base.store.checkpoint], rfl, fun checkpoint member => ?_⟩
    rw [List.mem_singleton.mp member]
    exact Nat.le_refl _
  have ranOn : ran.2 = (run later (base.step .checkpoint).2).2 := by
    change (run requests start).2 = _
    rw [whole, run_append, run_cons]
  rw [ranOn]
  exact (taken.run spared).store.rollback

/-- Two entries of a stack that is about to be emptied. -/
def beforeNesting : List StackRequest :=
  [.pushAll "s" [.text "a", .text "b"]]

/-- Pops below the level of a checkpoint, a second checkpoint and the way back to it, and a pop that
is refused. -/
def nesting : List StackRequest :=
  [.pop "s", .pop "s", .push "t" (.text "c"), .checkpoint, .push "s" (.int 1), .popMany "t" 2 0,
    .rollback 1, .push "s" (.text "d")]

theorem run_refines_snapshots_nesting :
    let start : StackSession StackTable := { store := {} }
    let base := (run beforeNesting start).2
    let ran := (run (beforeNesting ++ .checkpoint :: nesting) start).2
    (∀ request ∈ nesting, base.spares request) ∧
      (ran.step (.popMany "t" 2 0)).1 = .refused (.stackUnderflow "t" 2 1 0 none) ∧
      (ran.store.rollback base.store.checkpoint).Alike base.store ∧
      (ran.step (.popMany "t" 2 0)).2 = ran := by
  intro start base ran
  obtain ⟨-, -, goesBack, unchanged⟩ :=
    run_refines_snapshots (beforeNesting ++ .checkpoint :: nesting)
  have spared : ∀ request ∈ nesting, base.spares request := by decide +kernel
  have refused : (ran.step (.popMany "t" 2 0)).1 = .refused (.stackUnderflow "t" 2 1 0 none) := by
    decide +kernel
  exact ⟨spared, refused, goesBack _ _ rfl spared, unchanged _ _ refused⟩

end StackSession

end PegEngine
