import PegEngine.Matching.Engine
import PegEngine.Proofs.Journal

/-!
Contract: how the state of a match may change while a pattern is under way.

Owns:
- `answerOf` and `stateOf`, the two sides of an ended action;
- `MatchState.Extends`, for a pattern that is not finished: bindings and stack changes may have
  been added, nothing older is lost, and nesting and trace options are those of the beginning;
- `MatchState.Restores`, for a pattern that did not match: all of that is as at the beginning;
- `Isolated`, the outcome of a whole pattern call;
- that `backtrack` leads from the first to the second and raises no error.
-/

namespace PegEngine

namespace Matching

/-- The value or the error that an action ended with. -/
def answerOf {α : Type} : EStateM.Result MatchError MatchState α → Except MatchError α
  | .ok value _ => .ok value
  | .error error _ => .error error

/-- The state that an action reached. -/
def stateOf {α : Type} : EStateM.Result MatchError MatchState α → MatchState
  | .ok _ state => state
  | .error _ state => state

/-- A value that an action ended with shows how it has ended. -/
theorem eq_ok_of_value {α : Type} {ended : EStateM.Result MatchError MatchState α} {value : α}
    (answer : (answerOf ended).toOption = some value) : ended = .ok value (stateOf ended) := by
  cases ended with
  | ok other reached =>
      cases answer
      rfl
  | error error reached => cases answer

theorem bind_apply {α β : Type} (action : MatchM α) (next : α → MatchM β) (state : MatchState) :
    (action >>= next) state =
      match action state with
      | .ok value reached => next value reached
      | .error error reached => .error error reached := by
  change EStateM.bind action next state = _
  unfold EStateM.bind
  cases action state <;> rfl

theorem get_apply (state : MatchState) : (get : MatchM MatchState) state = .ok state state := rfl

theorem modify_apply (change : MatchState → MatchState) (state : MatchState) :
    (modify change : MatchM PUnit) state = .ok ⟨⟩ (change state) := rfl

theorem orThrow_ok {α : Type} (value : α) (state : MatchState) :
    orThrow (.ok value) state = .ok value state := rfl

theorem orThrow_error {α : Type} (error : MatchError) (state : MatchState) :
    (orThrow (.error error) : MatchM α) state = .error error state := rfl

end Matching

/-- A match is its outermost call, and what the call left behind. -/
theorem Graph.matchIn_eq (graph : Graph) (pattern : PatternId) (input : Input) (index : Nat)
    (context : Context) :
    graph.matchIn pattern input index context =
      let ended := Matching.call (context.setup graph input.text)
        (context.config.limit - context.depth) pattern index (context.state input)
      .ofState (Matching.answerOf ended) input context (Matching.stateOf ended) := by
  unfold matchIn
  dsimp only
  split <;> rename_i ended <;> rw [ended] <;> rfl

namespace Matching

/-! ## The errors that nodes raise -/

theorem checkSpan_error {text : Text} {i : Nat} {m : Match} {error : MatchError}
    (refused : checkSpan text i m = .error error) : error = .invalidSpan m.start m.stop i := by
  unfold checkSpan at refused
  split at refused
  · cases refused
  · exact (Except.error.inj refused).symm

theorem boundValue_error {i : Nat} {index : Option Int} {m : Match} {error : MatchError}
    (refused : boundValue i index m = .error error) :
    ∃ wanted available, error = .captureIndexOutOfRange wanted available i none := by
  unfold boundValue at refused
  split at refused
  · cases refused
  · split at refused
    · cases refused
    · exact ⟨_, _, (Except.error.inj refused).symm⟩

end Matching

/-- Cutting the bindings back to no fewer than `older` are leaves all of `older`. -/
theorem Bindings.suffix_of_restore {bindings cut older : Bindings}
    (kept : older.newestFirst <:+ bindings.newestFirst) {number : Nat}
    (notBelow : older.count ≤ number) (restored : bindings.restore number = .ok cut) :
    older.newestFirst <:+ cut.newestFirst := by
  unfold restore at restored
  split at restored
  · cases restored
  · next enough =>
      have same := Except.ok.inj restored
      have longer := kept.length_le
      simp only [Bindings.count] at notBelow enough same
      simp only [← same]
      apply List.suffix_of_suffix_length_le kept (List.drop_suffix _ _)
      rw [List.length_drop]
      omega

namespace MatchState

/-- The state was reached from `entry` by changes that can be taken back. -/
structure Extends (state entry : MatchState) : Prop where
  bindings : entry.bindings.newestFirst <:+ state.bindings.newestFirst
  stackTable : state.stackTable.Extends entry.stackTable
  depth : state.depth = entry.depth
  options : state.options = entry.options

/-- The state is that of `entry`, apart from the trace and from names of empty stacks. -/
structure Restores (state entry : MatchState) : Prop where
  bindings : state.bindings = entry.bindings
  stackTable : state.stackTable.Alike entry.stackTable
  depth : state.depth = entry.depth
  options : state.options = entry.options

theorem Restores.extends {state entry : MatchState} (restored : state.Restores entry) :
    state.Extends entry where
  bindings := restored.bindings ▸ List.suffix_refl _
  stackTable := .of_alike restored.stackTable
  depth := restored.depth
  options := restored.options

theorem depth_leave {node : Node} {entry state : MatchState}
    (same : state.depth = (entry.enter node).depth) :
    (entry.leave node state).depth = entry.depth := by
  simp [leave, same, enter]

theorem options_leave {node : Node} {entry state : MatchState}
    (same : state.options = (entry.enter node).options) :
    (entry.leave node state).options = entry.options := by
  cases own : node.trace with
  | some options => simp [leave, own]
  | none => simpa [leave, enter, own] using same

namespace Extends

theorem refl (state : MatchState) : state.Extends state :=
  ⟨List.suffix_refl _, .refl _, rfl, rfl⟩

theorem trans {state middle entry : MatchState} (later : state.Extends middle)
    (earlier : middle.Extends entry) : state.Extends entry where
  bindings := earlier.bindings.trans later.bindings
  stackTable := later.stackTable.trans earlier.stackTable
  depth := later.depth.trans earlier.depth
  options := later.options.trans earlier.options

theorem bind (state : MatchState) (name : String) (value : Capture) :
    { state with bindings := state.bindings.bind name value }.Extends state :=
  ⟨List.suffix_cons _ _, .refl _, rfl, rfl⟩

/-- Cutting the bindings back to a number that is not below that of `entry` keeps an extension of
it. -/
theorem restore {state entry : MatchState} (grown : state.Extends entry) {number : Nat}
    {bindings : Bindings} (notBelow : entry.bindings.count ≤ number)
    (restored : state.bindings.restore number = .ok bindings) :
    { state with bindings }.Extends entry :=
  ⟨Bindings.suffix_of_restore grown.bindings notBelow restored, grown.stackTable, grown.depth,
    grown.options⟩

theorem withTable {state entry : MatchState} (grown : state.Extends entry)
    {stackTable : StackTable} (table : stackTable.Extends entry.stackTable) :
    { state with stackTable }.Extends entry :=
  ⟨grown.bindings, table, grown.depth, grown.options⟩

theorem addTrace (state : MatchState) (entries : List TraceEntry) :
    (state.addTrace entries).Extends state :=
  ⟨List.suffix_refl _, .refl _, rfl, rfl⟩

theorem report (setup : Setup) (pattern : PatternId) (index : Nat) (phase : Phase)
    (state : MatchState) : (state.report setup pattern index phase).Extends state := by
  unfold MatchState.report
  split
  · exact refl state
  · dsimp only
    split
    · exact addTrace state _
    · exact refl state

/-- Leaving a call brings nesting and options back to those before it. -/
theorem leave {node : Node} {entry state : MatchState} (grown : state.Extends (entry.enter node)) :
    (entry.leave node state).Extends entry :=
  ⟨grown.bindings, grown.stackTable, depth_leave grown.depth, options_leave grown.options⟩

end Extends

/-- As long as the bindings of `entry` are there, taking back leads to them, without an error. -/
theorem backtrack_of_suffix {entry state : MatchState}
    (kept : entry.bindings.newestFirst <:+ state.bindings.newestFirst) :
    entry.backtrack state = (.ok (),
      { state with
        bindings := entry.bindings
        stackTable := state.stackTable.rollback entry.stackTable.checkpoint }) := by
  have cut : state.bindings.restore entry.bindings.count = .ok entry.bindings := by
    have enough := kept.length_le
    have oldest := List.suffix_iff_eq_drop.mp kept
    unfold Bindings.restore Bindings.count
    rw [if_neg (by omega), ← oldest]
  simp [backtrack, cut]

/-- What was bound and changed since `entry` can be taken back, without an error. -/
theorem backtrack_of_extends {entry state : MatchState} (grown : state.Extends entry) :
    ∃ restored, entry.backtrack state = (.ok (), restored) ∧ restored.Restores entry :=
  ⟨_, backtrack_of_suffix grown.bindings, rfl, grown.stackTable.rollback, grown.depth,
    grown.options⟩

/-- Nothing is settled while a pattern call is under way. -/
theorem settle_of_pos {state : MatchState} (under : 0 < state.depth) : state.settle = state := by
  simp [settle, Nat.ne_of_gt under]

end MatchState

/-- The end of a pattern call that began in `entry`: a match may have added to the state, anything
else leaves it as it was. -/
inductive Isolated (entry : MatchState) : Except MatchError (Option Match) → MatchState → Prop where
  | found {m : Match} {state : MatchState} (grown : state.Extends entry) :
      Isolated entry (.ok (some m)) state
  | missed {state : MatchState} (restored : state.Restores entry) :
      Isolated entry (.ok none) state
  | failed {error : MatchError} {state : MatchState} (restored : state.Restores entry) :
      Isolated entry (.error error) state

theorem Isolated.extends {entry state : MatchState} {answer : Except MatchError (Option Match)}
    (isolated : Isolated entry answer state) : state.Extends entry := by
  cases isolated with
  | found grown => exact grown
  | missed restored => exact restored.extends
  | failed restored => exact restored.extends

end PegEngine
