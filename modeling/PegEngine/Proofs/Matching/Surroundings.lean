import PegEngine.Proofs.Matching.Access
import PegEngine.Proofs.Matching.Isolation
import PegEngine.Proofs.Matching.Refusals
import PegEngine.Proofs.Matching.TracedCalls

/-!
Contract: a pattern does the same wherever it is tried, as long as the nesting leaves room for it.

A match goes by the text, by the bindings and by the entries and the changes of the stacks. How deep
it is nested, which trace options are in effect around it, and which of the empty stacks have been
in use before, makes no difference to it. Callbacks are part of this if they do not go by any of
that.

Owns:
- `Program.IgnoresSurroundings`, what is asked of callbacks, and that most scripts are so;
- `MatchState.Akin`, for states that differ in their surroundings only;
- `Matching.DoesAlike`, a relation between two actions, of which the first one may end at the limit
  instead;
- `Matching.call_doesAlike` for calls inside others;
- `Matching.callUnsettled`, the outermost call before it settles, and
  `Matching.callUnsettled_doesAlike` for it and one that is not outermost.
-/

namespace PegEngine

/-! ## Callbacks -/

/-- The program goes on in the same way however deep it is nested, whatever the trace options and
whichever empty stacks are known. -/
def Program.IgnoresSurroundings : Program → Prop
  | .finish _ | .fail _ => True
  | .inspect next =>
      (∀ view other : CallbackView, view.bindings = other.bindings →
        view.stackTable.Alike other.stackTable → next view = next other) ∧
      ∀ view, (next view).IgnoresSurroundings
  | .bind _ _ next | .push _ _ next | .commit next | .rollback _ next => next.IgnoresSurroundings
  | .restore _ next => ∀ answer, (next answer).IgnoresSurroundings
  | .pop _ next => ∀ value, (next value).IgnoresSurroundings
  | .popMany _ _ _ next => ∀ answer, (next answer).IgnoresSurroundings
  | .run _ _ next => ∀ answer, (next answer).IgnoresSurroundings

/-- The callback does so wherever it is called in the text. -/
def Callback.IgnoresSurroundings (text : Text) (callback : Callback) : Prop :=
  ∀ i ≤ text.length, (callback.program text i).IgnoresSurroundings

/-- Every callback that `pattern` comes to does so. -/
def Graph.IgnoresSurroundings (graph : Graph) (text : Text) (pattern : PatternId) : Prop :=
  ∀ origin callback, graph.Reaches pattern origin → graph.kind origin = .function callback →
    callback.IgnoresSurroundings text

theorem Graph.IgnoresSurroundings.of_calls {graph : Graph} {text : Text}
    {pattern next : PatternId} (ignores : graph.IgnoresSurroundings text pattern)
    (step : graph.Calls pattern next) : graph.IgnoresSurroundings text next :=
  fun origin callback reaches => ignores origin callback (.of_calls step reaches)

namespace Script

theorem closed_ignoresSurroundings {script : Script} (noState : script.verdict ≠ .state) :
    script.Closed Program.IgnoresSurroundings where
  finish _ := trivial
  state asked _ := absurd asked noState
  bound outcome := by
    refine ⟨fun view other sameBindings _ => ?_, fun _ => trivial⟩
    dsimp only
    rw [sameBindings]
  mark rest := by
    refine ⟨fun view other _ alike => ?_, fun _ => rest _⟩
    dsimp only
    rw [alike.checkpoint]
  bind rest := rest
  restore _ rest := holds_orFail (fun _ => trivial) fun _ => rest
  push rest := rest
  pop rest _ := rest
  popMany rest := holds_orFail (fun _ => trivial) fun _ => rest
  commit rest := rest
  rollback rest := rest
  run rest := holds_orFail (fun _ => trivial) rest

/-- Scripts ignore their surroundings unless they answer with the state. -/
theorem ignoresSurroundings {script : Script} (noState : script.verdict ≠ .state) (text : Text) :
    script.callback.IgnoresSurroundings text :=
  fun i _ => (closed_ignoresSurroundings noState).program text i

end Script

/-! ## States -/

/-- The states differ in the trace, in the trace options and in empty stacks that are known, at
most. The one is at `depth` and the other one at `otherDepth`. -/
structure MatchState.Akin (depth otherDepth : Nat) (state other : MatchState) : Prop where
  bindings : state.bindings = other.bindings
  stackTable : state.stackTable.Alike other.stackTable
  level : state.depth = depth
  otherLevel : other.depth = otherDepth

namespace MatchState.Akin

variable {depth otherDepth : Nat} {state other : MatchState}

theorem withTable (akin : state.Akin depth otherDepth other) {table otherTable : StackTable}
    (alike : table.Alike otherTable) :
    { state with stackTable := table }.Akin depth otherDepth
      { other with stackTable := otherTable } :=
  ⟨akin.bindings, alike, akin.level, akin.otherLevel⟩

theorem withBindings (akin : state.Akin depth otherDepth other) (bindings : Bindings) :
    { state with bindings }.Akin depth otherDepth { other with bindings } :=
  ⟨rfl, akin.stackTable, akin.level, akin.otherLevel⟩

theorem enter (akin : state.Akin depth otherDepth other) (node otherNode : Node) :
    (state.enter node).Akin (depth + 1) (otherDepth + 1) (other.enter otherNode) :=
  ⟨akin.bindings, akin.stackTable, congrArg (· + 1) akin.level, congrArg (· + 1) akin.otherLevel⟩

theorem leave (akin : state.Akin (depth + 1) (otherDepth + 1) other) (node otherNode : Node)
    (entry otherEntry : MatchState) :
    (entry.leave node state).Akin depth otherDepth (otherEntry.leave otherNode other) :=
  ⟨akin.bindings, akin.stackTable, congrArg (· - 1) akin.level, congrArg (· - 1) akin.otherLevel⟩

theorem report (akin : state.Akin depth otherDepth other) (setup otherSetup : Setup)
    (pattern copy : PatternId) (i : Nat) (phase : Phase) :
    (state.report setup pattern i phase).Akin depth otherDepth
      (other.report otherSetup copy i phase) := by
  obtain ⟨trace, reported⟩ := Matching.report_eq setup pattern i phase state
  obtain ⟨otherTrace, otherReported⟩ := Matching.report_eq otherSetup copy i phase other
  rw [reported, otherReported]
  exact ⟨akin.bindings, akin.stackTable, akin.level, akin.otherLevel⟩

/-- Taking back goes by what is alike. -/
theorem backtrack {entry otherEntry : MatchState} {entryDepth otherEntryDepth : Nat}
    (entries : entry.Akin entryDepth otherEntryDepth otherEntry)
    (akin : state.Akin depth otherDepth other) :
    (entry.backtrack state).1 = (otherEntry.backtrack other).1 ∧
      (entry.backtrack state).2.Akin depth otherDepth (otherEntry.backtrack other).2 := by
  have undone : (state.stackTable.rollback entry.stackTable.checkpoint).Alike
      (other.stackTable.rollback otherEntry.stackTable.checkpoint) := by
    rw [entries.stackTable.checkpoint]
    exact akin.stackTable.rollback _
  unfold MatchState.backtrack
  simp only [akin.bindings, entries.bindings]
  cases other.bindings.restore otherEntry.bindings.count with
  | ok bindings => exact ⟨rfl, rfl, undone, akin.level, akin.otherLevel⟩
  | error error => exact ⟨rfl, rfl, undone, akin.level, akin.otherLevel⟩

theorem symm (akin : state.Akin depth otherDepth other) : other.Akin otherDepth depth state :=
  ⟨akin.bindings.symm, akin.stackTable.symm, akin.otherLevel, akin.level⟩

theorem trans {third : MatchState} {thirdDepth : Nat} (akin : state.Akin depth otherDepth other)
    (further : other.Akin otherDepth thirdDepth third) : state.Akin depth thirdDepth third :=
  ⟨akin.bindings.trans further.bindings, akin.stackTable.trans further.stackTable, akin.level,
    further.otherLevel⟩

theorem settle (akin : state.Akin depth depth other) :
    state.settle.Akin depth depth other.settle := by
  have level := akin.level
  have otherLevel := akin.otherLevel
  unfold MatchState.settle
  by_cases outermost : depth = 0
  · rw [if_pos (level.trans outermost), if_pos (otherLevel.trans outermost)]
    exact akin.withTable akin.stackTable.commit
  · rw [if_neg (level ▸ outermost), if_neg (otherLevel ▸ outermost)]
    exact akin

end MatchState.Akin

namespace Matching

/-! ## Actions -/

variable {α : Type} {depth otherDepth : Nat}

/-- The actions end in the same way and in states that are akin, unless the first one ends at the
limit. -/
inductive EndsAkin (depth otherDepth : Nat) : EStateM.Result MatchError MatchState α →
    EStateM.Result MatchError MatchState α → Prop where
  | ok {value : α} {state other : MatchState} (akin : state.Akin depth otherDepth other) :
      EndsAkin depth otherDepth (.ok value state) (.ok value other)
  | error {error : MatchError} {state other : MatchState}
      (akin : state.Akin depth otherDepth other) :
      EndsAkin depth otherDepth (.error error state) (.error error other)
  | limit {ended other : EStateM.Result MatchError MatchState α}
      (limited : atLimit (answerOf ended)) : EndsAkin depth otherDepth ended other

/-- Unless it ends at the limit, the action has the same answer as the other one. -/
theorem EndsAkin.answer {ended other : EStateM.Result MatchError MatchState α}
    (ends : EndsAkin depth otherDepth ended other) (free : ¬ atLimit (answerOf ended)) :
    answerOf ended = answerOf other ∧ (stateOf ended).Akin depth otherDepth (stateOf other) := by
  cases ends with
  | ok akin | error akin => exact ⟨rfl, akin⟩
  | limit limited => exact absurd limited free

/-- From states that are akin the two actions come to ends that are so. -/
def DoesAlike (depth otherDepth : Nat) (action other : MatchM α) : Prop :=
  ∀ state otherState, state.Akin depth otherDepth otherState →
    EndsAkin depth otherDepth (action state) (other otherState)

theorem doesAlike_accesses (depth otherDepth : Nat) :
    Accesses (fun _ => True) (fun _ => True) fun {α} => @DoesAlike α depth otherDepth where
  pure _ := fun _ _ akin => .ok akin
  throw _ := fun _ _ akin => .error akin
  bind := by
    intro α β action other next otherNext first rest state otherState akin
    have ends := first state otherState akin
    rw [bind_apply, bind_apply]
    generalize action state = ended at ends
    generalize other otherState = otherEnded at ends
    cases ends with
    | ok akin => exact rest _ _ _ akin
    | error akin => exact .error akin
    | limit limited =>
        cases ended with
        | ok value reached => cases limited
        | error error reached => exact .limit limited
  addTrace _ := fun _ _ akin =>
    .ok ⟨akin.bindings, akin.stackTable, akin.level, akin.otherLevel⟩
  readName {name} _ := fun state otherState akin => by
    change EndsAkin depth otherDepth (.ok (state.bindings.lookup? name) state)
      (.ok (otherState.bindings.lookup? name) otherState)
    rw [akin.bindings]
    exact .ok akin
  bindName {name} _ value := fun state otherState akin => by
    change EndsAkin depth otherDepth
      (.ok () { state with bindings := state.bindings.bind name value })
      (.ok () { otherState with bindings := otherState.bindings.bind name value })
    rw [akin.bindings]
    exact .ok (akin.withBindings _)
  readStack {stack} _ := fun state otherState akin => by
    change EndsAkin depth otherDepth (.ok (state.stackTable.entries stack) state)
      (.ok (otherState.stackTable.entries stack) otherState)
    rw [akin.stackTable.entries]
    exact .ok akin
  pushAll {stack} _ values := fun _ _ akin =>
    .ok (akin.withTable (akin.stackTable.pushAll stack values))
  popUpTo {stack} _ count := fun _ _ akin =>
    .ok (akin.withTable (akin.stackTable.popUpTo stack count).2)

/-! ## Callbacks -/

/-- A program that halts at the limit goes by its calls as a node does. -/
theorem runProgram_doesAlike {call other : Caller} {program : Program}
    (ignores : program.IgnoresSurroundings)
    (calls : ∀ pattern, program.Runs pattern → ∀ index,
      DoesAlike depth otherDepth (call pattern index) (other pattern index)) :
    DoesAlike depth otherDepth (runProgram call program.halting) (runProgram other program) := by
  intro state otherState akin
  induction program generalizing state otherState with
  | finish outcome => exact .ok akin
  | fail error => exact .error akin
  | inspect next inductionHypothesis =>
      have sameNext : next state.view = next otherState.view :=
        ignores.1 _ _ akin.bindings akin.stackTable
      change EndsAkin depth otherDepth (runProgram call (next state.view).halting state)
        (runProgram other (next otherState.view) otherState)
      rw [sameNext]
      exact inductionHypothesis _ (ignores.2 _) (fun pattern runs => calls pattern ⟨_, runs⟩)
        _ _ akin
  | bind name value next inductionHypothesis =>
      simp only [Program.halting, runProgram, akin.bindings]
      exact inductionHypothesis ignores calls _ _ (akin.withBindings _)
  | restore number next inductionHypothesis =>
      have goOn := fun answer => inductionHypothesis answer (ignores answer)
        fun pattern runs => calls pattern ⟨_, runs⟩
      simp only [Program.halting, runProgram, akin.bindings]
      cases otherState.bindings.restore number with
      | ok bindings => exact goOn _ _ _ (akin.withBindings _)
      | error error => exact goOn _ _ _ akin
  | push stack value next inductionHypothesis =>
      simp only [Program.halting, runProgram]
      exact inductionHypothesis ignores calls _ _
        (akin.withTable (akin.stackTable.push stack value))
  | pop stack next inductionHypothesis =>
      obtain ⟨sameValue, left⟩ := akin.stackTable.pop stack
      simp only [Program.halting, runProgram, sameValue]
      exact inductionHypothesis _ (ignores _) (fun pattern runs => calls pattern ⟨_, runs⟩) _ _
        (akin.withTable left)
  | popMany stack count position next inductionHypothesis =>
      have goOn := fun answer => inductionHypothesis answer (ignores answer)
        fun pattern runs => calls pattern ⟨_, runs⟩
      obtain ⟨sameValues, left⟩ := akin.stackTable.popUpTo stack count
      simp only [Program.halting, runProgram, StackTable.popMany, akin.stackTable.size]
      by_cases few : otherState.stackTable.size stack < count
      · simp only [if_pos few]
        exact goOn _ _ _ akin
      · simp only [if_neg few, sameValues]
        exact goOn _ _ _ (akin.withTable left)
  | commit next inductionHypothesis =>
      simp only [Program.halting, runProgram]
      exact inductionHypothesis ignores calls _ _ (akin.withTable akin.stackTable.commit)
  | rollback checkpoint next inductionHypothesis =>
      simp only [Program.halting, runProgram]
      exact inductionHypothesis ignores calls _ _
        (akin.withTable (akin.stackTable.rollback checkpoint))
  | run pattern index next inductionHypothesis =>
      have goOn := fun answer => inductionHypothesis answer (ignores answer)
        fun pattern runs => calls pattern (Or.inr ⟨_, runs⟩)
      have ends := calls pattern (Or.inl rfl) index state otherState akin
      simp only [Program.halting, runProgram]
      generalize call pattern index state = ended at ends
      generalize other pattern index otherState = otherEnded at ends
      cases ends with
      | ok akin => exact goOn _ _ _ akin
      | @error error state other akin =>
          by_cases limited : error.isLimit
          · simp only [if_pos limited]
            exact .limit limited
          · simp only [if_neg limited]
            exact goOn _ _ _ akin
      | limit limited =>
          cases ended with
          | ok outcome reached => cases limited
          | error error reached =>
              have isLimit : error.isLimit := limited
              simp only [if_pos isLimit]
              exact .limit limited

/-! ## Calls -/

/-- A setup in which callbacks halt at the limit. -/
def haltingSetup (setup : Setup) : Setup :=
  { setup with graph := setup.graph.halting }

theorem matchKind_doesAlike {setup : Setup} {call other : Caller} {pattern : PatternId} {i : Nat}
    (inside : i ≤ setup.text.length)
    (ignores : setup.graph.IgnoresSurroundings setup.text pattern)
    (calls : ∀ next, setup.graph.Calls pattern next → ∀ index,
      DoesAlike depth otherDepth (call next index) (other next index)) :
    DoesAlike depth otherDepth
      (matchKind (haltingSetup setup) call i (setup.graph.kind pattern).halting)
      (matchKind setup other i (setup.graph.kind pattern)) := by
  have accesses := doesAlike_accesses depth otherDepth
  by_cases isFunction : ∃ callback, setup.graph.kind pattern = .function callback
  · obtain ⟨callback, found⟩ := isFunction
    rw [found]
    refine accesses.bind ?_ fun outcome => accesses.ofOutcome outcome
    refine runProgram_doesAlike (ignores pattern callback .refl found i inside) ?_
    exact fun next runs => calls next (Or.inr ⟨callback, _, _, found, runs⟩)
  · rw [Kind.halting_eq_self fun callback found => isFunction ⟨callback, found⟩]
    refine accesses.matchKind rfl (fun _ cell _ => (setup.graph.target?_halting cell).symm) ?_ ?_
      (fun _ _ => trivial) (fun _ _ => trivial) fun callback found =>
        absurd ⟨callback, found⟩ isFunction
    · exact fun child member => calls child (Or.inl (Or.inl member))
    · intro name cell rule reference target
      rw [haltingSetup, setup.graph.target?_halting] at target
      exact calls rule (Or.inl (Graph.leads_of_target? reference target))

/-- A call before it settles does as its body does. -/
theorem enclosed_endsAkin {setup otherSetup : Setup} {pattern copy : PatternId} {i : Nat}
    {body other : MatchM (Option Match)}
    (sameName : otherSetup.graph.name? copy = setup.graph.name? pattern)
    (bodies : DoesAlike (depth + 1) (otherDepth + 1) body other) :
    DoesAlike depth otherDepth (enclosed setup pattern i body)
      (enclosed otherSetup copy i other) := by
  intro entry otherEntry entries
  have ends := bodies (started setup pattern i entry) (started otherSetup copy i otherEntry)
    ((entries.enter _ _).report setup otherSetup pattern copy i .before)
  have sameNodeName : (otherSetup.graph.node copy).name = (setup.graph.node pattern).name :=
    sameName
  unfold enclosed
  dsimp only
  rw [sameNodeName]
  generalize body (started setup pattern i entry) = ended at ends
  generalize other (started otherSetup copy i otherEntry) = otherEnded at ends
  cases ends with
  | @ok outcome reached otherReached akin =>
      have left := (akin.report setup otherSetup pattern copy i (.after outcome)).leave
        (setup.graph.node pattern) (otherSetup.graph.node copy) entry otherEntry
      cases outcome with
      | some m => exact .ok left
      | none =>
          obtain ⟨sameEnd, restored⟩ := entries.backtrack left
          dsimp only
          generalize entry.backtrack _ = taken at sameEnd restored
          generalize otherEntry.backtrack _ = otherTaken at sameEnd restored
          obtain ⟨result, state⟩ := taken
          obtain ⟨otherResult, otherState⟩ := otherTaken
          cases sameEnd
          cases result with
          | ok _ => exact .ok restored
          | error error => exact .error restored
  | error akin => exact .error (entries.backtrack (akin.leave _ _ entry otherEntry)).2
  | limit limited =>
      refine .limit ?_
      cases ended with
      | ok outcome reached => cases limited
      | error error reached => exact (error.isLimit_inPattern _).trans limited

/-- A call of a pattern that has not settled yet. -/
def callUnsettled (setup : Setup) : (room : Nat) → Caller
  | 0, _, index => refuse setup index
  | room + 1, pattern, index => fun entry =>
      if setup.limit ≤ entry.depth then
        refuse setup index entry
      else
        let i := min index setup.text.length
        enclosed setup pattern i
          (matchKind setup (call setup room) i (setup.graph.kind pattern)) entry

section Unsettled

variable {setup : Setup} {room otherRoom : Nat} {pattern : PatternId} {index : Nat}
  {entry : MatchState}

theorem callUnsettled_of_full (full : setup.limit ≤ entry.depth) :
    callUnsettled setup room pattern index entry = refuse setup index entry := by
  cases room with
  | zero => rfl
  | succ room => exact if_pos full

theorem callUnsettled_of_room (free : ¬ setup.limit ≤ entry.depth) :
    callUnsettled setup (room + 1) pattern index entry =
      enclosed setup pattern (min index setup.text.length)
        (matchKind setup (call setup room) (min index setup.text.length)
          (setup.graph.kind pattern)) entry :=
  if_neg free

theorem call_eq_settled_or_refused :
    call setup room pattern index entry =
        settled (callUnsettled setup room pattern index entry) ∨
      (call setup room pattern index entry = refuse setup index entry ∧
        callUnsettled setup room pattern index entry = refuse setup index entry) := by
  cases room with
  | zero => exact Or.inr ⟨rfl, rfl⟩
  | succ room =>
      by_cases full : setup.limit ≤ entry.depth
      · exact Or.inr ⟨if_pos full, callUnsettled_of_full full⟩
      · rw [callUnsettled_of_room full, ← guarded_eq_settled]
        exact Or.inl (if_neg full)

theorem call_eq_settled
    (free : ¬ atLimit (answerOf (callUnsettled setup room pattern index entry))) :
    call setup room pattern index entry =
      settled (callUnsettled setup room pattern index entry) := by
  rcases @call_eq_settled_or_refused setup room pattern index entry with same | ⟨-, refused⟩
  · exact same
  · rw [refused] at free
    exact absurd rfl free

theorem answerOf_call : answerOf (call setup room pattern index entry) =
    answerOf (callUnsettled setup room pattern index entry) := by
  rcases @call_eq_settled_or_refused setup room pattern index entry with same | ⟨refused, same⟩
  · rw [same, answerOf_settled]
  · rw [refused, same]

/-- Inside other calls nothing is settled. -/
theorem call_eq_unsettled
    (under : 0 < (stateOf (callUnsettled setup room pattern index entry)).depth) :
    call setup room pattern index entry = callUnsettled setup room pattern index entry := by
  rcases @call_eq_settled_or_refused setup room pattern index entry with same | ⟨refused, same⟩
  · rw [same, settled_of_pos under]
  · rw [refused, same]

theorem callUnsettled_isolated (lawful : setup.graph.Lawful setup.text pattern) (room index : Nat)
    (entry : MatchState) :
    Isolated entry (answerOf (callUnsettled setup room pattern index entry))
      (stateOf (callUnsettled setup room pattern index entry)) := by
  cases room with
  | zero => exact (refuse_isolated setup pattern index entry).1
  | succ room =>
      by_cases full : setup.limit ≤ entry.depth
      · rw [callUnsettled_of_full full]
        exact (refuse_isolated setup pattern index entry).1
      · have grows := matchKind_isolated (Nat.min_le_right index setup.text.length) lawful
          fun next step index state under =>
            call_isolated setup room (lawful.of_calls step) index under
        rw [callUnsettled_of_room full]
        exact (enclosed_isolated grows entry).1

/-- A call does what the calls that it makes do. -/
theorem callUnsettled_succ_doesAlike (deeper : otherDepth ≤ depth)
    (ignores : setup.graph.IgnoresSurroundings setup.text pattern)
    (calls : ∀ next, setup.graph.Calls pattern next → ∀ index,
      DoesAlike (depth + 1) (otherDepth + 1) (call (haltingSetup setup) room next index)
        (call setup otherRoom next index)) (index : Nat) :
    DoesAlike depth otherDepth (callUnsettled (haltingSetup setup) (room + 1) pattern index)
      (callUnsettled setup (otherRoom + 1) pattern index) := by
  intro entry otherEntry entries
  have level := entries.level
  have otherLevel := entries.otherLevel
  by_cases full : (haltingSetup setup).limit ≤ entry.depth
  · rw [callUnsettled_of_full full]
    exact .limit rfl
  · have free : ¬ setup.limit ≤ otherEntry.depth := by
      change ¬ setup.limit ≤ entry.depth at full
      omega
    rw [callUnsettled_of_room full, callUnsettled_of_room free]
    refine enclosed_endsAkin (setup.graph.name?_halting pattern).symm ?_ entry otherEntry entries
    rw [haltingSetup, setup.graph.kind_halting]
    exact matchKind_doesAlike (Nat.min_le_right index setup.text.length) ignores calls

/-- Inside other calls the settling makes no difference, and a pattern does the same in fewer of
them, with more room. -/
theorem call_doesAlike (wider : room ≤ otherRoom) (deeper : otherDepth ≤ depth)
    (under : 0 < otherDepth) (ignores : setup.graph.IgnoresSurroundings setup.text pattern)
    (index : Nat) :
    DoesAlike depth otherDepth (call (haltingSetup setup) room pattern index)
      (call setup otherRoom pattern index) := by
  induction room generalizing otherRoom depth otherDepth pattern index with
  | zero => exact fun _ _ _ => .limit rfl
  | succ room inductionHypothesis =>
      obtain ⟨otherRoom, rfl⟩ : ∃ fewer, otherRoom = fewer + 1 := ⟨otherRoom - 1, by omega⟩
      intro entry otherEntry entries
      have ends := callUnsettled_succ_doesAlike deeper ignores (fun next step =>
        inductionHypothesis (Nat.le_of_succ_le_succ wider) (Nat.succ_le_succ deeper)
          (Nat.succ_pos _) (ignores.of_calls step)) index entry otherEntry entries
      by_cases limited : atLimit
          (answerOf (callUnsettled (haltingSetup setup) (room + 1) pattern index entry))
      · exact .limit (answerOf_call ▸ limited)
      · obtain ⟨-, akin⟩ := ends.answer limited
        rw [call_eq_unsettled (akin.level ▸ Nat.lt_of_lt_of_le under deeper),
          call_eq_unsettled (akin.otherLevel ▸ under)]
        exact ends

/-- The other call may be the outermost one, if only they have not settled yet. -/
theorem callUnsettled_doesAlike (wider : room ≤ otherRoom) (deeper : otherDepth ≤ depth)
    (ignores : setup.graph.IgnoresSurroundings setup.text pattern) (index : Nat) :
    DoesAlike depth otherDepth (callUnsettled (haltingSetup setup) room pattern index)
      (callUnsettled setup otherRoom pattern index) := by
  cases room with
  | zero => exact fun _ _ _ => .limit rfl
  | succ room =>
      obtain ⟨otherRoom, rfl⟩ : ∃ fewer, otherRoom = fewer + 1 := ⟨otherRoom - 1, by omega⟩
      refine callUnsettled_succ_doesAlike deeper ignores (fun next step => ?_) index
      exact call_doesAlike (Nat.le_of_succ_le_succ wider) (Nat.succ_le_succ deeper)
        (Nat.succ_pos _) (ignores.of_calls step)

end Unsettled

end Matching

end PegEngine
