import PegEngine.Proofs.Callback.Conduct
import PegEngine.Proofs.Matching.CallTree

/-!
Contract: the trace of a match is its call tree.

The engine keeps the trace options in effect in one slot of its state, sets it anew in every call
whose node carries options, and brings the old ones back at the end of that call. So it keeps its
place on the call path: wherever it stands, the slot holds the options that the path gives
(`StandsIn`).

Owns:
- `MatchRun.events`, what a recording sink has got;
- `Matching.Follows`, by which an action of the engine comes to what an evaluation gives;
- `Graph.matchIn_traces_callTree`.
-/

namespace PegEngine

/-- The event of an entry that is one. -/
def TraceEntry.attempt? : TraceEntry → Option Attempt
  | .line _ => none
  | .event attempt => some attempt

/-- The events of a match, in order. -/
def MatchRun.events (run : MatchRun) : List Attempt :=
  run.trace.filterMap TraceEntry.attempt?

/-- The trace options, if there are any, have a recording sink. -/
def Recording (options : Option TraceOptions) : Prop :=
  ∀ given ∈ options, given.sink = .record

/-- All trace options below `pattern` have recording sinks. -/
def Graph.Records (graph : Graph) (pattern : PatternId) : Prop :=
  ∀ other, graph.Reaches pattern other → Recording (graph.node other).trace

/-- Of two options the first that is given counts. -/
theorem Recording.orElse {own around : Option TraceOptions} (records : Recording own)
    (aroundRecords : Recording around) : Recording (own <|> around) := by
  cases own with
  | none => simpa using aroundRecords
  | some options => simpa using records

theorem Graph.Records.of_calls {graph : Graph} {pattern next : PatternId}
    (records : graph.Records pattern) (step : graph.Calls pattern next) : graph.Records next :=
  fun other reaches => records other (.of_calls step reaches)

/-! ## What a state shows of an evaluation -/

namespace MatchState

open Matching

def memory (state : MatchState) : Memory where
  bindings := state.bindings
  stackTable := state.stackTable

/-- The events so far, in order. -/
def events (state : MatchState) : List Attempt :=
  state.trace.reverse.filterMap TraceEntry.attempt?

/-- The nesting and the trace options of the state are those of a place. -/
structure StandsIn (graph : Graph) (scope : Scope) (state : MatchState) : Prop where
  depth : state.depth = scope.nesting
  options : state.options = scope.inEffect graph

/-- The state stands in a place and still has the bindings `least`. -/
structure Within (graph : Graph) (scope : Scope) (least : Bindings) (state : MatchState) : Prop
    extends state.StandsIn graph scope where
  bindings : least.newestFirst <:+ state.bindings.newestFirst

section Changes

variable {setup : Setup} {graph : Graph} {scope : Scope} {least : Bindings} {state : MatchState}

theorem StandsIn.within (stands : state.StandsIn graph scope) :
    state.Within graph scope state.bindings :=
  ⟨stands, List.suffix_refl _⟩

/-- What the callback of a call can look at is what its place says. -/
theorem StandsIn.view (stands : state.StandsIn graph scope) :
    state.view = scope.view graph state.memory := by
  unfold MatchState.view Scope.view
  rw [stands.depth, stands.options]
  rfl

theorem Within.bind (within : state.Within graph scope least) (name : String) (value : Capture) :
    { state with bindings := state.bindings.bind name value }.Within graph scope least :=
  ⟨⟨within.depth, within.options⟩, within.bindings.trans (List.suffix_cons _ _)⟩

theorem Within.restore (within : state.Within graph scope least) {number : Nat}
    {bindings : Bindings} (notBelow : least.count ≤ number)
    (restored : state.bindings.restore number = .ok bindings) :
    { state with bindings }.Within graph scope least :=
  ⟨⟨within.depth, within.options⟩, Bindings.suffix_of_restore within.bindings notBelow restored⟩

theorem Within.withTable (within : state.Within graph scope least) (stackTable : StackTable) :
    { state with stackTable }.Within graph scope least :=
  ⟨⟨within.depth, within.options⟩, within.bindings⟩

end Changes

end MatchState

namespace Matching

/-! ## Actions that follow an evaluation -/

/-- An action of a place has come to the end of an evaluation, and the events of its calls were
recorded behind those from before. It still stands in the place and has the bindings `least`. -/
structure Follows {α : Type} (setup : Setup) (scope : Scope) (least : Bindings)
    (earlier : List Attempt) (ended : EStateM.Result MatchError MatchState α)
    (evaluation : Evaluation α) : Prop where
  answer : answerOf ended = evaluation.answer
  memory : (stateOf ended).memory = evaluation.memory
  events : (stateOf ended).events =
    earlier ++ CallTree.eventsAll setup scope evaluation.calls
  within : (stateOf ended).Within setup.graph scope least

/-- A call as an evaluation that consists of it. -/
def Called.evaluation (called : Called) : Evaluation (Option Match) where
  answer := called.answer
  memory := called.memory
  calls := [called.tree]

/-- Wherever in the place it is made, a call of the pattern follows its evaluation and keeps the
bindings that it finds. -/
def CallFollows (setup : Setup) (scope : Scope) (call : Caller) (callee : Callee)
    (pattern : PatternId) : Prop :=
  ∀ index (entry : MatchState), entry.StandsIn setup.graph scope →
    Follows setup scope entry.bindings entry.events (call pattern index entry)
      (callee pattern index entry.memory).evaluation

section Programs

variable {α β : Type} {setup : Setup} {scope : Scope} {least : Bindings} {call : Caller}
  {callee : Callee}

/-- Older bindings are kept as well. -/
theorem Follows.keeping {older : Bindings} {earlier : List Attempt}
    {ended : EStateM.Result MatchError MatchState α} {evaluation : Evaluation α}
    (follows : Follows setup scope least earlier ended evaluation)
    (kept : older.newestFirst <:+ least.newestFirst) :
    Follows setup scope older earlier ended evaluation where
  answer := follows.answer
  memory := follows.memory
  events := follows.events
  within := ⟨follows.within.toStandsIn, kept.trans follows.within.bindings⟩

/-- An end without further calls. -/
theorem Follows.still {state : MatchState} (within : state.Within setup.graph scope least)
    {ended : EStateM.Result MatchError MatchState α} {answer : Except MatchError α}
    (answered : answerOf ended = answer) (reached : stateOf ended = state) :
    Follows setup scope least state.events ended { answer, memory := state.memory } where
  answer := answered
  memory := congrArg _ reached
  events := by simp [reached, CallTree.eventsAll]
  within := by rwa [reached]

/-- An action that goes on when the events of some calls are recorded. -/
theorem Follows.append {earlier : List Attempt} {middle : MatchState} {calls : List CallTree}
    (recorded : middle.events = earlier ++ CallTree.eventsAll setup scope calls)
    {ended : EStateM.Result MatchError MatchState α} {evaluation : Evaluation α}
    (later : Follows setup scope least middle.events ended evaluation) :
    Follows setup scope least earlier ended
      { evaluation with calls := calls ++ evaluation.calls } where
  answer := later.answer
  memory := later.memory
  events := by
    rw [later.events, recorded, CallTree.eventsAll_append, List.append_assoc]
  within := later.within

/-- What goes on after a call. -/
theorem Follows.after {earlier : List Attempt} {called : Called}
    {ended : EStateM.Result MatchError MatchState (Option Match)}
    (first : Follows setup scope least earlier ended called.evaluation)
    {next : Except MatchError (Option Match) → Memory → Evaluation α}
    {last : EStateM.Result MatchError MatchState α}
    (later : Follows setup scope least (stateOf ended).events last
      (next (answerOf ended) (stateOf ended).memory)) :
    Follows setup scope least earlier last (Evaluation.after called next) := by
  have composed := later.append first.events
  rw [first.answer, first.memory] at composed
  exact composed

/-- Carrying out a program follows its evaluation, if its restores leave the bindings `least`. -/
theorem runProgram_follows {program : Program}
    (calls : ∀ pattern, program.Runs pattern → CallFollows setup scope call callee pattern)
    {state : MatchState} (within : state.Within setup.graph scope least)
    (restores : program.RestoresFrom call least.count state) :
    Follows setup scope least state.events (runProgram call program state)
      (evaluateProgram (scope.view setup.graph) callee program state.memory) := by
  induction program generalizing state with
  | finish outcome => exact .still within rfl rfl
  | fail error => exact .still within rfl rfl
  | inspect next inductionHypothesis =>
      simp only [runProgram, evaluateProgram, ← within.view]
      exact inductionHypothesis _ (fun pattern runs => calls pattern ⟨_, runs⟩) within restores
  | bind name value next inductionHypothesis =>
      exact inductionHypothesis calls (within.bind name value) restores
  | restore number next inductionHypothesis =>
      simp only [Program.RestoresFrom] at restores
      obtain ⟨notBelow, restores⟩ := restores
      simp only [runProgram, evaluateProgram, MatchState.memory]
      cases restored : state.bindings.restore number with
      | ok bindings =>
          rw [restored] at restores
          exact inductionHypothesis _ (fun pattern runs => calls pattern ⟨_, runs⟩)
            (within.restore notBelow restored) restores
      | error error =>
          rw [restored] at restores
          exact inductionHypothesis _ (fun pattern runs => calls pattern ⟨_, runs⟩) within restores
  | push stack value next inductionHypothesis =>
      exact inductionHypothesis calls (within.withTable _) restores
  | pop stack next inductionHypothesis =>
      exact inductionHypothesis _ (fun pattern runs => calls pattern ⟨_, runs⟩)
        (within.withTable _) restores
  | popMany stack count position next inductionHypothesis =>
      simp only [Program.RestoresFrom] at restores
      simp only [runProgram, evaluateProgram, MatchState.memory]
      cases popped : state.stackTable.popMany stack count position with
      | ok taken =>
          rw [popped] at restores
          exact inductionHypothesis _ (fun pattern runs => calls pattern ⟨_, runs⟩)
            (within.withTable _) restores
      | error error =>
          rw [popped] at restores
          exact inductionHypothesis _ (fun pattern runs => calls pattern ⟨_, runs⟩) within restores
  | commit next inductionHypothesis =>
      exact inductionHypothesis calls (within.withTable _) restores
  | rollback checkpoint next inductionHypothesis =>
      exact inductionHypothesis calls (within.withTable _) restores
  | run pattern index next inductionHypothesis =>
      have first := (calls pattern (Or.inl rfl) index state within.toStandsIn).keeping
        within.bindings
      simp only [Program.RestoresFrom] at restores
      simp only [runProgram, evaluateProgram]
      apply first.after
      have reached := first.within
      cases ended : call pattern index state with
      | ok outcome later | error error later =>
          rw [ended] at restores reached
          exact inductionHypothesis _ (fun other runs => calls other (Or.inr ⟨_, runs⟩)) reached
            restores

/-- Running a routine follows its evaluation. -/
theorem run_follows {patterns : PatternId → Prop} {programs : Program → Prop}
    (calls : ∀ pattern, patterns pattern → CallFollows setup scope call callee pattern)
    (performs : ∀ program, programs program → ∀ state : MatchState,
      state.StandsIn setup.graph scope →
        Follows setup scope state.bindings state.events (runProgram call program state)
          (evaluateProgram (scope.view setup.graph) callee program state.memory))
    {routine : Routine α} (keeps : routine.KeepsTo patterns programs) {state : MatchState}
    (within : state.Within setup.graph scope least) :
    Follows setup scope least state.events (routine.run call state)
      (evaluateRoutine (scope.view setup.graph) callee routine state.memory) := by
  induction routine generalizing state with
  | finish value => exact .still within rfl rfl
  | fail error => exact .still within rfl rfl
  | look next inductionHypothesis => exact inductionHypothesis _ _ (keeps _ _) within
  | bind name value next inductionHypothesis =>
      exact inductionHypothesis keeps (within.bind name value)
  | restack stackTable next inductionHypothesis =>
      exact inductionHypothesis keeps (within.withTable stackTable)
  | note line next inductionHypothesis =>
      have noted : (state.addTrace [.line line]).events = state.events := by
        simp [MatchState.events, MatchState.addTrace, TraceEntry.attempt?]
      have stays : (state.addTrace [.line line]).Within setup.graph scope least :=
        ⟨⟨within.depth, within.options⟩, within.bindings⟩
      have later := inductionHypothesis keeps stays
      exact ⟨later.answer, later.memory, noted ▸ later.events, later.within⟩
  | invoke pattern index next inductionHypothesis =>
      have first := (calls pattern keeps.1 index state within.toStandsIn).keeping within.bindings
      simp only [Routine.run, evaluateRoutine, bind_apply]
      apply first.after
      have reached := first.within
      cases ended : call pattern index state with
      | ok outcome later =>
          rw [ended] at reached
          exact inductionHypothesis _ (keeps.2 outcome) reached
      | error error later =>
          rw [ended] at reached
          exact .still reached rfl rfl
  | perform program next inductionHypothesis =>
      have first := (performs program keeps.1 state within.toStandsIn).keeping within.bindings
      simp only [Routine.run, evaluateRoutine, bind_apply, Evaluation.andThen, ← first.answer,
        ← first.memory]
      have reached := first.within
      have events := first.events
      cases ended : runProgram call program state with
      | ok outcome later =>
          rw [ended] at reached events
          exact (inductionHypothesis _ (keeps.2 outcome) reached).append events
      | error error later =>
          rw [ended] at reached events
          exact ⟨rfl, rfl, events, reached⟩

end Programs

/-! ## Calls -/

section Reports

variable (setup : Setup) (pattern : PatternId) (i : Nat) (phase : Phase)

/-- A report changes nothing but the trace. -/
theorem report_eq (state : MatchState) :
    ∃ trace, state.report setup pattern i phase = { state with trace } := by
  unfold MatchState.report
  split
  · exact ⟨_, rfl⟩
  · dsimp only
    split
    · exact ⟨_, rfl⟩
    · exact ⟨_, rfl⟩

theorem memory_report (state : MatchState) :
    (state.report setup pattern i phase).memory = state.memory := by
  obtain ⟨trace, same⟩ := report_eq setup pattern i phase state
  rw [same]
  rfl

theorem within_report {scope : Scope} {least : Bindings} {state : MatchState}
    (within : state.Within setup.graph scope least) :
    (state.report setup pattern i phase).Within setup.graph scope least := by
  obtain ⟨trace, same⟩ := report_eq setup pattern i phase state
  rw [same]
  exact ⟨⟨within.depth, within.options⟩, within.bindings⟩

/-- A recording sink gets the attempt if the options in effect at the place allow it. -/
theorem events_report {scope : Scope} {state : MatchState}
    (stands : state.StandsIn setup.graph scope)
    (recording : Recording (scope.inEffect setup.graph)) :
    (state.report setup pattern i phase).events =
      state.events ++ CallTree.side setup scope pattern i state.memory phase := by
  unfold MatchState.report CallTree.side
  rw [← stands.options] at recording ⊢
  cases given : state.options with
  | none => simp
  | some options =>
      have sink : options.sink = .record := recording options (by simp [given])
      dsimp only [MatchState.memory]
      split
      · simp [MatchState.events, MatchState.addTrace, Attempt.entries, sink, TraceEntry.attempt?]
      · simp

end Reports

section Protocol

variable {setup : Setup} {scope : Scope} {pattern : PatternId} {i : Nat}

/-- Entering a call leads from the place of the call to the place inside. -/
theorem within_enter {entry : MatchState} (stands : entry.StandsIn setup.graph scope)
    (pattern : PatternId) :
    (entry.enter (setup.graph.node pattern)).Within setup.graph (scope.inside pattern)
      entry.bindings where
  depth := by simp [MatchState.enter, stands.depth]
  options := by simp [MatchState.enter, stands.options]
  bindings := List.suffix_refl _

/-- Leaving a call leads back, since the options that its node replaced come back. -/
theorem within_leave {entry state : MatchState} {least : Bindings}
    (stands : entry.StandsIn setup.graph scope)
    (within : state.Within setup.graph (scope.inside pattern) least) :
    (entry.leave (setup.graph.node pattern) state).Within setup.graph scope least := by
  refine ⟨⟨?_, ?_⟩, within.bindings⟩
  · simp [MatchState.leave, within.depth]
  · have inside := within.options
    rw [Scope.inEffect_inside] at inside
    unfold MatchState.leave
    cases own : (setup.graph.node pattern).trace with
    | some options => simpa [own] using stands.options
    | none => simpa [own] using inside

theorem within_settle {state : MatchState} {least : Bindings}
    (within : state.Within setup.graph scope least) :
    state.settle.Within setup.graph scope least := by
  unfold MatchState.settle
  split
  · exact within.withTable _
  · exact within

theorem events_settle (state : MatchState) : state.settle.events = state.events := by
  unfold MatchState.settle
  split <;> rfl

theorem memory_settle {state : MatchState} (stands : state.StandsIn setup.graph scope) :
    state.settle.memory = scope.settle state.memory := by
  unfold MatchState.settle Scope.settle
  rw [stands.depth]
  split <;> rfl

/-- A call that ends with an error has the events from below behind its opening. -/
theorem events_called_error {body : Evaluation (Option Match)} {before : Memory}
    {error : MatchError} (failed : body.answer = .error error) :
    (body.called setup.graph scope pattern i before).tree.events setup scope =
      CallTree.side setup (scope.inside pattern) pattern i before .before ++
        CallTree.eventsAll setup (scope.inside pattern) body.calls := by
  unfold Evaluation.called CallTree.events
  rw [failed]
  exact List.append_nil _

/-- The report of an outcome completes the events of a call. -/
theorem events_called_ok {body : Evaluation (Option Match)} {before : Memory}
    {outcome : Option Match} (ended : body.answer = .ok outcome) {earlier : List Attempt}
    {reached : MatchState} (stands : reached.StandsIn setup.graph (scope.inside pattern))
    (recording : Recording ((scope.inside pattern).inEffect setup.graph))
    (memory : reached.memory = body.memory)
    (events : reached.events =
      earlier ++ CallTree.side setup (scope.inside pattern) pattern i before .before ++
        CallTree.eventsAll setup (scope.inside pattern) body.calls) :
    (reached.report setup pattern i (.after outcome)).events =
      earlier ++ (body.called setup.graph scope pattern i before).tree.events setup scope := by
  rw [events_report _ _ _ _ stands recording, events, memory]
  unfold Evaluation.called CallTree.events
  rw [ended]
  simp only [List.append_assoc]
  rfl

/-- Taking back what a node did leads to the bindings of the entry, without an error. -/
theorem backtrack_left {entry left : MatchState} {memory : Memory}
    (within : left.Within setup.graph scope entry.bindings) (reached : left.memory = memory) :
    ∃ state, entry.backtrack left = (.ok (), state) ∧ state.events = left.events ∧
      state.Within setup.graph scope entry.bindings ∧
      state.memory =
        { bindings := entry.bindings
          stackTable := memory.stackTable.rollback entry.stackTable.checkpoint } := by
  refine ⟨_, MatchState.backtrack_of_suffix within.bindings, rfl, ?_, ?_⟩
  · exact ⟨⟨within.depth, within.options⟩, List.suffix_refl _⟩
  · rw [← reached]
    rfl

/-- The end of a call, given the state in which it is settled. -/
theorem called_follows {entry state : MatchState} {body : Evaluation (Option Match)}
    {ended : EStateM.Result MatchError MatchState (Option Match)}
    (answer : answerOf ended = body.answer.mapError (·.inPattern (setup.graph.name? pattern)))
    (reached : stateOf ended = state.settle)
    (within : state.Within setup.graph scope entry.bindings)
    (memory : body.left scope entry.memory = scope.settle state.memory)
    (events : state.events = entry.events ++
      (body.called setup.graph scope pattern i entry.memory).tree.events setup scope) :
    Follows setup scope entry.bindings entry.events ended
      (body.called setup.graph scope pattern i entry.memory).evaluation where
  answer := answer
  memory := by
    rw [reached, memory_settle within.toStandsIn, ← memory]
    rfl
  events := by
    rw [reached, events_settle, events]
    simp [Called.evaluation, CallTree.eventsAll]
  within := by
    rw [reached]
    exact within_settle within

/-- A call under the protocol follows its evaluation if its node does. -/
theorem guarded_follows {entry : MatchState} (stands : entry.StandsIn setup.graph scope)
    (recording : Recording ((scope.inside pattern).inEffect setup.graph))
    {body : MatchM (Option Match)} {evaluation : Evaluation (Option Match)}
    (bodies : ∀ begun : MatchState, begun.memory = entry.memory →
      begun.Within setup.graph (scope.inside pattern) entry.bindings →
        Follows setup (scope.inside pattern) entry.bindings begun.events (body begun) evaluation) :
    Follows setup scope entry.bindings entry.events (guarded setup pattern i body entry)
      (evaluation.called setup.graph scope pattern i entry.memory).evaluation := by
  have entered := within_enter stands pattern
  have follows := bodies ((entry.enter (setup.graph.node pattern)).report setup pattern i .before)
    (memory_report ..) (within_report _ _ _ _ entered)
  rw [events_report _ _ _ _ entered.toStandsIn recording] at follows
  unfold guarded
  dsimp only
  cases ended : body ((entry.enter (setup.graph.node pattern)).report setup pattern i .before) with
  | ok outcome reached =>
      rw [ended] at follows
      obtain ⟨answer, memory, events, within⟩ := follows
      simp only [answerOf, stateOf] at answer memory events within
      have left := within_leave stands (within_report setup pattern i (.after outcome) within)
      have complete := events_called_ok answer.symm within.toStandsIn recording memory events
      have reported := (memory_report setup pattern i (.after outcome) reached).trans memory
      cases outcome with
      | some m =>
          apply called_follows (by rw [← answer]; rfl) rfl left ?_ complete
          simp only [Evaluation.left, ← answer]
          exact congrArg scope.settle reported.symm
      | none =>
          obtain ⟨state, back, kept, stays, taken⟩ := backtrack_left left reported
          dsimp only
          rw [back]
          apply called_follows (by rw [← answer]; rfl) rfl stays ?_ (kept.trans complete)
          simp only [Evaluation.left, ← answer]
          exact congrArg scope.settle taken.symm
  | error error reached =>
      rw [ended] at follows
      obtain ⟨answer, memory, events, within⟩ := follows
      simp only [answerOf, stateOf] at answer memory events within
      obtain ⟨state, back, kept, stays, taken⟩ :=
        backtrack_left (within_leave stands within) memory
      dsimp only
      rw [back]
      apply called_follows (by rw [← answer]; rfl) rfl stays
      · simp only [Evaluation.left, ← answer]
        exact congrArg scope.settle taken.symm
      · rw [kept, events_called_error answer.symm, ← List.append_assoc]
        exact events

end Protocol

/-- Calls at a place follow their evaluation, if callbacks keep bindings and sinks record. -/
theorem call_follows {setup : Setup} {room : Nat} {scope : Scope} {pattern : PatternId}
    (conducts : setup.Conducts pattern) (records : setup.graph.Records pattern)
    (around : Recording (scope.inEffect setup.graph))
    (roomLeft : setup.limit - scope.nesting = room) :
    CallFollows setup scope (call setup room) (evaluate setup room scope) pattern := by
  induction room generalizing scope pattern with
  | zero =>
      intro index entry stands
      have unchanged : entry.events = entry.events ++
          CallTree.eventsAll setup scope [.refused pattern (min index setup.text.length)] := by
        simp [CallTree.eventsAll, CallTree.events]
      exact ⟨rfl, rfl, unchanged, stands.within⟩
  | succ room inductionHypothesis =>
      intro index entry stands
      have recording : Recording ((scope.inside pattern).inEffect setup.graph) := by
        rw [Scope.inEffect_inside]
        exact (records pattern .refl).orElse around
      have shallow : ¬ setup.limit ≤ entry.depth := by
        rw [stands.depth]
        omega
      have roomInside : setup.limit - (scope.inside pattern).nesting = room := by
        rw [Scope.nesting_inside]
        omega
      have below : ∀ next, setup.graph.Calls pattern next →
          CallFollows setup (scope.inside pattern) (call setup room)
            (evaluate setup room (scope.inside pattern)) next := fun next step =>
        inductionHypothesis (conducts.of_calls step) (records.of_calls step) recording roomInside
      simp only [call, if_neg shallow, evaluate]
      apply guarded_follows stands recording
      intro begun memory within
      rw [matchKind_eq, ← memory]
      apply run_follows (fun next leads => below next (Or.inl leads)) ?_
        (Routine.keepsTo_ofKind setup _ pattern) within
      rintro program ⟨callback, found, rfl⟩ state here
      apply runProgram_follows (fun next runs => below next (Or.inr ⟨callback, _, _, found, runs⟩))
        here.within
      have keeps := conducts.keeps pattern callback .refl found (min index setup.text.length)
        (Nat.min_le_right ..) state
      rwa [here.depth, roomInside] at keeps

end Matching

/-! ## Matches from the outside -/

namespace Graph

/-- The trace of a match is its call tree: each call has one event before and one behind those of
the calls that are made for it, with the trace options of the innermost call around it that has
some. Only calls that an error cut off have no second event: the call at which it came up, and those
around it. -/
theorem matchIn_traces_callTree {graph : Graph} {pattern : PatternId} {input : Input}
    {context : Context} (conducts : (context.setup graph input.text).Conducts pattern)
    (records : graph.Records pattern) (around : Recording context.config.trace) (index : Nat) :
    let run := graph.matchIn pattern input index context
    let called := graph.evaluateIn pattern input index context
    run.result = called.answer ∧
      run.events = called.tree.events (context.setup graph input.text) context.scope ∧
      (∀ outcome, run.result = .ok outcome → called.tree.Complete) ∧
      ∀ error, run.result = .error error → called.tree.Breaks := by
  intro run called
  let setup := context.setup graph input.text
  have stands : (context.state input).StandsIn graph context.scope :=
    ⟨by simp [Context.state, Context.scope, Matching.Scope.nesting],
      by simp [Context.state, Context.scope, Matching.Scope.inEffect]⟩
  have recording : Recording (context.scope.inEffect graph) := by
    rw [← stands.options]
    exact around
  have follows := Matching.call_follows conducts records recording rfl index (context.state input)
    stands
  have same : run = _ := graph.matchIn_eq pattern input index context
  have answer : run.result = called.answer := by
    rw [same]
    exact follows.answer
  have events : run.events = called.tree.events setup context.scope := by
    rw [same]
    have recorded := follows.events
    simp only [Matching.Called.evaluation, Matching.CallTree.eventsAll, List.append_nil]
      at recorded
    exact recorded
  have shaped : called.Shaped := Matching.evaluate_shaped _ conducts.passes _ _ _
  unfold Matching.Called.Shaped at shaped
  refine ⟨answer, events, fun outcome found => ?_, fun error failed => ?_⟩
  · rwa [answer.symm.trans found] at shaped
  · rwa [answer.symm.trans failed] at shaped

/-- A callback that matches pattern 0 and takes back what it has bound for the time. -/
def forgetful : Callback where
  program _ i := .inspect fun view => .bind "begin" (.int i) <| .run 0 i fun
    | .ok none => .finish .reject
    | .ok (some m) => .restore view.bindings.count fun _ => .finish (.stopAt m.stop)
    | .error error => .fail error
  patterns := [0]

theorem forgetful_passesErrors (text : Text) : forgetful.PassesErrors text := by
  intro i inside view
  refine ⟨fun outcome => ?_, fun error => rfl⟩
  cases outcome with
  | none => trivial
  | some m => exact fun _ => trivial

theorem forgetful_keepsBindings (setup : Setup) : forgetful.KeepsBindings setup := by
  intro i inside entry
  simp only [forgetful, Program.RestoresFrom]
  split
  · next outcome reached ended =>
      cases outcome with
      | none => trivial
      | some m =>
          simp only [Program.RestoresFrom]
          refine ⟨Nat.le_refl _, ?_⟩
          split <;> trivial
  · trivial

/-- Letters by way of a callback, as many as there are, and then a text that was never bound. -/
def unboundEnd : Graph where
  slots := #[
    some { kind := .literal ['a'] },
    some { kind := .function forgetful, trace := some fromBegin },
    some { kind := .reference "letters" 0 },
    some { kind := .sequence [1, 2] },
    some { kind := .backReference "end" },
    some { kind := .choice [3, 4], name := some "letters", trace := some everything }]
  cells := #[.weak 5]
where
  everything : TraceOptions := { TraceOptions.shown with sink := .record }
  fromBegin : TraceOptions :=
    { before := .custom fun attempt => attempt.index = 0, after := .onlySuccess, sink := .record }

/-- Where the calls stand that an error has cut off, the events before them have no partner: the
choice at 0, 1 and 2, its sequence and its reference there, and the back reference. -/
theorem matchIn_traces_callTree_unboundEnd :
    let input : Input := .ofString "aa"
    let run := unboundEnd.matchIn 5 input 0 {}
    let called := unboundEnd.evaluateIn 5 input 0 {}
    run.result.toOption = none ∧
      run.events = called.tree.events (Context.setup {} unboundEnd input.text) (Context.scope {}) ∧
      called.tree.Breaks ∧
      run.events.map (fun attempt => (attempt.pattern, attempt.index, attempt.phase == .before)) =
        [(5, 0, true), (3, 0, true), (1, 0, true), (0, 0, true), (0, 0, false), (1, 0, false),
          (2, 1, true), (5, 1, true), (3, 1, true), (0, 1, false), (1, 1, false), (2, 2, true),
          (5, 2, true), (3, 2, true), (3, 2, false), (4, 2, true)] := by
  intro input run called
  have only : ∀ origin callback, unboundEnd.kind origin = .function callback →
      callback = forgetful := by
    intro origin callback found
    match origin with
    | 1 => exact (Kind.function.inj found).symm
    | 0 | 2 | 3 | 4 | 5 => cases found
    | origin + 6 => cases found
  have conducts : (Context.setup {} unboundEnd input.text).Conducts 5 :=
    { passes := fun origin callback _ found => only origin callback found ▸ forgetful_passesErrors _
      keeps := fun origin callback _ found => only origin callback found ▸ forgetful_keepsBindings _ }
  have records : unboundEnd.Records 5 := by
    intro origin _ given found
    match origin with
    | 1 | 5 => cases found; rfl
    | 0 | 2 | 3 | 4 => cases found
    | origin + 6 => cases found
  have around : Recording (Context.config {}).trace := fun given found => nomatch found
  obtain ⟨-, events, -, breaks⟩ := matchIn_traces_callTree conducts records around 0
  have failed : run.result.toOption = none := by decide +kernel
  refine ⟨failed, events, ?_, by decide +kernel⟩
  cases ended : run.result with
  | ok outcome => simp [ended, Except.toOption] at failed
  | error error => exact breaks error ended

end Graph

end PegEngine
