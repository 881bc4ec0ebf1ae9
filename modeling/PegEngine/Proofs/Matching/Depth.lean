import PegEngine.Proofs.Matching.Limit
import PegEngine.Proofs.Matching.TracedCalls

/-!
Contract: below the limit it makes no difference how deep a match is nested.

A match may run under a number of further calls, and in a graph with further nodes. As long as its
patterns are the same, it goes on in step with the match that does not, unless it ends at the limit,
which it may reach earlier. Callbacks are part of this if they do not go by the nesting and pass on
that a match of theirs has ended at the limit.

Owns:
- `Program.IgnoresDepth`, what is asked of callbacks besides, and that most scripts are so;
- `MatchState.Deeper` and `Matching.SameDeeper`, a relation that nodes keep;
- `Graph.SameBelow`, for a pattern that is the same in another graph;
- `Matching.call_sameDeeper`. With no gap it says that calls in the two graphs are in step, whatever
  the callbacks are like;
- `MatchRun.EndsAs` and `MatchRun.EndsLike`, for matches from the outside that leave the same.
-/

namespace PegEngine

/-! ## Callbacks -/

/-- The program may look at the nesting, but goes on in the same way whatever it is. -/
def Program.IgnoresDepth : Program → Prop
  | .finish _ | .fail _ => True
  | .inspect next =>
      (∀ view depth, next { view with depth } = next view) ∧ ∀ view, (next view).IgnoresDepth
  | .bind _ _ next | .push _ _ next | .commit next | .rollback _ next => next.IgnoresDepth
  | .restore _ next => ∀ answer, (next answer).IgnoresDepth
  | .pop _ next => ∀ value, (next value).IgnoresDepth
  | .popMany _ _ _ next => ∀ answer, (next answer).IgnoresDepth
  | .run _ _ next => ∀ answer, (next answer).IgnoresDepth

/-- The callback does not go by the nesting, wherever it is called in the text. -/
def Callback.IgnoresDepth (text : Text) (callback : Callback) : Prop :=
  ∀ i ≤ text.length, (callback.program text i).IgnoresDepth

/-- No callback that `pattern` comes to goes by the nesting. -/
def Graph.IgnoresDepth (graph : Graph) (text : Text) (pattern : PatternId) : Prop :=
  ∀ origin callback, graph.Reaches pattern origin → graph.kind origin = .function callback →
    callback.IgnoresDepth text

theorem Graph.IgnoresDepth.of_calls {graph : Graph} {text : Text} {pattern next : PatternId}
    (ignores : graph.IgnoresDepth text pattern) (step : graph.Calls pattern next) :
    graph.IgnoresDepth text next :=
  fun origin callback reaches => ignores origin callback (.of_calls step reaches)

namespace Script

theorem closed_ignoresDepth {script : Script} (noState : script.verdict ≠ .state) :
    script.Closed Program.IgnoresDepth where
  finish _ := trivial
  state asked _ := absurd asked noState
  bound _ := ⟨fun _ _ => rfl, fun _ => trivial⟩
  mark rest := ⟨fun _ _ => rfl, fun _ => rest _⟩
  bind rest := rest
  restore _ rest := holds_orFail (fun _ => trivial) fun _ => rest
  push rest := rest
  pop rest _ := rest
  popMany rest := holds_orFail (fun _ => trivial) fun _ => rest
  commit rest := rest
  rollback rest := rest
  run rest := holds_orFail (fun _ => trivial) rest

/-- Scripts do not go by the nesting unless they answer with the state. -/
theorem ignoresDepth {script : Script} (noState : script.verdict ≠ .state) (text : Text) :
    script.callback.IgnoresDepth text :=
  fun i _ => (closed_ignoresDepth noState).program text i

end Script

/-- The states are the same apart from the trace, but the first one is `gap` calls deeper than the
other one, which is at `depth`. -/
structure MatchState.Deeper (depth gap : Nat) (state other : MatchState) : Prop where
  bindings : state.bindings = other.bindings
  stackTable : state.stackTable = other.stackTable
  options : state.options = other.options
  level : other.depth = depth
  deeper : state.depth = depth + gap

namespace MatchState.Deeper

variable {depth gap : Nat} {state other : MatchState}

/-- What a callback sees differs in the nesting only, and not at all without a gap. -/
theorem view (same : state.Deeper depth gap other) :
    state.view = { other.view with depth := depth + gap } := by
  unfold MatchState.view
  rw [same.bindings, same.stackTable, same.options, same.deeper]

theorem withBindings (same : state.Deeper depth gap other) (bindings : Bindings) :
    { state with bindings }.Deeper depth gap { other with bindings } :=
  ⟨rfl, same.stackTable, same.options, same.level, same.deeper⟩

theorem withTable (same : state.Deeper depth gap other) (stackTable : StackTable) :
    { state with stackTable }.Deeper depth gap { other with stackTable } :=
  ⟨same.bindings, rfl, same.options, same.level, same.deeper⟩

theorem addTrace (same : state.Deeper depth gap other) (entries : List TraceEntry) :
    (state.addTrace entries).Deeper depth gap (other.addTrace entries) :=
  ⟨same.bindings, same.stackTable, same.options, same.level, same.deeper⟩

theorem enter {node otherNode : Node} (same : state.Deeper depth gap other)
    (sameTrace : otherNode.trace = node.trace) :
    (state.enter node).Deeper (depth + 1) gap (other.enter otherNode) := by
  refine ⟨same.bindings, same.stackTable, ?_, ?_, ?_⟩
  · simp [MatchState.enter, same.options, sameTrace]
  · simp [MatchState.enter, same.level]
  · simp only [MatchState.enter, same.deeper]
    omega

/-- Each side may be reported in its own graph. -/
theorem report (same : state.Deeper depth gap other) (setup otherSetup : Setup)
    (pattern copy : PatternId) (i : Nat) (phase : Phase) :
    (state.report setup pattern i phase).Deeper depth gap
      (other.report otherSetup copy i phase) := by
  obtain ⟨trace, reported⟩ := Matching.report_eq setup pattern i phase state
  obtain ⟨otherTrace, otherReported⟩ := Matching.report_eq otherSetup copy i phase other
  rw [reported, otherReported]
  exact ⟨same.bindings, same.stackTable, same.options, same.level, same.deeper⟩

theorem leave {entry otherEntry : MatchState} {node otherNode : Node}
    (entries : entry.Deeper depth gap otherEntry) (same : state.Deeper (depth + 1) gap other)
    (sameTrace : otherNode.trace = node.trace) :
    (entry.leave node state).Deeper depth gap (otherEntry.leave otherNode other) := by
  refine ⟨same.bindings, same.stackTable, ?_, ?_, ?_⟩
  · simp only [MatchState.leave, sameTrace, entries.options, same.options]
  · simp [MatchState.leave, same.level]
  · simp only [MatchState.leave, same.deeper]
    omega

/-- Taking back goes by what is the same. -/
theorem backtrack {entry otherEntry : MatchState} (entries : entry.Deeper depth gap otherEntry)
    (same : state.Deeper depth gap other) :
    (entry.backtrack state).1 = (otherEntry.backtrack other).1 ∧
      (entry.backtrack state).2.Deeper depth gap (otherEntry.backtrack other).2 := by
  have stackTable : state.stackTable.rollback entry.stackTable.checkpoint =
      other.stackTable.rollback otherEntry.stackTable.checkpoint := by
    rw [same.stackTable, entries.stackTable]
  unfold MatchState.backtrack
  simp only [same.bindings, entries.bindings]
  cases other.bindings.restore otherEntry.bindings.count with
  | ok bindings => exact ⟨rfl, rfl, stackTable, same.options, same.level, same.deeper⟩
  | error error => exact ⟨rfl, rfl, stackTable, same.options, same.level, same.deeper⟩

/-- Both settle or none does, unless only one of them is the outermost call. -/
theorem settle (same : state.Deeper depth gap other) (under : gap = 0 ∨ 0 < depth) :
    state.settle.Deeper depth gap other.settle := by
  have level := same.level
  have deeper := same.deeper
  unfold MatchState.settle
  by_cases outermost : other.depth = 0
  · have both : state.depth = 0 := by omega
    rw [if_pos outermost, if_pos both, same.stackTable]
    exact same.withTable _
  · have neither : state.depth ≠ 0 := by omega
    rw [if_neg outermost, if_neg neither]
    exact same

end MatchState.Deeper

namespace Matching

variable {α : Type}

/-- The ends of two actions are the same, but for a gap in the nesting. With a gap, the first one
may end at the limit instead. -/
inductive EndsDeeper (depth gap : Nat) : EStateM.Result MatchError MatchState α →
    EStateM.Result MatchError MatchState α → Prop where
  | ok {value : α} {state other : MatchState} (same : state.Deeper depth gap other) :
      EndsDeeper depth gap (.ok value state) (.ok value other)
  | error {error : MatchError} {state other : MatchState} (same : state.Deeper depth gap other) :
      EndsDeeper depth gap (.error error state) (.error error other)
  | limit {ended other : EStateM.Result MatchError MatchState α} (positive : 0 < gap)
      (limited : atLimit (answerOf ended)) : EndsDeeper depth gap ended other

/-- From states that are the same but for a gap in the nesting the two actions come to ends that
are so. -/
def SameDeeper (depth gap : Nat) (action other : MatchM α) : Prop :=
  ∀ state otherState, state.Deeper depth gap otherState →
    EndsDeeper depth gap (action state) (other otherState)

theorem congruence_sameDeeper (depth gap : Nat) :
    Congruence fun {α} => @SameDeeper α depth gap where
  pure _ := fun _ _ same => .ok same
  throw _ := fun _ _ same => .error same
  bind := by
    intro α β action other next otherNext first rest state otherState same
    have ends := first state otherState same
    rw [bind_apply other otherNext otherState]
    cases ended : action state with
    | ok value reached =>
        rw [ended] at ends
        rw [bind_apply, ended]
        generalize other otherState = otherEnded at ends
        cases ends with
        | ok same => exact rest value _ _ same
        | limit positive limited => cases limited
    | error error reached =>
        rw [ended] at ends
        rw [bind_apply, ended]
        generalize other otherState = otherEnded at ends
        cases ends with
        | error same => exact .error same
        | limit positive limited => exact .limit positive limited
  look rest := fun state otherState same =>
    rest state otherState same.bindings same.stackTable state otherState same
  rebind change := fun state otherState same => by
    rw [modify_apply, modify_apply, same.bindings]
    exact .ok (same.withBindings _)
  restack change := fun state otherState same => by
    rw [modify_apply, modify_apply, same.stackTable]
    exact .ok (same.withTable _)
  addTrace entries := fun _ _ same => .ok (same.addTrace entries)

/-- A callback goes by its calls as a node does. With a gap it must not go by the nesting, and must
pass on the limit. -/
theorem runProgram_sameDeeper {depth gap : Nat} {call other : Caller} {program : Program}
    (ignores : 0 < gap → program.IgnoresDepth) (passes : 0 < gap → program.PassesLimit)
    (calls : ∀ pattern, program.Runs pattern → ∀ index,
      SameDeeper depth gap (call pattern index) (other pattern index)) :
    SameDeeper depth gap (runProgram call program) (runProgram other program) := by
  intro state otherState same
  induction program generalizing state otherState with
  | finish outcome => exact .ok same
  | fail error => exact .error same
  | inspect next inductionHypothesis =>
      have sameNext : next state.view = next otherState.view := by
        rw [same.view]
        rcases Nat.eq_zero_or_pos gap with noGap | positive
        · rw [noGap, Nat.add_zero, ← same.level]
          rfl
        · exact (ignores positive).1 _ _
      change EndsDeeper depth gap (runProgram call (next state.view) state)
        (runProgram other (next otherState.view) otherState)
      rw [sameNext]
      exact inductionHypothesis _ (fun positive => (ignores positive).2 _)
        (fun positive => passes positive _) (fun pattern runs => calls pattern ⟨_, runs⟩) _ _ same
  | bind name value next inductionHypothesis =>
      simp only [runProgram, same.bindings]
      exact inductionHypothesis ignores passes calls _ _ (same.withBindings _)
  | restore number next inductionHypothesis =>
      have goOn := fun answer => inductionHypothesis answer
        (fun positive => ignores positive answer) (fun positive => passes positive answer)
        fun pattern runs => calls pattern ⟨_, runs⟩
      simp only [runProgram, same.bindings]
      cases otherState.bindings.restore number with
      | ok bindings => exact goOn _ _ _ (same.withBindings _)
      | error error => exact goOn _ _ _ same
  | push stack value next inductionHypothesis =>
      simp only [runProgram, same.stackTable]
      exact inductionHypothesis ignores passes calls _ _ (same.withTable _)
  | pop stack next inductionHypothesis =>
      simp only [runProgram, same.stackTable]
      exact inductionHypothesis _ (fun positive => ignores positive _)
        (fun positive => passes positive _) (fun pattern runs => calls pattern ⟨_, runs⟩) _ _
        (same.withTable _)
  | popMany stack count position next inductionHypothesis =>
      have goOn := fun answer => inductionHypothesis answer
        (fun positive => ignores positive answer) (fun positive => passes positive answer)
        fun pattern runs => calls pattern ⟨_, runs⟩
      simp only [runProgram, same.stackTable]
      cases otherState.stackTable.popMany stack count position with
      | ok popped => exact goOn _ _ _ (same.withTable _)
      | error error => exact goOn _ _ _ same
  | commit next inductionHypothesis | rollback _ next inductionHypothesis =>
      simp only [runProgram, same.stackTable]
      exact inductionHypothesis ignores passes calls _ _ (same.withTable _)
  | run pattern index next inductionHypothesis =>
      have goOn := fun answer => inductionHypothesis answer
        (fun positive => ignores positive answer) (fun positive => (passes positive answer).1)
        fun pattern runs => calls pattern (Or.inr ⟨_, runs⟩)
      have ends := calls pattern (Or.inl rfl) index state otherState same
      simp only [runProgram]
      generalize call pattern index state = ended at ends
      generalize other pattern index otherState = otherEnded at ends
      cases ends with
      | ok same => exact goOn _ _ _ same
      | error same => exact goOn _ _ _ same
      | limit positive limited =>
          refine .limit positive ?_
          cases ended with
          | ok outcome reached => cases limited
          | error error reached =>
              exact runProgram_givesUp call ((passes positive (.error error)).2 limited) reached

/-! ## Calls -/

/-- Calls end the same but for the gap if their bodies do, and if they have one name and one set of
trace options. -/
theorem guarded_endsDeeper {setup otherSetup : Setup} {pattern copy : PatternId} {i depth gap : Nat}
    {body other : MatchM (Option Match)}
    (sameName : otherSetup.graph.name? copy = setup.graph.name? pattern)
    (sameTrace : (otherSetup.graph.node copy).trace = (setup.graph.node pattern).trace)
    (under : gap = 0 ∨ 0 < depth) {entry otherEntry : MatchState}
    (entries : entry.Deeper depth gap otherEntry)
    (ends : EndsDeeper (depth + 1) gap
      (body ((entry.enter (setup.graph.node pattern)).report setup pattern i .before))
      (other ((otherEntry.enter (otherSetup.graph.node copy)).report otherSetup copy i .before))) :
    EndsDeeper depth gap (guarded setup pattern i body entry)
      (guarded otherSetup copy i other otherEntry) := by
  change (otherSetup.graph.node copy).name = (setup.graph.node pattern).name at sameName
  unfold guarded
  dsimp only
  rw [sameName]
  generalize body ((entry.enter (setup.graph.node pattern)).report setup pattern i .before) = ended
    at ends
  generalize other ((otherEntry.enter (otherSetup.graph.node copy)).report otherSetup copy i
    .before) = otherEnded at ends
  cases ends with
  | @ok outcome reached otherReached same =>
      have left := entries.leave (same.report setup otherSetup pattern copy i (.after outcome))
        sameTrace
      cases outcome with
      | some m => exact .ok (left.settle under)
      | none =>
          obtain ⟨sameEnd, restored⟩ := entries.backtrack left
          dsimp only
          generalize entry.backtrack _ = taken at sameEnd restored
          generalize otherEntry.backtrack _ = otherTaken at sameEnd restored
          obtain ⟨result, state⟩ := taken
          obtain ⟨otherResult, otherState⟩ := otherTaken
          cases sameEnd
          cases result with
          | ok _ => exact .ok (restored.settle under)
          | error error => exact .error (restored.settle under)
  | error same => exact .error ((entries.backtrack (entries.leave same sameTrace)).2.settle under)
  | limit positive limited =>
      refine .limit positive ?_
      cases ended with
      | ok outcome reached => cases limited
      | error error reached => exact (error.isLimit_inPattern _).trans limited

theorem guarded_sameDeeper {setup otherSetup : Setup} {pattern copy : PatternId} {i depth gap : Nat}
    {body other : MatchM (Option Match)}
    (sameName : otherSetup.graph.name? copy = setup.graph.name? pattern)
    (sameTrace : (otherSetup.graph.node copy).trace = (setup.graph.node pattern).trace)
    (under : gap = 0 ∨ 0 < depth) (bodies : SameDeeper (depth + 1) gap body other) :
    SameDeeper depth gap (guarded setup pattern i body) (guarded otherSetup copy i other) :=
  fun _ _ entries => guarded_endsDeeper sameName sameTrace under entries
    (bodies _ _ ((entries.enter sameTrace).report setup otherSetup pattern copy i .before))

end Matching

/-- All that the pattern comes to is the same in the other graph. -/
def Graph.SameBelow (graph other : Graph) (pattern : PatternId) : Prop :=
  ∀ origin, graph.Reaches pattern origin →
    other.node origin = graph.node origin ∧
      ∀ name cell, graph.kind origin = .reference name cell →
        other.target? cell = graph.target? cell

namespace Graph.SameBelow

variable {graph other : Graph} {pattern next : PatternId}

theorem refl (graph : Graph) (pattern : PatternId) : graph.SameBelow graph pattern :=
  fun _ _ => ⟨rfl, fun _ _ _ => rfl⟩

theorem of_calls (same : graph.SameBelow other pattern) (step : graph.Calls pattern next) :
    graph.SameBelow other next :=
  fun origin reaches => same origin (.of_calls step reaches)

end Graph.SameBelow

namespace Matching

theorem refuse_sameDeeper (setup : Setup) (otherGraph : Graph) (depth index : Nat) :
    SameDeeper depth 0 (refuse setup index) (refuse { setup with graph := otherGraph } index) :=
  (congruence_sameDeeper depth 0).throw _

/-- Calls of a pattern that is the same in both graphs are the same but for the gap. -/
theorem call_sameDeeper {setup : Setup} {otherGraph : Graph} {depth gap : Nat} (room : Nat)
    {pattern : PatternId} (same : setup.graph.SameBelow otherGraph pattern)
    (ignores : 0 < gap → setup.graph.IgnoresDepth setup.text pattern)
    (passes : 0 < gap → setup.graph.PassesLimit setup.text pattern)
    (under : gap = 0 ∨ 0 < depth) (index : Nat) :
    SameDeeper depth gap (call setup room pattern index)
      (call { setup with graph := otherGraph } (room + gap) pattern index) := by
  induction room generalizing depth pattern index with
  | zero =>
      rcases Nat.eq_zero_or_pos gap with noGap | positive
      · subst noGap
        exact refuse_sameDeeper setup otherGraph depth index
      · exact fun _ _ _ => .limit positive rfl
  | succ room inductionHypothesis =>
      have below : ∀ next, setup.graph.Calls pattern next → ∀ index,
          SameDeeper (depth + 1) gap (call setup room next index)
            (call { setup with graph := otherGraph } (room + gap) next index) :=
        fun next step => inductionHypothesis (same.of_calls step)
          (fun positive => (ignores positive).of_calls step)
          (fun positive => (passes positive).of_calls step) (Or.inr (Nat.succ_pos depth))
      have fewer : room + 1 + gap = room + gap + 1 := by omega
      obtain ⟨sameNode, sameTarget⟩ := same pattern .refl
      have sameKind : otherGraph.kind pattern = setup.graph.kind pattern :=
        congrArg Node.kind sameNode
      intro entry otherEntry entries
      rw [fewer]
      simp only [call, entries.level, entries.deeper]
      by_cases deep : setup.limit ≤ depth + gap
      · rw [if_pos deep]
        rcases Nat.eq_zero_or_pos gap with noGap | positive
        · subst noGap
          rw [if_pos (show setup.limit ≤ depth from deep)]
          exact refuse_sameDeeper setup otherGraph depth index _ _ entries
        · exact .limit positive rfl
      · have shallow : ¬ setup.limit ≤ depth := by omega
        rw [if_neg deep, if_neg shallow, sameKind]
        refine guarded_sameDeeper (congrArg Node.name sameNode) (congrArg Node.trace sameNode) under
          ?_ entry otherEntry entries
        have inside := Nat.min_le_right index setup.text.length
        refine (congruence_sameDeeper (depth + 1) gap).matchKind rfl sameTarget below
          fun callback found => runProgram_sameDeeper ?_ ?_ ?_
        · exact fun positive => ignores positive pattern callback .refl found _ inside
        · exact fun positive => passes positive pattern callback .refl found _ inside
        · exact fun next runs => below next (Or.inr ⟨callback, _, _, found, runs⟩)

end Matching

/-! ## Matches from the outside -/

namespace MatchRun

/-- The matches end in the same way and leave the same. They may be traced differently. -/
structure EndsAs (run other : MatchRun) : Prop where
  result : run.result = other.result
  input : run.input = other.input
  context : run.context = other.context

/-- The matches end in the same way and leave the same, up to stacks that are merely known. -/
structure EndsLike (run other : MatchRun) : Prop where
  result : run.result = other.result
  input : run.input = other.input
  config : run.context.config = other.context.config
  depth : run.context.depth = other.context.depth
  stackTable : run.context.stackTable.Alike other.context.stackTable

variable {run middle other : MatchRun}

theorem EndsAs.symm (ends : run.EndsAs other) : other.EndsAs run :=
  ⟨ends.result.symm, ends.input.symm, ends.context.symm⟩

theorem EndsAs.trans (first : run.EndsAs middle) (second : middle.EndsAs other) :
    run.EndsAs other :=
  ⟨first.result.trans second.result, first.input.trans second.input,
    first.context.trans second.context⟩

theorem EndsAs.endsLike (ends : run.EndsAs other) : run.EndsLike other where
  result := ends.result
  input := ends.input
  config := congrArg Context.config ends.context
  depth := congrArg Context.depth ends.context
  stackTable := by
    rw [ends.context]
    exact .refl _

theorem EndsLike.trans (first : run.EndsLike middle) (second : middle.EndsLike other) :
    run.EndsLike other where
  result := first.result.trans second.result
  input := first.input.trans second.input
  config := first.config.trans second.config
  depth := first.depth.trans second.depth
  stackTable := first.stackTable.trans second.stackTable

section Ends

open Matching

variable {ended otherEnded : EStateM.Result MatchError MatchState (Option Match)}
  (input : Input) (context : Context)

/-- Without a gap the outermost calls leave the same. -/
theorem endsAs_of_endsDeeper {depth : Nat} (ends : EndsDeeper depth 0 ended otherEnded) :
    (ofState (answerOf ended) input context (stateOf ended)).EndsAs
      (ofState (answerOf otherEnded) input context (stateOf otherEnded)) := by
  have left {state otherState : MatchState} (same : state.Deeper depth 0 otherState)
      (answer : Except MatchError (Option Match)) :
      (ofState answer input context state).EndsAs (ofState answer input context otherState) := by
    have nesting := same.deeper.trans (congrArg (· + 0) same.level.symm)
    refine ⟨rfl, ?_, ?_⟩
    · exact congrArg (fun bindings => { input with bindings }) same.bindings
    · simp [ofState, same.options, same.stackTable, nesting]
  cases ends with
  | ok same => exact left same _
  | error same => exact left same _
  | limit positive => omega

/-- A state that is restored to another one leaves the same as that one. -/
theorem endsLike_of_restores {answer otherAnswer : Except MatchError (Option Match)}
    (sameAnswer : answer = otherAnswer) {state otherState : MatchState}
    (restored : state.Restores otherState) :
    (ofState answer input context state).EndsLike
      (ofState otherAnswer input context otherState) where
  result := sameAnswer
  input := congrArg (fun bindings => { input with bindings }) restored.bindings
  config := congrArg (fun trace => { context.config with trace }) restored.options
  depth := restored.depth
  stackTable := restored.stackTable

end Ends

end MatchRun

end PegEngine
