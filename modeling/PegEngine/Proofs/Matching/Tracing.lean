import PegEngine.Proofs.Matching.Congruence
import PegEngine.Proofs.Matching.Extension

/-!
Contract: tracing does not change what is matched.

Two graphs may give a pattern different trace options and may have it under different numbers.
As long as its node and those that it comes to are the same otherwise, matches in the two graphs
go on in step: they have the same bindings, stacks and nesting all along.

Owns:
- `Program.Blind`, a callback that does not go by the trace options in effect;
- `Matching.Together`, for two actions in step, a relation that nodes keep;
- `Graph.Alike`, a pattern and its copy in another graph, and `matchIn_alike`.
-/

namespace PegEngine

/-- The program may look at the trace options in effect, but goes on in the same way whatever they
are. -/
def Program.Blind : Program → Prop
  | .finish _ | .fail _ => True
  | .inspect next =>
      (∀ view trace, next { view with trace } = next view) ∧ ∀ view, (next view).Blind
  | .bind _ _ next | .push _ _ next | .commit next | .rollback _ next => next.Blind
  | .restore _ next => ∀ answer, (next answer).Blind
  | .pop _ next => ∀ value, (next value).Blind
  | .popMany _ _ _ next => ∀ answer, (next answer).Blind
  | .run _ _ next => ∀ answer, (next answer).Blind

/-- The states are the same apart from the trace and the trace options in effect. -/
structure MatchState.Agrees (state other : MatchState) : Prop where
  bindings : state.bindings = other.bindings
  stackTable : state.stackTable = other.stackTable
  depth : state.depth = other.depth

namespace MatchState.Agrees

variable {state middle other : MatchState}

theorem refl (state : MatchState) : state.Agrees state :=
  ⟨rfl, rfl, rfl⟩

theorem symm (agrees : state.Agrees other) : other.Agrees state :=
  ⟨agrees.bindings.symm, agrees.stackTable.symm, agrees.depth.symm⟩

theorem trans (first : state.Agrees middle) (second : middle.Agrees other) : state.Agrees other :=
  ⟨first.bindings.trans second.bindings, first.stackTable.trans second.stackTable,
    first.depth.trans second.depth⟩

/-- What a callback sees differs in the trace options only. -/
theorem view (agrees : state.Agrees other) :
    other.view = { state.view with trace := other.options } := by
  unfold MatchState.view
  rw [agrees.bindings, agrees.stackTable, agrees.depth]

end MatchState.Agrees

namespace Matching

variable {α : Type}

/-- Two actions in step: from states that agree they end with the same answer in states that
agree. -/
def Together (action other : MatchM α) : Prop :=
  ∀ state otherState, state.Agrees otherState →
    answerOf (action state) = answerOf (other otherState) ∧
      (stateOf (action state)).Agrees (stateOf (other otherState))

/-- Nodes do not go by the trace or by the trace options in effect. -/
theorem congruence_together : Congruence Together where
  pure _ := fun _ _ agrees => ⟨rfl, agrees⟩
  throw _ := fun _ _ agrees => ⟨rfl, agrees⟩
  bind := by
    intro α β action other next otherNext first rest state otherState agrees
    obtain ⟨sameAnswer, agreesAfter⟩ := first state otherState agrees
    rw [bind_apply, bind_apply]
    cases ended : action state <;> cases otherEnded : other otherState <;>
      rw [ended, otherEnded] at sameAnswer agreesAfter <;> cases sameAnswer
    · exact rest _ _ _ agreesAfter
    · exact ⟨rfl, agreesAfter⟩
  look rest := fun state otherState agrees =>
    rest state otherState agrees.bindings agrees.stackTable state otherState agrees
  rebind change := fun _ _ agrees =>
    ⟨rfl, congrArg change agrees.bindings, agrees.stackTable, agrees.depth⟩
  restack change := fun _ _ agrees =>
    ⟨rfl, agrees.bindings, congrArg change agrees.stackTable, agrees.depth⟩
  addTrace _ := fun _ _ agrees => ⟨rfl, agrees.bindings, agrees.stackTable, agrees.depth⟩

/-! ## Callbacks -/

/-- Calls of the pattern are in step. -/
def CallsTogether (call other : Caller) (pattern : PatternId) : Prop :=
  ∀ index, Together (call pattern index) (other pattern index)

theorem runProgram_together {call other : Caller} {program : Program} (blind : program.Blind)
    (calls : ∀ pattern, program.Runs pattern → CallsTogether call other pattern) :
    Together (runProgram call program) (runProgram other program) := by
  induction program with
  | finish outcome => exact congruence_together.pure outcome
  | fail error => exact congruence_together.throw error
  | inspect next inductionHypothesis =>
      intro state otherState agrees
      change _ = answerOf (runProgram other (next otherState.view) otherState) ∧
        MatchState.Agrees _ (stateOf (runProgram other (next otherState.view) otherState))
      rw [agrees.view, blind.1]
      exact inductionHypothesis state.view (blind.2 _)
        (fun pattern runs => calls pattern ⟨_, runs⟩) state otherState agrees
  | bind name value next inductionHypothesis =>
      intro state otherState agrees
      exact inductionHypothesis blind calls _ _
        ⟨congrArg (·.bind name value) agrees.bindings, agrees.stackTable, agrees.depth⟩
  | restore number next inductionHypothesis =>
      intro state otherState agrees
      have goOn := fun answer => inductionHypothesis answer (blind answer)
        fun pattern runs => calls pattern ⟨_, runs⟩
      simp only [runProgram, agrees.bindings]
      cases otherState.bindings.restore number with
      | ok bindings => exact goOn _ _ _ ⟨rfl, agrees.stackTable, agrees.depth⟩
      | error error => exact goOn _ _ _ agrees
  | push stack value next inductionHypothesis =>
      intro state otherState agrees
      exact inductionHypothesis blind calls _ _
        ⟨agrees.bindings, congrArg (·.push stack value) agrees.stackTable, agrees.depth⟩
  | pop stack next inductionHypothesis =>
      intro state otherState agrees
      simp only [runProgram, agrees.stackTable]
      exact inductionHypothesis _ (blind _) (fun pattern runs => calls pattern ⟨_, runs⟩) _ _
        ⟨agrees.bindings, rfl, agrees.depth⟩
  | popMany stack count position next inductionHypothesis =>
      intro state otherState agrees
      have goOn := fun answer => inductionHypothesis answer (blind answer)
        fun pattern runs => calls pattern ⟨_, runs⟩
      simp only [runProgram, agrees.stackTable]
      cases otherState.stackTable.popMany stack count position with
      | ok popped => exact goOn _ _ _ ⟨agrees.bindings, rfl, agrees.depth⟩
      | error error => exact goOn _ _ _ agrees
  | commit next inductionHypothesis =>
      intro state otherState agrees
      exact inductionHypothesis blind calls _ _
        ⟨agrees.bindings, congrArg (·.commit) agrees.stackTable, agrees.depth⟩
  | rollback checkpoint next inductionHypothesis =>
      intro state otherState agrees
      exact inductionHypothesis blind calls _ _
        ⟨agrees.bindings, congrArg (·.rollback checkpoint) agrees.stackTable, agrees.depth⟩
  | run pattern index next inductionHypothesis =>
      intro state otherState agrees
      have goOn := fun answer => inductionHypothesis answer (blind answer)
        fun pattern runs => calls pattern (Or.inr ⟨_, runs⟩)
      obtain ⟨sameAnswer, agreesAfter⟩ :=
        calls pattern (Or.inl rfl) index state otherState agrees
      simp only [runProgram]
      cases ended : call pattern index state <;>
        cases otherEnded : other pattern index otherState <;>
        rw [ended, otherEnded] at sameAnswer agreesAfter <;> cases sameAnswer
      · exact goOn _ _ _ agreesAfter
      · exact goOn _ _ _ agreesAfter

end Matching

/-- The pattern and its copy in another graph differ in trace options only, and what the pattern
comes to is `same` in both. -/
structure Graph.Alike (graph other : Graph) (same : PatternId → Prop)
    (pattern copy : PatternId) : Prop where
  kind : other.kind copy = graph.kind pattern
  name : other.name? copy = graph.name? pattern
  target : ∀ name cell, graph.kind pattern = .reference name cell →
    other.target? cell = graph.target? cell
  blind : ∀ callback, graph.kind pattern = .function callback →
    ∀ text i, (callback.program text i).Blind
  calls : ∀ next, graph.Calls pattern next → same next

namespace Matching

/-! ## Calls -/

theorem report_agrees (setup : Setup) (pattern : PatternId) (i : Nat) (phase : Phase)
    (state : MatchState) : (state.report setup pattern i phase).Agrees state := by
  unfold MatchState.report
  dsimp only
  split
  · exact .refl state
  · split
    · exact ⟨rfl, rfl, rfl⟩
    · exact .refl state

theorem settle_agrees {state other : MatchState} (agrees : state.Agrees other) :
    state.settle.Agrees other.settle := by
  unfold MatchState.settle
  by_cases outermost : other.depth = 0
  · rw [if_pos outermost, if_pos (agrees.depth.trans outermost)]
    exact ⟨agrees.bindings, congrArg (·.commit) agrees.stackTable, agrees.depth⟩
  · rw [if_neg outermost, if_neg fun same => outermost (agrees.depth.symm.trans same)]
    exact agrees

theorem leave_agrees {entry otherEntry state other : MatchState} (node otherNode : Node)
    (agrees : state.Agrees other) :
    (entry.leave node state).Agrees (otherEntry.leave otherNode other) :=
  ⟨agrees.bindings, agrees.stackTable, congrArg (· - 1) agrees.depth⟩

/-- Taking back goes by what the states agree on. -/
theorem backtrack_agrees {entry otherEntry state other : MatchState}
    (entries : entry.Agrees otherEntry) (agrees : state.Agrees other) :
    (entry.backtrack state).1 = (otherEntry.backtrack other).1 ∧
      (entry.backtrack state).2.Agrees (otherEntry.backtrack other).2 := by
  have stackTable : state.stackTable.rollback entry.stackTable.checkpoint =
      other.stackTable.rollback otherEntry.stackTable.checkpoint := by
    rw [agrees.stackTable, entries.stackTable]
  unfold MatchState.backtrack
  simp only [agrees.bindings, entries.bindings]
  cases other.bindings.restore otherEntry.bindings.count with
  | ok bindings => exact ⟨rfl, rfl, stackTable, agrees.depth⟩
  | error error => exact ⟨rfl, rfl, stackTable, agrees.depth⟩

/-- Calls are in step if their bodies are, and blame the same name. -/
theorem guarded_together {setup otherSetup : Setup} {pattern copy : PatternId} {i : Nat}
    {body other : MatchM (Option Match)} (bodies : Together body other)
    (sameName : otherSetup.graph.name? copy = setup.graph.name? pattern) :
    Together (guarded setup pattern i body) (guarded otherSetup copy i other) := by
  intro entry otherEntry entries
  have entered : (entry.enter (setup.graph.node pattern)).Agrees
      (otherEntry.enter (otherSetup.graph.node copy)) :=
    ⟨entries.bindings, entries.stackTable, congrArg (· + 1) entries.depth⟩
  have reported := (report_agrees setup pattern i .before _).trans
    (entered.trans (report_agrees otherSetup copy i .before _).symm)
  obtain ⟨sameAnswer, agrees⟩ := bodies _ _ reported
  change (otherSetup.graph.node copy).name = (setup.graph.node pattern).name at sameName
  unfold guarded
  dsimp only
  rw [sameName]
  cases ended : body ((entry.enter (setup.graph.node pattern)).report setup pattern i .before) <;>
    cases otherEnded : other ((otherEntry.enter (otherSetup.graph.node copy)).report otherSetup copy
      i .before) <;>
    rw [ended, otherEnded] at sameAnswer agrees <;> cases sameAnswer
  · next outcome reached otherReached =>
      have left := @leave_agrees entry otherEntry _ _ (setup.graph.node pattern)
        (otherSetup.graph.node copy)
        ((report_agrees setup pattern i (.after outcome) reached).trans
          (MatchState.Agrees.trans agrees
            (report_agrees otherSetup copy i (.after outcome) otherReached).symm))
      cases outcome with
      | some m => exact ⟨rfl, settle_agrees left⟩
      | none =>
          obtain ⟨sameEnd, restored⟩ := backtrack_agrees entries left
          dsimp only
          generalize entry.backtrack _ = taken at sameEnd restored
          generalize otherEntry.backtrack _ = otherTaken at sameEnd restored
          obtain ⟨result, state⟩ := taken
          obtain ⟨otherResult, otherState⟩ := otherTaken
          cases sameEnd
          cases result with
          | ok _ => exact ⟨rfl, settle_agrees restored⟩
          | error error => exact ⟨rfl, settle_agrees restored⟩
  · next error reached otherReached =>
      have left := @leave_agrees entry otherEntry _ _ (setup.graph.node pattern)
        (otherSetup.graph.node copy) agrees
      exact ⟨rfl, settle_agrees (backtrack_agrees entries left).2⟩

theorem refuse_together (setup : Setup) (otherGraph : Graph) (index : Nat) :
    Together (refuse setup index) (refuse { setup with graph := otherGraph } index) :=
  congruence_together.throw _

/-- Calls of alike patterns are in step. -/
theorem call_together {setup : Setup} {otherGraph : Graph} {same : PatternId → Prop}
    (alike : ∀ pattern, same pattern → setup.graph.Alike otherGraph same pattern pattern)
    (room : Nat) {pattern copy : PatternId}
    (copied : setup.graph.Alike otherGraph same pattern copy) (index : Nat) :
    Together (call setup room pattern index)
      (call { setup with graph := otherGraph } room copy index) := by
  induction room generalizing pattern copy index with
  | zero => exact refuse_together setup otherGraph index
  | succ room inductionHypothesis =>
      have below : ∀ next, setup.graph.Calls pattern next →
          CallsTogether (call setup room) (call { setup with graph := otherGraph } room) next :=
        fun next step => inductionHypothesis (alike next (copied.calls next step))
      intro entry otherEntry entries
      simp only [call]
      rw [entries.depth]
      split
      · exact refuse_together setup otherGraph index entry otherEntry entries
      · refine guarded_together ?_ copied.name entry otherEntry entries
        rw [copied.kind]
        refine congruence_together.matchKind rfl copied.target below fun callback kind => ?_
        exact runProgram_together (copied.blind callback kind _ _) fun next runs =>
          below next (Or.inr ⟨callback, _, _, kind, runs⟩)

end Matching

/-- The contexts are the same apart from the trace options in effect. -/
structure Context.Agrees (context other : Context) : Prop where
  limit : context.config.limit = other.config.limit
  stackTable : context.stackTable = other.stackTable
  depth : context.depth = other.depth

/-- The matches end in the same way. They may be traced differently. -/
structure MatchRun.Agrees (run other : MatchRun) : Prop where
  result : run.result = other.result
  input : run.input = other.input
  context : run.context.Agrees other.context

/-- A pattern and its copy in another graph match in the same way, whatever is traced. -/
theorem Graph.matchIn_alike {graph other : Graph} {same : PatternId → Prop}
    {pattern copy : PatternId} {context otherContext : Context}
    (alike : ∀ pattern, same pattern → graph.Alike other same pattern pattern)
    (copied : graph.Alike other same pattern copy) (contexts : context.Agrees otherContext)
    (input : Input) (index : Nat) :
    (graph.matchIn pattern input index context).Agrees
      (other.matchIn copy input index otherContext) := by
  have states : (context.state input).Agrees (otherContext.state input) :=
    ⟨rfl, contexts.stackTable, contexts.depth⟩
  have sameSetup : otherContext.setup other input.text =
      { context.setup graph input.text with graph := other } := by
    unfold Context.setup
    rw [contexts.limit]
  have together := @Matching.call_together (context.setup graph input.text) other same alike
    (context.config.limit - context.depth) pattern copy copied index
  obtain ⟨sameAnswer, agrees⟩ := together _ _ states
  unfold matchIn
  rw [sameSetup, ← contexts.limit, ← contexts.depth]
  generalize Matching.call (context.setup graph input.text) _ pattern index _ = ended
    at sameAnswer agrees
  generalize Matching.call _ _ copy index _ = otherEnded at sameAnswer agrees
  cases ended <;> cases otherEnded <;> cases sameAnswer
  all_goals
    refine ⟨rfl, ?_, contexts.limit, agrees.stackTable, agrees.depth⟩
    exact congrArg (fun bindings => { input with bindings }) agrees.bindings

/-! ## The same graph under other trace options -/

/-- The node without trace options. -/
def Node.untraced (node : Node) : Node :=
  { node with trace := none }

namespace Graph

/-- The graph without the trace options of its nodes. -/
def untraced (graph : Graph) : Graph :=
  { graph with slots := graph.slots.map (·.map Node.untraced) }

variable {graph other : Graph}

theorem node?_untraced (graph : Graph) (pattern : PatternId) :
    graph.untraced.node? pattern = (graph.node? pattern).map Node.untraced := by
  unfold node? untraced
  rw [Array.getElem?_map]
  cases graph.slots[pattern]? <;> rfl

theorem node_untraced (graph : Graph) (pattern : PatternId) :
    graph.untraced.node pattern = (graph.node pattern).untraced := by
  unfold node
  rw [node?_untraced]
  cases graph.node? pattern <;> rfl

@[simp] theorem kind_untraced (graph : Graph) (pattern : PatternId) :
    graph.untraced.kind pattern = graph.kind pattern := by
  unfold kind
  rw [node_untraced]
  rfl

@[simp] theorem name?_untraced (graph : Graph) (pattern : PatternId) :
    graph.untraced.name? pattern = graph.name? pattern := by
  unfold name?
  rw [node_untraced]
  rfl

@[simp] theorem target?_untraced (graph : Graph) (cell : CellId) :
    graph.untraced.target? cell = graph.target? cell := by
  have isLive : graph.untraced.isLive = graph.isLive := by
    funext rule
    unfold Graph.isLive
    rw [node?_untraced, Option.isSome_map]
  unfold target?
  rw [isLive]
  rfl

/-- A pattern is alike in graphs that differ in trace options only. -/
theorem alike_of_untraced {same : PatternId → Prop} {pattern : PatternId}
    (sameNodes : graph.untraced = other.untraced)
    (blind : ∀ callback, graph.kind pattern = .function callback →
      ∀ text i, (callback.program text i).Blind)
    (calls : ∀ next, graph.Calls pattern next → same next) :
    graph.Alike other same pattern pattern where
  kind := by rw [← other.kind_untraced, ← sameNodes, kind_untraced]
  name := by rw [← other.name?_untraced, ← sameNodes, name?_untraced]
  target _ cell _ := by rw [← other.target?_untraced, ← sameNodes, target?_untraced]
  blind := blind
  calls := calls

/-- Tracing is transparent. Whatever the trace options of the nodes and those in effect around the
match, a match ends with the same result and leaves the same bindings, stacks and nesting. -/
theorem matchIn_untraced {pattern : PatternId} {context otherContext : Context}
    (sameNodes : graph.untraced = other.untraced) (contexts : context.Agrees otherContext)
    (blind : ∀ origin callback, graph.Reaches pattern origin →
      graph.kind origin = .function callback → ∀ text i, (callback.program text i).Blind)
    (input : Input) (index : Nat) :
    (graph.matchIn pattern input index context).Agrees
      (other.matchIn pattern input index otherContext) := by
  have alike : ∀ next, graph.Reaches pattern next →
      graph.Alike other (graph.Reaches pattern) next next :=
    fun next reaches => alike_of_untraced sameNodes (fun callback => blind next callback reaches)
      fun further step => reaches.tail step
  exact matchIn_alike alike (alike pattern .refl) contexts input index

/-- Accepts where one word is on the stack of words. -/
def oneWord : Callback where
  program _ _ := .inspect fun view =>
    .finish (if view.stackTable.size "words" = 1 then .accept else .reject)

/-- A word that is bound, put on a stack and read again, with trace options here and there. -/
def observed (first second third : Option TraceOptions) : Graph where
  slots := #[
    some { kind := .literal ['a'], trace := first },
    some { kind := .capture 0, name := some "word" },
    some { kind := .backCapture "twice" 1 none, trace := second },
    some { kind := .stackCapture "words" 2 },
    some { kind := .backReference "twice", name := some "again", trace := third },
    some { kind := .function oneWord },
    some { kind := .sequence [3, 4, 5], name := some "observed", trace := second }]

/-- Records what happens before the second character is matched, and what has matched. -/
def secondPlace : TraceOptions where
  before := .custom fun attempt => attempt.index = 1
  after := .either .named .onlySuccess
  sink := .record

theorem matchIn_untraced_observed :
    let plain := observed none none (some .hidden)
    let traced := observed (some secondPlace) none (some .shown)
    let context : Context := { config := { trace := some secondPlace } }
    (plain.matchIn 6 (.ofString "aa") 0 {}).Agrees (traced.matchIn 6 (.ofString "aa") 0 context) ∧
      (plain.matchIn 6 (.ofString "aa") 0 {}).result.toOption =
        some (some ((Text.ofString "aa").matchOver 0 2)) ∧
      (plain.matchIn 6 (.ofString "aa") 0 {}).trace.length = 0 ∧
      (traced.matchIn 6 (.ofString "aa") 0 context).trace.length = 9 := by
  intro plain traced context
  have sameNodes : plain.untraced = traced.untraced := by
    simp [plain, traced, observed, untraced, Node.untraced]
  have contexts : Context.Agrees {} context := ⟨rfl, rfl, rfl⟩
  refine ⟨matchIn_untraced sameNodes contexts ?_ (.ofString "aa") 0, ?_⟩
  · intro origin callback _ found text i
    match origin with
    | 0 | 1 | 2 | 3 | 4 | 6 => cases found
    | 5 =>
        cases found
        exact ⟨fun _ _ => rfl, fun _ => trivial⟩
    | origin + 7 => cases found
  · decide +kernel

end Graph

end PegEngine
