import Mathlib.Tactic.ByContra
import PegEngine.Proofs.Callback.Scripts
import PegEngine.Proofs.Matching.Growth

/-!
Contract: what a match leaves behind.

A pattern that does not match, and one that ends in an error, leaves bindings, stacks, nesting and
trace options as it found them. A pattern that matches only adds to the bindings and to the journal
of the stacks. Callbacks are part of this as long as they are lawful.

Owns:
- `enclosed`, a pattern call before it settles, and `enclosed_ends`, how it ends;
- `guarded_isolated` and `call_isolated`, for whole pattern calls;
- `Graph.Blamed`, where underflows of the bindings come from;
- `MatchRun.Isolates`, for matches from the outside.
-/

namespace PegEngine

namespace Matching

section Guarded

variable {setup : Setup} {pattern : PatternId} {i : Nat} {body : MatchM (Option Match)}
  {entry reached : MatchState}

/-- The state in which the body of a call starts. -/
def started (setup : Setup) (pattern : PatternId) (i : Nat) (entry : MatchState) : MatchState :=
  (entry.enter (setup.graph.node pattern)).report setup pattern i .before

theorem started_extends :
    (started setup pattern i entry).Extends (entry.enter (setup.graph.node pattern)) :=
  .report ..

theorem depth_started : (started setup pattern i entry).depth = entry.depth + 1 :=
  started_extends.depth

/-- A call before it settles. -/
def enclosed (setup : Setup) (pattern : PatternId) (i : Nat) (body : MatchM (Option Match)) :
    MatchM (Option Match) := fun entry =>
  let node := setup.graph.node pattern
  match body (started setup pattern i entry) with
  | .ok outcome reached =>
      let left := entry.leave node (reached.report setup pattern i (.after outcome))
      match outcome with
      | some m => .ok (some m) left
      | none =>
          match entry.backtrack left with
          | (.ok (), state) => .ok none state
          | (.error error, state) => .error (error.inPattern node.name) state
  | .error error reached =>
      .error (error.inPattern node.name) (entry.backtrack (entry.leave node reached)).2

/-- What is left of a call when it settles. -/
def settled {α : Type} (ended : EStateM.Result MatchError MatchState α) :
    EStateM.Result MatchError MatchState α :=
  match ended with
  | .ok value state => .ok value state.settle
  | .error error state => .error error state.settle

theorem answerOf_settled {α : Type} (ended : EStateM.Result MatchError MatchState α) :
    answerOf (settled ended) = answerOf ended := by
  cases ended <;> rfl

theorem stateOf_settled {α : Type} (ended : EStateM.Result MatchError MatchState α) :
    stateOf (settled ended) = (stateOf ended).settle := by
  cases ended <;> rfl

/-- Only the outermost call settles anything. -/
theorem settled_of_pos {α : Type} {ended : EStateM.Result MatchError MatchState α}
    (under : 0 < (stateOf ended).depth) : settled ended = ended := by
  cases ended with
  | ok value state => exact congrArg (EStateM.Result.ok value) (MatchState.settle_of_pos under)
  | error error state => exact congrArg (EStateM.Result.error error) (MatchState.settle_of_pos under)

theorem guarded_eq_settled :
    guarded setup pattern i body entry = settled (enclosed setup pattern i body entry) := by
  unfold guarded enclosed started
  dsimp only
  cases body ((entry.enter (setup.graph.node pattern)).report setup pattern i .before) with
  | error error reached => rfl
  | ok outcome reached =>
      cases outcome with
      | some m => rfl
      | none =>
          dsimp only
          generalize entry.backtrack _ = undone
          obtain ⟨result, state⟩ := undone
          cases result <;> rfl

theorem enclosed_of_found {m : Match}
    (ended : body (started setup pattern i entry) = .ok (some m) reached) :
    enclosed setup pattern i body entry = .ok (some m) (entry.leave (setup.graph.node pattern)
      (reached.report setup pattern i (.after (some m)))) := by
  simp only [enclosed, ended]

/-- A body that does not match, when all that it did can be taken back. -/
theorem enclosed_of_missed {restored : MatchState}
    (ended : body (started setup pattern i entry) = .ok none reached)
    (undone : entry.backtrack (entry.leave (setup.graph.node pattern)
      (reached.report setup pattern i (.after none))) = (.ok (), restored)) :
    enclosed setup pattern i body entry = .ok none restored := by
  simp only [enclosed, ended, undone]

/-- A body that ends in an error. -/
theorem enclosed_of_error {error : MatchError}
    (ended : body (started setup pattern i entry) = .error error reached) :
    enclosed setup pattern i body entry = .error (error.inPattern (setup.graph.name? pattern))
      (entry.backtrack (entry.leave (setup.graph.node pattern) reached)).2 := by
  simp only [enclosed, ended]
  rfl

theorem guarded_of_found {m : Match}
    (ended : body (started setup pattern i entry) = .ok (some m) reached) :
    guarded setup pattern i body entry =
      .ok (some m) (entry.leave (setup.graph.node pattern)
        (reached.report setup pattern i (.after (some m)))).settle := by
  rw [guarded_eq_settled, enclosed_of_found ended, settled]

theorem guarded_of_failed {error : MatchError}
    (ended : body (started setup pattern i entry) = .error error reached) :
    answerOf (guarded setup pattern i body entry) =
      .error (error.inPattern (setup.graph.name? pattern)) := by
  rw [guarded_eq_settled, enclosed_of_error ended]
  rfl

/-- How a call ends before it settles, given how its body has ended: with the match of the body, or
with all taken back that the body did. -/
inductive EnclosedEnds (setup : Setup) (pattern : PatternId) (i : Nat)
    (body : MatchM (Option Match)) (entry : MatchState) :
    EStateM.Result MatchError MatchState (Option Match) → Prop where
  | found {m : Match} {reached : MatchState}
      (ended : body (started setup pattern i entry) = .ok (some m) reached)
      (grown : reached.Extends (started setup pattern i entry)) :
      EnclosedEnds setup pattern i body entry (.ok (some m) (entry.leave (setup.graph.node pattern)
        (reached.report setup pattern i (.after (some m)))))
  | missed {reached restored : MatchState}
      (ended : body (started setup pattern i entry) = .ok none reached)
      (same : restored.Restores entry) :
      EnclosedEnds setup pattern i body entry (.ok none restored)
  | failed {error : MatchError} {reached restored : MatchState}
      (ended : body (started setup pattern i entry) = .error error reached)
      (same : restored.Restores entry) :
      EnclosedEnds setup pattern i body entry
        (.error (error.inPattern (setup.graph.name? pattern)) restored)

section Grown

variable {blamed : MatchError → Prop} (grows : Grows blamed body) (entry : MatchState)

include grows

theorem enclosed_ends :
    EnclosedEnds setup pattern i body entry (enclosed setup pattern i body entry) := by
  have under : 0 < (started setup pattern i entry).depth := by
    rw [depth_started]
    exact Nat.succ_pos _
  have grown := (grows _ under).1
  cases ended : body (started setup pattern i entry) with
  | ok outcome reached =>
      rw [ended] at grown
      cases outcome with
      | some m =>
          rw [enclosed_of_found ended]
          exact .found ended grown
      | none =>
          have left : (entry.leave (setup.graph.node pattern)
              (reached.report setup pattern i (.after none))).Extends entry :=
            .leave (((MatchState.Extends.report ..).trans grown).trans started_extends)
          obtain ⟨restored, undone, same⟩ := MatchState.backtrack_of_extends left
          rw [enclosed_of_missed ended undone]
          exact .missed ended same
  | error error reached =>
      rw [ended] at grown
      have left : (entry.leave (setup.graph.node pattern) reached).Extends entry :=
        .leave (grown.trans started_extends)
      obtain ⟨restored, undone, same⟩ := MatchState.backtrack_of_extends left
      rw [enclosed_of_error ended, undone]
      exact .failed ended same

/-- A pattern under the protocol of calls is isolated. Its errors are those of the body, attributed
to the pattern. -/
theorem enclosed_isolated :
    Isolated entry (answerOf (enclosed setup pattern i body entry))
        (stateOf (enclosed setup pattern i body entry)) ∧
      ∀ error, answerOf (enclosed setup pattern i body entry) = .error error →
        ∃ cause, blamed cause ∧ error = cause.inPattern (setup.graph.name? pattern) := by
  have under : 0 < (started setup pattern i entry).depth := by
    rw [depth_started]
    exact Nat.succ_pos _
  have faults := (grows _ under).2
  have ends := @enclosed_ends setup pattern i body _ grows entry
  generalize enclosed setup pattern i body entry = result at ends ⊢
  cases ends with
  | found ended grown =>
      refine ⟨.found ?_, fun error failed => nomatch failed⟩
      exact .leave (((MatchState.Extends.report ..).trans grown).trans started_extends)
  | missed ended same => exact ⟨.missed same, fun error failed => nomatch failed⟩
  | failed ended same =>
      refine ⟨.failed same, fun other failed => ?_⟩
      cases failed
      exact ⟨_, faults _ (by rw [ended]; rfl), rfl⟩

/-- The call is so up to the settling, if it is the outermost one. -/
theorem guarded_isolated :
    ∃ left : MatchState, stateOf (guarded setup pattern i body entry) = left.settle ∧
      Isolated entry (answerOf (guarded setup pattern i body entry)) left ∧
      ∀ error, answerOf (guarded setup pattern i body entry) = .error error →
        ∃ cause, blamed cause ∧ error = cause.inPattern (setup.graph.name? pattern) := by
  rw [guarded_eq_settled, answerOf_settled, stateOf_settled]
  exact ⟨_, rfl, enclosed_isolated grows entry⟩

/-- The answer of a pattern call is that of its body: taking back adds no error. -/
theorem guarded_answer :
    answerOf (guarded setup pattern i body entry) =
      (answerOf (body (started setup pattern i entry))).mapError
        (·.inPattern (setup.graph.name? pattern)) := by
  rw [guarded_eq_settled, answerOf_settled]
  have ends := @enclosed_ends setup pattern i body _ grows entry
  generalize enclosed setup pattern i body entry = result at ends ⊢
  cases ends with
  | found ended _ | missed ended _ | failed ended _ => rw [ended]; rfl

end Grown

end Guarded

end Matching

/-- A callback that `pattern` comes to is the origin of `error`. -/
def Graph.HasOrigin (graph : Graph) (text : Text) (pattern : PatternId) (error : MatchError) :
    Prop :=
  ∃ origin callback, graph.Reaches pattern origin ∧ graph.kind origin = .function callback ∧
    (callback.IsRefused text error ∨ callback.Invents text error)

/-- Underflows of the bindings have an origin below `pattern`. -/
def Graph.Blamed (graph : Graph) (text : Text) (pattern : PatternId) (error : MatchError) : Prop :=
  ∀ expected actual, error = .backCaptureUnderflow expected actual →
    graph.HasOrigin text pattern error

/-- Every callback that `pattern` comes to is lawful. -/
def Graph.Lawful (graph : Graph) (text : Text) (pattern : PatternId) : Prop :=
  ∀ origin callback, graph.Reaches pattern origin → graph.kind origin = .function callback →
    callback.Lawful text

namespace Graph

variable {graph : Graph} {text : Text} {pattern next : PatternId} {error : MatchError}

theorem Lawful.of_reaches (lawful : graph.Lawful text pattern)
    (reaches : graph.Reaches pattern next) : graph.Lawful text next :=
  fun origin callback further => lawful origin callback (reaches.trans further)

theorem Lawful.of_calls (lawful : graph.Lawful text pattern) (step : graph.Calls pattern next) :
    graph.Lawful text next :=
  lawful.of_reaches (.single step)

theorem HasOrigin.of_calls (step : graph.Calls pattern next)
    (origin : graph.HasOrigin text next error) : graph.HasOrigin text pattern error := by
  obtain ⟨place, callback, reaches, rest⟩ := origin
  exact ⟨place, callback, .of_calls step reaches, rest⟩

theorem Blamed.of_calls (step : graph.Calls pattern next)
    (blamed : graph.Blamed text next error) : graph.Blamed text pattern error :=
  fun expected actual same => (blamed expected actual same).of_calls step

/-- Attributing an error to a pattern makes no underflow of it. -/
theorem Blamed.inPattern (blamed : graph.Blamed text pattern error) (name : Option String) :
    graph.Blamed text pattern (error.inPattern name) := by
  intro expected actual same
  cases error with
  | backCaptureUnderflow => exact blamed expected actual same
  | _ => cases same

end Graph

namespace Matching

/-- A callback is blamed for the underflows that it passes on or makes: if none of its nested
matches ended in one, it stems from the callback. -/
theorem runProgram_blamed {setup : Setup} {call : Caller} {pattern : PatternId} {i : Nat}
    {callback : Callback} (found : setup.graph.kind pattern = .function callback)
    (calls : ∀ next, (callback.program setup.text i).Runs next → ∀ index state, 0 < state.depth →
      Isolated state (answerOf (call next index state)) (stateOf (call next index state)) ∧
      ∀ error, answerOf (call next index state) = .error error →
        setup.graph.Blamed setup.text next error)
    {state : MatchState} (under : 0 < state.depth) {error : MatchError}
    (failed : answerOf (runProgram call (callback.program setup.text i) state) = .error error) :
    setup.graph.Blamed setup.text pattern error := by
  intro expected actual underflow
  by_contra noOrigin
  have course : Program.Course (IsolatedBut error) (fun _ => True)
      ⟨callback.program setup.text i, state⟩
      (lastMoment (runProgram call (callback.program setup.text i) state)) := by
    refine Program.runProgram_course (fun _ _ _ isolated => isolated.1.extends.depth) _ state
      fun next runs index reached atDepth => ?_
    obtain ⟨isolated, blamed⟩ := calls next runs index reached (atDepth ▸ under)
    refine ⟨isolated, fun answered => noOrigin ?_⟩
    exact (blamed error answered expected actual underflow).of_calls
      (Or.inr ⟨callback, setup.text, i, found, runs⟩)
  cases ended : runProgram call (callback.program setup.text i) state with
  | ok outcome reached =>
      rw [ended] at failed
      cases failed
  | error other reached =>
      rw [ended] at failed course
      cases failed
      apply noOrigin
      refine ⟨pattern, callback, .refl, found, ?_⟩
      rcases course.refused_or_not (by simp [underflow]) with refused | invented
      · obtain ⟨number, next, last, toRequest, refused⟩ := refused
        exact Or.inl ⟨i, state, number, next, last, toRequest, refused⟩
      · exact Or.inr ⟨i, state, reached, invented⟩

/-- A body inside a call grows, given that the nested calls are isolated. -/
theorem matchKind_isolated {setup : Setup} {call : Caller} {pattern : PatternId} {i : Nat}
    (inside : i ≤ setup.text.length) (lawful : setup.graph.Lawful setup.text pattern)
    (calls : ∀ next, setup.graph.Calls pattern next → ∀ index state, 0 < state.depth →
      Isolated state (answerOf (call next index state)) (stateOf (call next index state)) ∧
      ∀ error, answerOf (call next index state) = .error error →
        setup.graph.Blamed setup.text next error) :
    Grows (setup.graph.Blamed setup.text pattern)
      (matchKind setup call i (setup.graph.kind pattern)) := by
  have nested : ∀ next, setup.graph.Calls pattern next → ∀ index,
      Grows (setup.graph.Blamed setup.text pattern) (call next index) := by
    intro next step index state under
    obtain ⟨isolated, blamed⟩ := calls next step index state under
    exact ⟨isolated.extends, fun error failed => (blamed error failed).of_calls step⟩
  apply matchKind_grows
  · exact fun error other expected actual same => absurd same (other expected actual)
  · exact fun child member => nested child (Or.inl (Or.inl member))
  · intro name cell rule kind target
    exact nested rule (Or.inl (Graph.leads_of_target? kind target))
  · intro callback found state under
    have runs : ∀ next, (callback.program setup.text i).Runs next →
        setup.graph.Calls pattern next :=
      fun next runs => Or.inr ⟨callback, setup.text, i, found, runs⟩
    constructor
    · exact runProgram_grows inside (lawful pattern callback .refl found)
        (fun next asked index reached under => (calls next (runs next asked) index reached under).1)
        state under
    · exact fun error failed => runProgram_blamed found
        (fun next asked => calls next (runs next asked)) under failed

/-- A call that is refused changes nothing. -/
theorem refuse_isolated (setup : Setup) (pattern : PatternId) (index : Nat) (state : MatchState) :
    Isolated state (answerOf (refuse setup index state)) (stateOf (refuse setup index state)) ∧
    ∀ error, answerOf (refuse setup index state) = .error error →
      setup.graph.Blamed setup.text pattern error := by
  refine ⟨.failed ⟨rfl, .refl _, rfl, rfl⟩, fun error failed expected actual same => ?_⟩
  cases failed
  cases same

/-- Every pattern call inside another one is isolated. -/
theorem call_isolated (setup : Setup) (room : Nat) {pattern : PatternId}
    (lawful : setup.graph.Lawful setup.text pattern) (index : Nat) {state : MatchState}
    (under : 0 < state.depth) :
    Isolated state (answerOf (call setup room pattern index state))
      (stateOf (call setup room pattern index state)) ∧
    ∀ error, answerOf (call setup room pattern index state) = .error error →
      setup.graph.Blamed setup.text pattern error := by
  induction room generalizing pattern index state with
  | zero => exact refuse_isolated setup pattern index state
  | succ room inductionHypothesis =>
      simp only [call]
      split
      · exact refuse_isolated setup pattern index state
      · have grows := matchKind_isolated (Nat.min_le_right index setup.text.length) lawful
          fun next step index state under => inductionHypothesis (lawful.of_calls step) index under
        obtain ⟨left, settled, isolated, faults⟩ := guarded_isolated grows state
        have stillUnder : 0 < left.depth := isolated.extends.depth.symm ▸ under
        rw [settled, MatchState.settle_of_pos stillUnder]
        refine ⟨isolated, fun error failed => ?_⟩
        obtain ⟨cause, blamed, same⟩ := faults error failed
        rw [same]
        exact blamed.inPattern _

end Matching

/-! ## Matches from the outside -/

namespace MatchState

@[simp] theorem bindings_settle (state : MatchState) : state.settle.bindings = state.bindings := by
  unfold settle
  split <;> rfl

@[simp] theorem entries_settle (state : MatchState) (stack : String) :
    state.settle.stackTable.entries stack = state.stackTable.entries stack := by
  unfold settle
  split <;> rfl

@[simp] theorem depth_settle (state : MatchState) : state.settle.depth = state.depth := by
  unfold settle
  split <;> rfl

@[simp] theorem options_settle (state : MatchState) : state.settle.options = state.options := by
  unfold settle
  split <;> rfl

/-- No change can be taken back once the outermost call is settled. -/
theorem journal_settle_of_eq_zero {state : MatchState} (outermost : state.depth = 0) :
    state.settle.stackTable.journal = [] := by
  simp [settle, outermost, StackTable.commit]

end MatchState

/-- What a match may leave behind, given what it found. -/
structure MatchRun.Isolates (run : MatchRun) (input : Input) (context : Context) : Prop where
  text : run.input.text = input.text
  depth : run.context.depth = context.depth
  /-- The trace options in effect are part of the settings. -/
  config : run.context.config = context.config
  bindings (noMatch : ∀ m, run.result ≠ .ok (some m)) : run.input.bindings = input.bindings
  entries (noMatch : ∀ m, run.result ≠ .ok (some m)) (stack : String) :
    run.context.stackTable.entries stack = context.stackTable.entries stack
  journal (noMatch : ∀ m, run.result ≠ .ok (some m)) (nested : 0 < context.depth) :
    run.context.stackTable.journal = context.stackTable.journal
  /-- The older bindings stay below those that a match has added. -/
  addedBindings {m : Match} (found : run.result = .ok (some m)) :
    input.bindings.newestFirst <:+ run.input.bindings.newestFirst
  addedChanges {m : Match} (found : run.result = .ok (some m)) (nested : 0 < context.depth) :
    context.stackTable.journal <:+ run.context.stackTable.journal
  settled (outermost : context.depth = 0) (room : 0 < context.config.limit) :
    run.context.stackTable.journal = []

namespace MatchRun

variable {input : Input} {context : Context} {answer : Except MatchError (Option Match)}
  {left : MatchState}

/-- A call that was not refused isolates the match, also if it is the outermost one. -/
theorem isolates_of_isolated (isolated : Isolated (context.state input) answer left) :
    (ofState answer input context left.settle).Isolates input context := by
  have restored (noMatch : ∀ m, answer ≠ .ok (some m)) : left.Restores (context.state input) := by
    cases isolated with
    | found => exact absurd rfl (noMatch _)
    | missed restored => exact restored
    | failed restored => exact restored
  have grown := isolated.extends
  have under (nested : 0 < context.depth) : left.settle = left :=
    MatchState.settle_of_pos (grown.depth.symm ▸ nested)
  constructor
  · rfl
  · exact (left.depth_settle).trans grown.depth
  · simp only [ofState, MatchState.options_settle, grown.options]
    rfl
  · intro noMatch
    exact (left.bindings_settle).trans (restored noMatch).bindings
  · intro noMatch stack
    exact (left.entries_settle stack).trans ((restored noMatch).stackTable.entries stack)
  · intro noMatch nested
    simp only [ofState, under nested]
    exact (restored noMatch).stackTable.journal
  · intro m found
    simp only [ofState, MatchState.bindings_settle]
    exact grown.bindings
  · intro m found nested
    simp only [ofState, under nested]
    exact grown.stackTable.journal
  · intro outermost room
    exact MatchState.journal_settle_of_eq_zero (grown.depth.trans outermost)

/-- A match that nests too deep to begin leaves everything as it was. -/
theorem isolates_of_refused {error : MatchError} (full : context.config.limit ≤ context.depth) :
    (ofState (.error error) input context (context.state input)).Isolates input context where
  text := rfl
  depth := rfl
  config := rfl
  bindings _ := rfl
  entries _ _ := rfl
  journal _ _ := rfl
  addedBindings found := nomatch found
  addedChanges found := nomatch found
  settled outermost room := absurd full (by omega)

end MatchRun

namespace Graph

variable {graph : Graph} {pattern : PatternId}

/-- What a match leaves behind, and where an underflow of the bindings comes from. -/
theorem matchIn_isolated {input : Input} (lawful : graph.Lawful input.text pattern) (index : Nat)
    (context : Context) :
    (graph.matchIn pattern input index context).Isolates input context ∧
      ∀ error, (graph.matchIn pattern input index context).result = .error error →
        graph.Blamed input.text pattern error := by
  rw [matchIn_eq]
  cases free : context.config.limit - context.depth with
  | zero =>
      have full : context.config.limit ≤ context.depth := Nat.sub_eq_zero_iff_le.mp free
      refine ⟨MatchRun.isolates_of_refused full, ?_⟩
      exact (Matching.refuse_isolated _ _ _ (context.state input)).2
  | succ room =>
      have notFull : ¬ (context.setup graph input.text).limit ≤ (context.state input).depth := by
        simp only [Context.setup, Context.state]
        omega
      have grows := Matching.matchKind_isolated
        (Nat.min_le_right index (context.setup graph input.text).text.length) lawful
        fun next step index state under =>
          Matching.call_isolated (context.setup graph input.text) room (lawful.of_calls step)
            index under
      obtain ⟨left, settled, isolated, faults⟩ :=
        Matching.guarded_isolated grows (context.state input)
      simp only [Matching.call, if_neg notFull]
      rw [settled]
      refine ⟨MatchRun.isolates_of_isolated isolated, fun error failed => ?_⟩
      obtain ⟨cause, blamed, same⟩ := faults error failed
      rw [same]
      exact blamed.inPattern _

/-- Every pattern call that the limit leaves room for has the answer of its body, with errors
attributed to the pattern. What the call takes back is never refused. -/
def AnswersAsBodies (setup : Setup) (pattern : PatternId) : Prop :=
  ∀ origin, setup.graph.Reaches pattern origin → ∀ room index entry, entry.depth < setup.limit →
    let i := min index setup.text.length
    Matching.answerOf (Matching.call setup (room + 1) origin index entry) =
      (Matching.answerOf (Matching.matchKind setup (Matching.call setup room) i
        (setup.graph.kind origin) (Matching.started setup origin i entry))).mapError
          (·.inPattern (setup.graph.name? origin))

theorem Lawful.answersAsBodies {setup : Setup} (lawful : setup.graph.Lawful setup.text pattern) :
    AnswersAsBodies setup pattern := by
  intro origin reaches room index entry free
  have below := lawful.of_reaches reaches
  have grows := Matching.matchKind_isolated (Nat.min_le_right index setup.text.length) below
    fun next step index state under =>
      Matching.call_isolated setup room (below.of_calls step) index under
  simp only [Matching.call, if_neg (Nat.not_le_of_lt free)]
  exact Matching.guarded_answer grows entry

/-- With lawful callbacks a match takes back all that did not lead to it. Underflows of the bindings
come from callbacks only: from a restore that is refused or from an error that one makes up. -/
theorem matchIn_isolates {input : Input} (lawful : graph.Lawful input.text pattern) (index : Nat)
    (context : Context) :
    let run := graph.matchIn pattern input index context
    run.Isolates input context ∧
      (∀ expected actual, run.result = .error (.backCaptureUnderflow expected actual) →
        graph.HasOrigin input.text pattern (.backCaptureUnderflow expected actual)) ∧
      AnswersAsBodies (context.setup graph input.text) pattern := by
  obtain ⟨isolates, blamed⟩ := matchIn_isolated lawful index context
  refine ⟨isolates, fun expected actual failed => ?_, lawful.answersAsBodies⟩
  exact blamed _ failed expected actual rfl

/-- A callback that binds and pushes before it rejects, beside a wrapped alternative. -/
def rejecting : Graph where
  slots := #[
    some { kind := .literal ['a'] },
    some { kind := .function (Script.callback {
      steps := [.bind "x" (.text "1"), .push "s" (.text "2"), .mark, .run 0 0, .pop "s", .rollback]
      verdict := .reject }) },
    some { kind := .transform 0 .captureValue },
    some { kind := .choice [1, 2] }]

theorem matchIn_isolates_rejecting :
    rejecting.Lawful (Text.ofString "ab") 3 ∧
      (rejecting.matchIn 3 (.ofString "ab") 0 {}).Isolates (.ofString "ab") {} := by
  have lawful : rejecting.Lawful (Text.ofString "ab") 3 := by
    intro origin callback _ found
    match origin with
    | 1 =>
        have same := Kind.function.inj found
        rw [← same]
        exact Script.lawful (by decide) _
    | 0 | 2 | 3 => cases found
    | origin + 4 => cases found
  exact ⟨lawful, (matchIn_isolates lawful 0 {}).1⟩

end Graph

end PegEngine
