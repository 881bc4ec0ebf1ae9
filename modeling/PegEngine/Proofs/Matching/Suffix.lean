import PegEngine.Proofs.Matching.Bounds
import PegEngine.Proofs.Matching.Displacement
import PegEngine.Proofs.Matching.Tracing

/-!
Contract: what stands before a position makes no difference to a match from there on.

A match on a text and the match on the rest of it go on in step: they call the same patterns, at
positions that stand for each other, and do the same to bindings, stacks and nesting.

Owns:
- `InStep`, for actions on the text and on the rest of it, with one rule for each operation that
  nodes are put together of;
- `Graph.PlaceFree`, and `matchKind_inStep` for all kinds that take no notice of their place;
- `guarded_inStep` and `call_inStep`, for whole pattern calls;
- `Graph.matchIn_drop`.

Does not own: functions from outside, which may look at anything.
-/

namespace PegEngine

/-! ## Actions in step -/

namespace Matching

variable {α β γ δ : Type}

/-- How an action on the text ends, given how its counterpart on the rest of it ends. -/
inductive EndsInStep (i : Nat) (related : α → β → Prop) :
    EStateM.Result MatchError MatchState α → EStateM.Result MatchError MatchState β → Prop where
  | ok {value : α} {movedValue : β} {state movedState : MatchState}
      (values : related value movedValue) (states : state.Agrees movedState) :
      EndsInStep i related (.ok value state) (.ok movedValue movedState)
  | error (error : MatchError) {state movedState : MatchState} (states : state.Agrees movedState) :
      EndsInStep i related (.error error state) (.error (error.later i) movedState)

theorem EndsInStep.unmoved {i : Nat} {related : α → β → Prop} {error : MatchError}
    {state movedState : MatchState} (aboutNone : error.later i = error)
    (states : state.Agrees movedState) :
    EndsInStep i related (.error error state) (.error error movedState) := by
  have ends : EndsInStep i related (.error error state) (.error (error.later i) movedState) :=
    .error error states
  rwa [aboutNone] at ends

/-- An action on the rest of a text from position `i` on, and its counterpart on the text. -/
def InStep (i : Nat) (related : α → β → Prop) (action : MatchM α) (moved : MatchM β) : Prop :=
  ∀ state movedState, state.Agrees movedState →
    EndsInStep i related (action state) (moved movedState)

namespace InStep

variable {i : Nat} {related : α → β → Prop} {later : γ → δ → Prop}

theorem pure {value : α} {movedValue : β} (values : related value movedValue) :
    InStep i related (Pure.pure value) (Pure.pure movedValue) :=
  fun _ _ states => .ok values states

theorem throw (error : MatchError) :
    InStep i related (MonadExcept.throw error) (MonadExcept.throw (error.later i)) :=
  fun _ _ states => .error error states

theorem bind {action : MatchM α} {moved : MatchM β} {next : α → MatchM γ} {movedNext : β → MatchM δ}
    (first : InStep i related action moved)
    (rest : ∀ value movedValue, related value movedValue →
      InStep i later (next value) (movedNext movedValue)) :
    InStep i later (action >>= next) (moved >>= movedNext) := by
  intro state movedState states
  have ends := first state movedState states
  rw [bind_apply, bind_apply]
  generalize action state = ended at ends
  generalize moved movedState = movedEnded at ends
  cases ends with
  | ok values reached => exact rest _ _ values _ _ reached
  | error error reached => exact .error error reached

/-- Actions that go by the bindings and the stacks. -/
theorem look {next : MatchState → MatchM α} {movedNext : MatchState → MatchM β}
    (rest : ∀ state movedState, state.bindings = movedState.bindings →
      state.stackTable = movedState.stackTable →
      InStep i related (next state) (movedNext movedState)) :
    InStep i related (get >>= next) (get >>= movedNext) :=
  fun state movedState states =>
    rest state movedState states.bindings states.stackTable state movedState states

/-- The same change on both sides, and the actions after it. -/
theorem change {change : MatchState → MatchState} {next : MatchM α} {movedNext : MatchM β}
    (keeps : ∀ state movedState : MatchState, state.Agrees movedState →
      (change state).Agrees (change movedState))
    (rest : InStep i related next movedNext) :
    InStep i related (modify change >>= fun _ => next) (modify change >>= fun _ => movedNext) :=
  fun _ _ states => rest _ _ (keeps _ _ states)

theorem rebind {next : MatchM α} {movedNext : MatchM β} (change : Bindings → Bindings)
    (rest : InStep i related next movedNext) :
    InStep i related
      (modify (fun state => { state with bindings := change state.bindings }) >>= fun _ => next)
      (modify (fun state => { state with bindings := change state.bindings }) >>= fun _ =>
        movedNext) :=
  .change (fun _ _ states =>
    ⟨congrArg change states.bindings, states.stackTable, states.depth⟩) rest

theorem restack {next : MatchM α} {movedNext : MatchM β} (change : StackTable → StackTable)
    (rest : InStep i related next movedNext) :
    InStep i related
      (modify (fun state => { state with stackTable := change state.stackTable }) >>= fun _ => next)
      (modify (fun state => { state with stackTable := change state.stackTable }) >>= fun _ =>
        movedNext) :=
  .change (fun _ _ states =>
    ⟨states.bindings, congrArg change states.stackTable, states.depth⟩) rest

theorem orThrow (result : Except MatchError α) :
    InStep i Eq (Matching.orThrow result) (Matching.orThrow (result.mapError (·.later i))) := by
  cases result with
  | ok value => exact .pure rfl
  | error error => exact .throw error

end InStep

/-! ## Nodes -/

section Nodes

variable {text : Text} {i k : Nat} {call moved : Caller} {body : PatternId}

/-- Calls of the pattern on the rest of the text and on the text are in step. -/
def CallsInStep (text : Text) (i : Nat) (call moved : Caller) (pattern : PatternId) : Prop :=
  ∀ index, InStep i (OutcomeMoved text i) (call pattern index) (moved pattern (i + index))

theorem matchSequence_inStep {items : List PatternId}
    (calls : ∀ item ∈ items, CallsInStep text i call moved item) {soFar movedSoFar : Match}
    (same : soFar.Moved text i movedSoFar) :
    InStep i (OutcomeMoved text i) (matchSequence call items soFar)
      (matchSequence moved items movedSoFar) := by
  induction items generalizing soFar movedSoFar with
  | nil => exact .pure (.some same)
  | cons item rest inductionHypothesis =>
      unfold matchSequence
      rw [same.stop]
      refine .bind (calls item (by simp) soFar.stop) fun outcome movedOutcome outcomes => ?_
      cases outcomes with
      | none => exact .pure .none
      | some part =>
          exact inductionHypothesis (fun next member => calls next (by simp [member]))
            (same.append part)

theorem matchChoice_inStep {items : List PatternId}
    (calls : ∀ item ∈ items, CallsInStep text i call moved item) :
    InStep i (OutcomeMoved text i) (matchChoice call k items)
      (matchChoice moved (i + k) items) := by
  induction items with
  | nil => exact .pure .none
  | cons item rest inductionHypothesis =>
      refine .bind (calls item (by simp) k) fun outcome movedOutcome outcomes => ?_
      cases outcomes with
      | none => exact inductionHypothesis fun next member => calls next (by simp [member])
      | some same => exact .pure (.some same)

/-- The same number of iterations, and the same match. -/
def CountMoved (text : Text) (i : Nat) (counted moved : Nat × Match) : Prop :=
  moved.1 = counted.1 ∧ counted.2.Moved text i moved.2

theorem matchUpTo_inStep (calls : CallsInStep text i call moved body) (most done : Nat)
    {soFar movedSoFar : Match} (same : soFar.Moved text i movedSoFar) :
    InStep i (CountMoved text i) (matchUpTo call body most done soFar)
      (matchUpTo moved body most done movedSoFar) := by
  induction most generalizing done soFar movedSoFar with
  | zero => exact .pure ⟨rfl, same⟩
  | succ most inductionHypothesis =>
      unfold matchUpTo
      rw [same.stop]
      refine .bind (calls soFar.stop) fun outcome movedOutcome outcomes => ?_
      cases outcomes with
      | none => exact .pure ⟨rfl, same⟩
      | some part => exact inductionHypothesis _ (same.append part)

theorem matchAtLeast_inStep (calls : CallsInStep text i call moved body)
    (minimum left done : Nat) {soFar movedSoFar : Match} (same : soFar.Moved text i movedSoFar) :
    InStep i (OutcomeMoved text i) (matchAtLeast call body minimum left done soFar)
      (matchAtLeast moved body minimum left done movedSoFar) := by
  induction left generalizing done soFar movedSoFar with
  | zero =>
      unfold matchAtLeast
      rw [same.stop]
      refine .bind (calls soFar.stop) fun outcome movedOutcome outcomes => ?_
      cases outcomes with
      | none => exact .pure (.ite Iff.rfl (.some same))
      | some part =>
          dsimp only
          split <;> split <;> exact .pure (.some (same.append part))
  | succ left inductionHypothesis =>
      unfold matchAtLeast
      rw [same.stop]
      refine .bind (calls soFar.stop) fun outcome movedOutcome outcomes => ?_
      cases outcomes with
      | none => exact .pure (.ite Iff.rfl (.some same))
      | @some m movedPart part =>
          -- An iteration has no width on one side exactly if it has none on the other.
          have appended := same.append part
          dsimp only
          rw [part.stop]
          by_cases still : m.stop = soFar.stop
          · rw [if_pos still, if_pos (congrArg (i + ·) still)]
            exact .pure (.some appended)
          · rw [if_neg still, if_neg fun shifted => still (Nat.add_left_cancel shifted)]
            exact inductionHypothesis _ appended

theorem matchRepetition_inStep (calls : CallsInStep text i call moved body)
    (count : RepeatCount) :
    InStep i (OutcomeMoved text i) (matchRepetition (text.drop i) call k body count)
      (matchRepetition text moved (i + k) body count) := by
  have nothing := Match.Moved.matchOver text i k k
  cases count with
  | atLeast minimum =>
      unfold matchRepetition
      rw [Text.length_drop, Nat.sub_sub]
      exact matchAtLeast_inStep calls _ _ _ nothing
  | atMost maximum =>
      exact .bind (matchUpTo_inStep calls _ _ nothing) fun _ _ counts => .pure (.some counts.2)
  | exactly count =>
      refine .bind (matchUpTo_inStep calls _ _ nothing) fun counted movedCounted counts => ?_
      refine .pure (.ite ?_ (.some counts.2))
      rw [counts.1]

theorem matchReference_inStep {graph : Graph} {name : String} {cell : CellId}
    (calls : ∀ rule, graph.target? cell = some rule → CallsInStep text i call moved rule) :
    InStep i (OutcomeMoved text i) (matchReference graph call k name cell)
      (matchReference graph moved (i + k) name cell) := by
  unfold matchReference
  split
  · next rule target => exact calls rule target k
  · exact .change (fun _ _ states => ⟨states.bindings, states.stackTable, states.depth⟩)
      (.pure .none)

theorem matchBackReference_inStep (inside : i ≤ text.length) (name : String) :
    InStep i (OutcomeMoved text i) (matchBackReference (text.drop i) k name)
      (matchBackReference text (i + k) name) := by
  refine .look fun state movedState sameBindings _ => ?_
  rw [sameBindings]
  split
  · exact .throw (.unboundBackCapture name k none)
  · exact .pure (literalAt_moved inside _)

theorem matchBackCapture_inStep (calls : CallsInStep text i call moved body) (name : String)
    (index : Option Int) :
    InStep i (OutcomeMoved text i) (matchBackCapture call k name body index)
      (matchBackCapture moved (i + k) name body index) := by
  refine .bind (calls k) fun outcome movedOutcome outcomes => ?_
  cases outcomes with
  | none => exact .pure .none
  | some same =>
      dsimp only
      rw [boundValue_moved same]
      refine .bind (.orThrow _) fun value movedValue sameValue => ?_
      rw [sameValue]
      exact .rebind (·.bind name movedValue) (.pure (.some same))

theorem matchStackCapture_inStep (calls : CallsInStep text i call moved body) (stack : String) :
    InStep i (OutcomeMoved text i) (matchStackCapture call k stack body)
      (matchStackCapture moved (i + k) stack body) := by
  refine .bind (calls k) fun outcome movedOutcome outcomes => ?_
  cases outcomes with
  | none => exact .pure .none
  | @some m _ same =>
      dsimp only
      rw [same.captures]
      exact .restack (·.pushAll stack m.captures) (.pure (.some (same.recapture [])))

theorem matchStackPop_inStep (stack : String) (count : Nat) :
    InStep i (OutcomeMoved text i) (matchStackPop (text.drop i) k stack count)
      (matchStackPop text (i + k) stack count) := by
  refine .look fun state movedState _ sameStacks => ?_
  rw [sameStacks, popMany_later]
  refine .bind (.orThrow _) fun popped movedPopped samePopped => ?_
  rw [samePopped]
  exact .restack (fun _ => movedPopped.2) (.pure (matchOver_moved k k))

end Nodes

end Matching

/-- What the kind matches or captures depends on where it stands in its line or in the text. -/
def Kind.isPlaced : Kind → Bool
  | .startOfLine | .endOfLine | .position | .line | .column => true
  | _ => false

/-- Nothing that goes by its place can come up in a match of `pattern`. -/
def Graph.PlaceFree (graph : Graph) (pattern : PatternId) : Prop :=
  ∀ origin, graph.Reaches pattern origin → (graph.kind origin).isPlaced = false

theorem Graph.PlaceFree.of_calls {graph : Graph} {pattern next : PatternId}
    (placeFree : graph.PlaceFree pattern) (step : graph.Calls pattern next) :
    graph.PlaceFree next :=
  fun origin reaches => placeFree origin (.of_calls step reaches)

/-- The same setup for the rest of the text from position `i` on. -/
def Setup.drop (setup : Setup) (i : Nat) : Setup :=
  { setup with text := setup.text.drop i }

namespace Matching

/-- A kind that takes no notice of its place is matched in step if its calls are. -/
theorem matchKind_inStep {setup : Setup} {i k : Nat} {call moved : Caller} {pattern : PatternId}
    (inside : i ≤ setup.text.length) (own : (setup.graph.kind pattern).isForeign = false)
    (unplaced : (setup.graph.kind pattern).isPlaced = false)
    (calls : ∀ next, setup.graph.Calls pattern next → CallsInStep setup.text i call moved next) :
    InStep i (OutcomeMoved setup.text i)
      (matchKind (setup.drop i) call k (setup.graph.kind pattern))
      (matchKind setup moved (i + k) (setup.graph.kind pattern)) := by
  have part : ∀ child ∈ (setup.graph.kind pattern).children,
      CallsInStep setup.text i call moved child :=
    fun child member => calls child (Or.inl (Or.inl member))
  unfold matchKind
  generalize found : setup.graph.kind pattern = kind at own unplaced part ⊢
  cases kind with
  | function | transform => cases own
  | startOfLine | endOfLine | position | line | column => cases unplaced
  | literal chars => exact .pure (literalAt_moved inside chars)
  | charSet set => exact .pure (charAt_moved set)
  | chars count => exact .pure (charsAt_moved count)
  | rest count => exact .pure (restAt_moved inside count)
  | constant accepts => exact .pure (zeroWidthIf_moved accepts)
  | value value => exact .pure (zeroWidthValue_moved value)
  | capture body =>
      refine .bind (part body (by simp [Kind.children]) k) fun _ _ outcomes =>
        .pure (outcomes.map fun m movedMatch same => ?_)
      unfold captureText
      rw [same.value, same.captures]
      exact same.recapture _
  | group body dropEmpty =>
      refine .bind (part body (by simp [Kind.children]) k) fun _ _ outcomes =>
        .pure (outcomes.map fun m movedMatch same => ?_)
      unfold collectCaptures
      rw [same.captures]
      split
      · exact same
      · exact same.recapture _
  | backReference name => exact matchBackReference_inStep inside name
  | backCapture name body index =>
      exact matchBackCapture_inStep (part body (by simp [Kind.children])) name index
  | stackCapture stack body =>
      exact matchStackCapture_inStep (part body (by simp [Kind.children])) stack
  | stackPop stack count => exact matchStackPop_inStep stack count
  | stackMatch stack index expected =>
      refine .look fun state movedState _ sameStacks => ?_
      rw [sameStacks]
      exact .pure (stackEntryAt_moved inside _ expected)
  | stackSize stack expected =>
      refine .look fun state movedState _ sameStacks => ?_
      rw [sameStacks]
      exact .pure (stackSizeAt_moved _ expected)
  | sequence items => exact matchSequence_inStep part (.matchOver setup.text i k k)
  | choice items => exact matchChoice_inStep part
  | negative body =>
      refine .bind (part body (by simp [Kind.children]) k) fun _ _ outcomes => ?_
      rw [outcomes.isNone]
      exact .pure (zeroWidthIf_moved _)
  | positive body =>
      refine .bind (part body (by simp [Kind.children]) k) fun _ _ outcomes =>
        .pure (outcomes.map fun m movedMatch same => ⟨same.source, ?_⟩)
      rw [same.later]
      rfl
  | repetition body count =>
      exact matchRepetition_inStep (part body (by simp [Kind.children])) count
  | reference name cell =>
      exact matchReference_inStep fun rule target =>
        calls rule (Or.inl (Graph.leads_of_target? found target))
  | select body index default =>
      refine .bind (part body (by simp [Kind.children]) k) fun _ _ outcomes =>
        .pure (outcomes.map fun m movedMatch same => ⟨rfl, ?_⟩)
      rw [same.later]
      rfl

/-! ## Pattern calls -/

/-- Taking back ends with no error that is about a position. -/
theorem later_of_backtrack {entry state : MatchState} {error : MatchError}
    (refused : (entry.backtrack state).1 = .error error) (i : Nat) : error.later i = error := by
  unfold MatchState.backtrack at refused
  dsimp only at refused
  split at refused
  · cases refused
  · next restored =>
      cases refused
      exact Bindings.later_of_restore restored i

theorem guarded_inStep {setup : Setup} {pattern : PatternId} {i k : Nat}
    {body moved : MatchM (Option Match)}
    (bodies : InStep i (OutcomeMoved setup.text i) body moved) :
    InStep i (OutcomeMoved setup.text i) (guarded (setup.drop i) pattern k body)
      (guarded setup pattern (i + k) moved) := by
  intro entry movedEntry entries
  have entered : (entry.enter (setup.graph.node pattern)).Agrees
      (movedEntry.enter (setup.graph.node pattern)) :=
    ⟨entries.bindings, entries.stackTable, congrArg (· + 1) entries.depth⟩
  have reported := (report_agrees (setup.drop i) pattern k .before _).trans
    (entered.trans (report_agrees setup pattern (i + k) .before _).symm)
  have ends := bodies _ _ reported
  have sameGraph : (setup.drop i).graph = setup.graph := rfl
  unfold guarded
  dsimp only
  rw [sameGraph]
  generalize body _ = ended at ends
  generalize moved _ = movedEnded at ends
  cases ends with
  | @ok outcome movedOutcome reached movedReached outcomes states =>
      have left := @leave_agrees entry movedEntry _ _ (setup.graph.node pattern)
        (setup.graph.node pattern)
        ((report_agrees (setup.drop i) pattern k (.after outcome) reached).trans
          (states.trans
            (report_agrees setup pattern (i + k) (.after movedOutcome) movedReached).symm))
      cases outcomes with
      | some same => exact .ok (.some same) (settle_agrees left)
      | none =>
          -- Both sides take back by the same lengths. An error of it is the same on both sides, so it
          -- must not be about a position.
          obtain ⟨sameEnd, restored⟩ := backtrack_agrees entries left
          have aboutNone := @later_of_backtrack entry
            (entry.leave (setup.graph.node pattern)
              (reached.report (setup.drop i) pattern k (.after none)))
          dsimp only
          generalize entry.backtrack _ = taken at sameEnd restored aboutNone
          generalize movedEntry.backtrack _ = movedTaken at sameEnd restored
          obtain ⟨result, state⟩ := taken
          obtain ⟨movedResult, movedState⟩ := movedTaken
          cases sameEnd
          cases result with
          | ok _ => exact .ok .none (settle_agrees restored)
          | error error =>
              have aboutNone : (error.inPattern (setup.graph.node pattern).name).later i =
                  error.inPattern (setup.graph.node pattern).name := by
                rw [← MatchError.inPattern_later, aboutNone rfl]
              exact .unmoved aboutNone (settle_agrees restored)
  | @error error reached movedReached states =>
      have left := @leave_agrees entry movedEntry _ _ (setup.graph.node pattern)
        (setup.graph.node pattern) states
      dsimp only
      rw [MatchError.inPattern_later]
      exact .error _ (settle_agrees (backtrack_agrees entries left).2)

theorem refuse_inStep {setup : Setup} {i : Nat} (inside : i ≤ setup.text.length) (index : Nat) :
    InStep i (OutcomeMoved setup.text i) (refuse (setup.drop i) index)
      (refuse setup (i + index)) := by
  unfold refuse
  rw [Text.min_length_drop inside]
  exact .throw (.recursionLimit setup.limit (min index (setup.text.drop i).length))

/-- Calls of a pattern that comes to nothing from outside and nothing that goes by its place. -/
theorem call_inStep {setup : Setup} {i : Nat} (inside : i ≤ setup.text.length) (room : Nat)
    {pattern : PatternId} (selfContained : setup.graph.SelfContained pattern)
    (placeFree : setup.graph.PlaceFree pattern) :
    CallsInStep setup.text i (call (setup.drop i) room) (call setup room) pattern := by
  induction room generalizing pattern with
  | zero => exact refuse_inStep inside
  | succ room inductionHypothesis =>
      intro index entry movedEntry entries
      have sameLimit : (setup.drop i).limit = setup.limit := rfl
      simp only [call]
      rw [sameLimit, entries.depth]
      split
      · exact refuse_inStep inside index entry movedEntry entries
      · rw [Text.min_length_drop inside]
        refine guarded_inStep (matchKind_inStep inside (selfContained pattern .refl)
          (placeFree pattern .refl) fun next step => ?_) entry movedEntry entries
        exact inductionHypothesis (selfContained.of_calls step) (placeFree.of_calls step)

end Matching

/-- The rest of an input from position `i` on, with the same bindings. -/
def Input.drop (input : Input) (i : Nat) : Input :=
  { input with text := input.text.drop i }

namespace Graph

/-- Nothing before position `i` matters: a match on the text from `i` on ends as the match on the
rest of it, with positions moved, and leaves the same bindings and stacks. -/
theorem matchIn_drop {graph : Graph} {pattern : PatternId}
    (selfContained : graph.SelfContained pattern) (placeFree : graph.PlaceFree pattern)
    {input : Input} {i : Nat} (inside : i ≤ input.text.length) (index : Nat) (context : Context) :
    let rest := graph.matchIn pattern (input.drop i) index context
    let whole := graph.matchIn pattern input (i + index) context
    whole.result = (rest.result.map (·.map (·.later input.text i))).mapError (·.later i) ∧
      (∀ m, rest.result = .ok (some m) → (m.later input.text i).value = m.value) ∧
      whole.input.bindings = rest.input.bindings ∧ rest.context.Agrees whole.context := by
  have states : (context.state (input.drop i)).Agrees (context.state input) := ⟨rfl, rfl, rfl⟩
  have inStep := @Matching.call_inStep (context.setup graph input.text) i inside
    (context.config.limit - context.depth) pattern selfContained placeFree
  have ends := inStep index _ _ states
  have sameSetup : (context.setup graph input.text).drop i =
      context.setup graph (input.drop i).text := rfl
  rw [sameSetup] at ends
  intro rest whole
  simp only [rest, whole, matchIn_eq]
  generalize Matching.call (context.setup graph (input.drop i).text) _ pattern index _ = ended
    at ends
  generalize Matching.call (context.setup graph input.text) _ pattern _ _ = movedEnded at ends
  cases ends with
  | @ok outcome movedOutcome reached movedReached outcomes states =>
      refine ⟨?_, fun m found => ?_, states.bindings.symm, rfl, states.stackTable, states.depth⟩
      · cases outcomes with
        | none => rfl
        | some same =>
            rw [same.later]
            rfl
      · cases outcomes with
        | none => cases found
        | some same =>
            cases found
            exact Match.value_later same.source
  | error error states =>
      refine ⟨rfl, fun m found => ?_, states.bindings.symm, rfl, states.stackTable, states.depth⟩
      cases found

/-- A pair that is bound and put on a stack, and after it, up to the end, the same pair again, as
the text of the binding and as that of the stack entry in turn. -/
def pairs : Graph where
  slots := #[
    some { kind := .chars 2 },
    some { kind := .capture 0 },
    some { kind := .stackCapture "pairs" 1 },
    some { kind := .backCapture "pair" 2 none },
    some { kind := .backReference "pair" },
    some { kind := .stackMatch "pairs" (-1) none },
    some { kind := .sequence [4, 5] },
    some { kind := .repetition 6 (.atLeast 1) },
    some { kind := .rest 1 },
    some { kind := .sequence [3, 7, 8], name := some "pairs" }]

theorem matchIn_drop_pairs :
    let input := Input.ofString "--ababab"
    pairs.SelfContained 9 ∧ pairs.PlaceFree 9 ∧ 2 ≤ input.text.length ∧
      (pairs.matchIn 9 (input.drop 2) 0 {}).result.toOption =
        some (some ((input.text.drop 2).matchOver 0 6)) ∧
      (pairs.matchIn 9 input 2 {}).result.toOption = some (some (input.text.matchOver 2 8)) := by
  intro input
  have selfContained : pairs.SelfContained 9 := by
    intro origin _
    match origin with
    | 0 | 1 | 2 | 3 | 4 | 5 | 6 | 7 | 8 | 9 => rfl
    | origin + 10 => rfl
  have placeFree : pairs.PlaceFree 9 := by
    intro origin _
    match origin with
    | 0 | 1 | 2 | 3 | 4 | 5 | 6 | 7 | 8 | 9 => rfl
    | origin + 10 => rfl
  have inside : 2 ≤ input.text.length := by decide
  have found : (pairs.matchIn 9 (input.drop 2) 0 {}).result.toOption =
      some (some ((input.text.drop 2).matchOver 0 6)) := by decide +kernel
  refine ⟨selfContained, placeFree, inside, found, ?_⟩
  have moved := (matchIn_drop selfContained placeFree inside 0 {}).1
  rw [moved]
  cases ended : (pairs.matchIn 9 (input.drop 2) 0 {}).result with
  | ok outcome =>
      rw [ended] at found
      cases found
      rfl
  | error error =>
      rw [ended] at found
      cases found

end Graph

end PegEngine
