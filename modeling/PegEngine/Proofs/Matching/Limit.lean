import PegEngine.Proofs.Callback.Conduct
import PegEngine.Proofs.Matching.Congruence
import PegEngine.Proofs.Matching.Extension

/-!
Contract: what the recursion limit does to a match.

A call that would nest too deep is refused with an error. The error ends the calls around it in
turn, whatever the patterns are, so a match that ends otherwise has had no call refused, and goes on
in the same way under every larger limit. Callbacks are part of this as long as they do not go on
after such an error of a match that they run.

Owns:
- `Program.PassesLimit`, what is asked of callbacks, and that scripts are so;
- `Matching.SameBelowLimit`, a relation that nodes keep, for two actions that are the same unless
  the first one ends at the limit;
- `callElse`, calls in which something else takes the place of all that ends at the limit;
- `Graph.matchIn_below_limit`.
-/

namespace PegEngine

/-- The error is that pattern calls were nested too deep. -/
def MatchError.isLimit : MatchError → Bool
  | .recursionLimit _ _ => true
  | _ => false

theorem MatchError.isLimit_inPattern (name : Option String) (error : MatchError) :
    (error.inPattern name).isLimit = error.isLimit := by
  cases error <;> rfl

/-- Patterns without a name hand an error on as it is. -/
theorem MatchError.inPattern_none (error : MatchError) : error.inPattern none = error := by
  cases error <;> simp [inPattern]

/-- The answer is that pattern calls were nested too deep. -/
def atLimit {α : Type} : Except MatchError α → Bool
  | .ok _ => false
  | .error error => error.isLimit

/-! ## Callbacks -/

namespace Program

/-- However it goes on, the program ends at a limit. -/
def GivesUp : Program → Prop
  | .finish _ => False
  | .fail error => error.isLimit
  | .inspect next => ∀ view, (next view).GivesUp
  | .bind _ _ next | .push _ _ next | .commit next | .rollback _ next => next.GivesUp
  | .restore _ next => ∀ answer, (next answer).GivesUp
  | .pop _ next => ∀ value, (next value).GivesUp
  | .popMany _ _ _ next => ∀ answer, (next answer).GivesUp
  | .run _ _ next => ∀ answer, (next answer).GivesUp

/-- The program ends at a limit when a match that it runs does. It may clean up before. -/
def PassesLimit : Program → Prop
  | .finish _ | .fail _ => True
  | .inspect next => ∀ view, (next view).PassesLimit
  | .bind _ _ next | .push _ _ next | .commit next | .rollback _ next => next.PassesLimit
  | .restore _ next => ∀ answer, (next answer).PassesLimit
  | .pop _ next => ∀ value, (next value).PassesLimit
  | .popMany _ _ _ next => ∀ answer, (next answer).PassesLimit
  | .run _ _ next => ∀ answer, (next answer).PassesLimit ∧ (atLimit answer → (next answer).GivesUp)

end Program

/-- The callback passes on the limit wherever it is called in the text. -/
def Callback.PassesLimit (text : Text) (callback : Callback) : Prop :=
  ∀ i ≤ text.length, (callback.program text i).PassesLimit

/-- Every callback that `pattern` comes to passes on the limit. -/
def Graph.PassesLimit (graph : Graph) (text : Text) (pattern : PatternId) : Prop :=
  ∀ origin callback, graph.Reaches pattern origin → graph.kind origin = .function callback →
    callback.PassesLimit text

theorem Graph.PassesLimit.of_calls {graph : Graph} {text : Text} {pattern next : PatternId}
    (passes : graph.PassesLimit text pattern) (step : graph.Calls pattern next) :
    graph.PassesLimit text next :=
  fun origin callback reaches => passes origin callback (.of_calls step reaches)

namespace Script

theorem closed_passesLimit (script : Script) : script.Closed Program.PassesLimit where
  finish _ := trivial
  state _ _ _ := trivial
  bound _ _ := trivial
  mark rest _ := rest _
  bind rest := rest
  restore _ rest := holds_orFail (fun _ => trivial) fun _ => rest
  push rest := rest
  pop rest _ := rest
  popMany rest := holds_orFail (fun _ => trivial) fun _ => rest
  commit rest := rest
  rollback rest := rest
  run rest answer := by
    cases answer with
    | ok outcome => exact ⟨rest outcome, nofun⟩
    | error error => exact ⟨trivial, fun limited => limited⟩

/-- Scripts end with the first error that they meet. -/
theorem passesLimit (script : Script) (text : Text) : script.callback.PassesLimit text :=
  fun i _ => script.closed_passesLimit.program text i

end Script

namespace Matching

variable {α : Type}

/-- The second action is the same as the first one, unless the first one ends at the limit. -/
def SameBelowLimit (action other : MatchM α) : Prop :=
  ∀ state, atLimit (answerOf (action state)) ∨ other state = action state

theorem congruence_sameBelowLimit : Congruence SameBelowLimit where
  pure _ := fun _ => Or.inr rfl
  throw _ := fun _ => Or.inr rfl
  bind := by
    intro α β action other next otherNext first rest state
    rw [bind_apply, bind_apply]
    rcases first state with limited | same
    · left
      cases ended : action state with
      | ok value reached =>
          rw [ended] at limited
          cases limited
      | error error reached =>
          rw [ended] at limited
          exact limited
    · rw [same]
      cases action state with
      | ok value reached => exact rest value reached
      | error error reached => exact Or.inr rfl
  look rest := fun state => rest state state rfl rfl state
  rebind _ := fun _ => Or.inr rfl
  restack _ := fun _ => Or.inr rfl
  addTrace _ := fun _ => Or.inr rfl

theorem runProgram_givesUp (call : Caller) {program : Program} (givesUp : program.GivesUp)
    (state : MatchState) : atLimit (answerOf (runProgram call program state)) := by
  induction program generalizing state with
  | finish => cases givesUp
  | fail => exact givesUp
  | inspect next inductionHypothesis => exact inductionHypothesis _ (givesUp _) _
  | bind _ _ next inductionHypothesis | push _ _ next inductionHypothesis
  | commit next inductionHypothesis | rollback _ next inductionHypothesis =>
      exact inductionHypothesis givesUp _
  | pop stack next inductionHypothesis => exact inductionHypothesis _ (givesUp _) _
  | restore number next inductionHypothesis =>
      simp only [runProgram]
      split <;> exact inductionHypothesis _ (givesUp _) _
  | popMany stack count position next inductionHypothesis =>
      simp only [runProgram]
      split <;> exact inductionHypothesis _ (givesUp _) _
  | run pattern index next inductionHypothesis =>
      simp only [runProgram]
      split <;> exact inductionHypothesis _ (givesUp _) _

/-- A callback that passes on the limit goes by its calls as a node does. -/
theorem runProgram_sameBelowLimit {call other : Caller} {program : Program}
    (passes : program.PassesLimit)
    (calls : ∀ pattern, program.Runs pattern → ∀ index,
      SameBelowLimit (call pattern index) (other pattern index)) :
    SameBelowLimit (runProgram call program) (runProgram other program) := by
  intro state
  induction program generalizing state with
  | finish | fail => exact Or.inr rfl
  | inspect next inductionHypothesis =>
      exact inductionHypothesis _ (passes _) (fun pattern runs => calls pattern ⟨_, runs⟩) _
  | bind _ _ next inductionHypothesis | push _ _ next inductionHypothesis
  | commit next inductionHypothesis | rollback _ next inductionHypothesis =>
      exact inductionHypothesis passes calls _
  | pop stack next inductionHypothesis =>
      exact inductionHypothesis _ (passes _) (fun pattern runs => calls pattern ⟨_, runs⟩) _
  | restore number next inductionHypothesis =>
      simp only [runProgram]
      split <;>
        exact inductionHypothesis _ (passes _) (fun pattern runs => calls pattern ⟨_, runs⟩) _
  | popMany stack count position next inductionHypothesis =>
      simp only [runProgram]
      split <;>
        exact inductionHypothesis _ (passes _) (fun pattern runs => calls pattern ⟨_, runs⟩) _
  | run pattern index next inductionHypothesis =>
      have goOn := fun answer => inductionHypothesis answer (passes answer).1
        fun pattern runs => calls pattern (Or.inr ⟨_, runs⟩)
      simp only [runProgram]
      rcases calls pattern (Or.inl rfl) index state with limited | same
      · left
        cases ended : call pattern index state with
        | ok outcome reached =>
            rw [ended] at limited
            cases limited
        | error error reached =>
            rw [ended] at limited
            exact runProgram_givesUp call ((passes _).2 limited) reached
      · rw [same]
        cases call pattern index state with
        | ok outcome reached => exact goOn (.ok outcome) reached
        | error error reached => exact goOn (.error error) reached

/-! ## Calls -/

/-- A pattern call passes on that its body ended at the limit. -/
theorem guarded_sameBelowLimit {setup : Setup} {pattern : PatternId} {i : Nat}
    {body other : MatchM (Option Match)} (bodies : SameBelowLimit body other) :
    SameBelowLimit (guarded setup pattern i body) (guarded setup pattern i other) := by
  intro entry
  unfold guarded
  dsimp only
  rcases bodies ((entry.enter (setup.graph.node pattern)).report setup pattern i .before) with
    limited | same
  · left
    generalize body _ = ended at limited ⊢
    cases ended with
    | ok outcome reached => cases limited
    | error error reached => exact (error.isLimit_inPattern _).trans limited
  · rw [same]
    exact Or.inr rfl

/-- A call of a pattern that makes its own calls by `below`. -/
def callOver (setup : Setup) (below : Caller) : Caller := fun pattern index entry =>
  if setup.limit ≤ entry.depth then
    refuse setup index entry
  else
    let i := min index setup.text.length
    guarded setup pattern i (matchKind setup below i (setup.graph.kind pattern)) entry

theorem call_succ (setup : Setup) (room : Nat) :
    call setup (room + 1) = callOver setup (call setup room) := rfl

/-- Calls under a limit and under a larger one are the same, unless the first ends at its limit, if
those that they make are. -/
theorem callOver_sameBelowLimit {setup : Setup} {more : Nat} (larger : setup.limit ≤ more)
    {pattern : PatternId} (passes : setup.graph.PassesLimit setup.text pattern)
    {below other : Caller}
    (calls : ∀ next, setup.graph.Calls pattern next → ∀ index,
      SameBelowLimit (below next index) (other next index)) (index : Nat) :
    SameBelowLimit (callOver setup below pattern index)
      (callOver { setup with limit := more } other pattern index) := by
  intro entry
  unfold callOver
  by_cases deep : setup.limit ≤ entry.depth
  · rw [if_pos deep]
    exact Or.inl rfl
  · have shallow : ¬ more ≤ entry.depth := by omega
    rw [if_neg deep, if_neg shallow]
    refine guarded_sameBelowLimit ?_ entry
    refine congruence_sameBelowLimit.matchKind rfl (fun _ _ _ => rfl) calls fun callback found => ?_
    refine runProgram_sameBelowLimit (passes pattern callback .refl found _ (Nat.min_le_right ..)) ?_
    exact fun next runs => calls next (Or.inr ⟨callback, _, _, found, runs⟩)

/-- A larger limit makes a difference to calls that end at the limit only. -/
theorem call_sameBelowLimit (setup : Setup) {more : Nat} (larger : setup.limit ≤ more)
    {room otherRoom : Nat} (wider : room ≤ otherRoom) {pattern : PatternId}
    (passes : setup.graph.PassesLimit setup.text pattern) (index : Nat) :
    SameBelowLimit (call setup room pattern index)
      (call { setup with limit := more } otherRoom pattern index) := by
  induction room generalizing otherRoom pattern index with
  | zero => exact fun _ => Or.inl rfl
  | succ room inductionHypothesis =>
      obtain ⟨otherRoom, rfl⟩ : ∃ fewer, otherRoom = fewer + 1 := ⟨otherRoom - 1, by omega⟩
      rw [call_succ, call_succ]
      refine callOver_sameBelowLimit larger passes (fun next step => ?_) index
      exact inductionHypothesis (by omega) (passes.of_calls step)

/-- Calls of patterns in which `instead` takes the place of every call that ends at the limit. -/
def callElse (instead : Caller) (setup : Setup) : (room : Nat) → Caller
  | 0, pattern, index => instead pattern index
  | room + 1, pattern, index => fun entry =>
      let ended := callOver setup (callElse instead setup room) pattern index entry
      if atLimit (answerOf ended) then instead pattern index entry else ended

/-- A call that does not end at the limit has made no call that does. -/
theorem callElse_sameBelowLimit (instead : Caller) (setup : Setup) (room : Nat)
    {pattern : PatternId} (passes : setup.graph.PassesLimit setup.text pattern) (index : Nat) :
    SameBelowLimit (call setup room pattern index) (callElse instead setup room pattern index) := by
  induction room generalizing pattern index with
  | zero => exact fun _ => Or.inl rfl
  | succ room inductionHypothesis =>
      intro entry
      have step := callOver_sameBelowLimit (Nat.le_refl setup.limit) passes
        (fun next step => inductionHypothesis (passes.of_calls step)) index entry
      rw [call_succ]
      rcases step with limited | same
      · exact Or.inl limited
      · change callOver setup _ pattern index entry = _ at same
        by_cases limited : atLimit (answerOf (callOver setup (call setup room) pattern index entry))
        · exact Or.inl limited
        · right
          simp only [callElse, same]
          rw [if_neg limited]

end Matching

/-! ## Matches from the outside -/

/-- The context with another recursion limit. -/
def Context.withLimit (context : Context) (limit : Nat) : Context :=
  { context with config := { context.config with limit } }

namespace Graph

/-- Under a smaller limit a match ends at the limit or as it does under a larger one. -/
theorem result_below_limit {graph : Graph} {pattern : PatternId} {input : Input}
    (passes : graph.PassesLimit input.text pattern) (context : Context) {limit more : Nat}
    (larger : limit ≤ more) (index : Nat) :
    let result := fun limit => (graph.matchIn pattern input index (context.withLimit limit)).result
    atLimit (result limit) ∨ result more = result limit := by
  intro result
  have wider : limit - context.depth ≤ more - context.depth := by omega
  have same := Matching.call_sameBelowLimit ((context.withLimit limit).setup graph input.text)
    larger wider passes index (context.state input)
  have answer : ∀ limit, result limit = Matching.answerOf (Matching.call
      ((context.withLimit limit).setup graph input.text) (limit - context.depth) pattern index
      (context.state input)) :=
    fun limit => congrArg MatchRun.result (matchIn_eq ..)
  rw [answer, answer]
  exact same.imp_right (congrArg Matching.answerOf)

/-- A match in which `instead` takes the place of every call that ends at the limit. -/
def matchElse (graph : Graph) (instead : Caller) (pattern : PatternId) (input : Input)
    (index : Nat) (context : Context) : MatchRun :=
  let ended := Matching.callElse instead (context.setup graph input.text)
    (context.config.limit - context.depth) pattern index (context.state input)
  .ofState (Matching.answerOf ended) input context (Matching.stateOf ended)

/-- The recursion limit only ever turns answers into errors about the limit. A match that does not
end in one is the same under every larger limit, with the same bindings, stacks, journal and trace.
Nor did any pattern turn such an error from below into an answer: whatever takes the place of the
calls that end in one, the match is the same. -/
theorem matchIn_below_limit {graph : Graph} {pattern : PatternId} {input : Input}
    (passes : graph.PassesLimit input.text pattern) {context : Context} {limit index : Nat}
    (below : ¬ atLimit (graph.matchIn pattern input index (context.withLimit limit)).result) :
    let run := graph.matchIn pattern input index (context.withLimit limit)
    (∀ more, limit ≤ more → graph.matchIn pattern input index (context.withLimit more) =
      { run with context := run.context.withLimit more }) ∧
    ∀ instead, graph.matchElse instead pattern input index (context.withLimit limit) = run := by
  rw [matchIn_eq] at below ⊢
  let setup := (context.withLimit limit).setup graph input.text
  refine ⟨fun more larger => ?_, fun instead => ?_⟩
  · have wider : limit - context.depth ≤ more - context.depth := by omega
    have same := Matching.call_sameBelowLimit setup larger wider passes index (context.state input)
    rw [matchIn_eq]
    exact congrArg (fun ended => MatchRun.ofState (Matching.answerOf ended) input
      (context.withLimit more) (Matching.stateOf ended)) (same.resolve_left below)
  · have same := Matching.callElse_sameBelowLimit instead setup (limit - context.depth) passes index
      (context.state input)
    exact congrArg (fun ended => MatchRun.ofState (Matching.answerOf ended) input
      (context.withLimit limit) (Matching.stateOf ended)) (same.resolve_left below)

/-- Brackets that nest by way of a script, after a look ahead. -/
def scriptedBrackets : Graph where
  slots := #[
    some { kind := .literal ['('] },
    some { kind := .literal [')'] },
    some { kind := .reference "nested" 0 },
    some { kind := .function (Script.callback { steps := [.run 2 0], verdict := .last }) },
    some { kind := .sequence [0, 3, 1] },
    some { kind := .constant true },
    some { kind := .choice [4, 5], name := some "nested" },
    some { kind := .negative 1 },
    some { kind := .sequence [7, 6] }]
  cells := #[.weak 6]

theorem matchIn_below_limit_scriptedBrackets :
    let input : Input := .ofString "(())"
    let run := scriptedBrackets.matchIn 8 input 0 (Context.withLimit {} 12)
    run.result.toOption = some (some (input.text.matchOver 0 4)) ∧
      (∀ more, 12 ≤ more → scriptedBrackets.matchIn 8 input 0 (Context.withLimit {} more) =
        { run with context := run.context.withLimit more }) ∧
      (∀ instead, scriptedBrackets.matchElse instead 8 input 0 (Context.withLimit {} 12) = run) ∧
      atLimit (scriptedBrackets.matchIn 8 input 0 (Context.withLimit {} 11)).result := by
  intro input run
  have passes : scriptedBrackets.PassesLimit input.text 8 := by
    intro origin callback _ found
    match origin with
    | 3 =>
        have same := Kind.function.inj found
        rw [← same]
        exact Script.passesLimit _ _
    | 0 | 1 | 2 | 4 | 5 | 6 | 7 | 8 => cases found
    | origin + 9 => cases found
  have below : ¬ atLimit run.result := by decide +kernel
  obtain ⟨larger, instead⟩ := matchIn_below_limit passes below
  exact ⟨by decide +kernel, larger, instead, by decide +kernel⟩

end Graph

end PegEngine
