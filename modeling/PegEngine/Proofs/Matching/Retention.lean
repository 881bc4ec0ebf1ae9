import PegEngine.Proofs.Callback.Conduct
import PegEngine.Proofs.Matching.Isolation
import PegEngine.Proofs.Matching.Routine

/-!
Contract: bindings that were there before stay through a match.

This much is left of isolation when callbacks may commit and roll back the stacks as they like, as
long as they do not cut the bindings below their number when they began. Then what a call takes back
is never refused, so the call has the answer of its body.

Owns:
- `Setup.KeepsBindings`, for all callbacks that a pattern comes to;
- `Matching.Retains`, for actions that keep the bindings that they find;
- `guarded_retained` and `call_retains`, for pattern calls.
-/

namespace PegEngine

/-- The callbacks that `pattern` comes to keep bindings. -/
def Setup.KeepsBindings (setup : Setup) (pattern : PatternId) : Prop :=
  ∀ origin callback, setup.graph.Reaches pattern origin →
    setup.graph.kind origin = .function callback → callback.KeepsBindings setup

theorem Setup.KeepsBindings.of_calls {setup : Setup} {pattern next : PatternId}
    (keeps : setup.KeepsBindings pattern) (step : setup.graph.Calls pattern next) :
    setup.KeepsBindings next :=
  fun origin callback reaches => keeps origin callback (.of_calls step reaches)

namespace Matching

variable {α : Type}

/-- The state is at this nesting and still has the bindings `least`. -/
structure Retained (depth : Nat) (least : Bindings) (state : MatchState) : Prop where
  depth : state.depth = depth
  bindings : least.newestFirst <:+ state.bindings.newestFirst

/-- At this nesting the action keeps the bindings that it finds. -/
def Retains (depth : Nat) (action : MatchM α) : Prop :=
  ∀ state : MatchState, state.depth = depth →
    Retained depth state.bindings (stateOf (action state))

namespace Retained

variable {depth : Nat} {least older : Bindings} {state : MatchState}

theorem refl (atDepth : state.depth = depth) : Retained depth state.bindings state :=
  ⟨atDepth, List.suffix_refl _⟩

/-- Older bindings are kept as well. -/
theorem keeping (retained : Retained depth least state)
    (kept : older.newestFirst <:+ least.newestFirst) : Retained depth older state :=
  ⟨retained.depth, kept.trans retained.bindings⟩

theorem bind (retained : Retained depth least state) (name : String) (value : Capture) :
    Retained depth least { state with bindings := state.bindings.bind name value } :=
  ⟨retained.depth, retained.bindings.trans (List.suffix_cons _ _)⟩

theorem restore (retained : Retained depth least state) {number : Nat} {bindings : Bindings}
    (notBelow : least.count ≤ number) (restored : state.bindings.restore number = .ok bindings) :
    Retained depth least { state with bindings } :=
  ⟨retained.depth, Bindings.suffix_of_restore retained.bindings notBelow restored⟩

theorem withTable (retained : Retained depth least state) (stackTable : StackTable) :
    Retained depth least { state with stackTable } :=
  ⟨retained.depth, retained.bindings⟩

end Retained

section Actions

variable {depth : Nat} {least : Bindings} {call : Caller}

theorem runProgram_retains {program : Program}
    (calls : ∀ pattern, program.Runs pattern → ∀ index, Retains depth (call pattern index))
    {state : MatchState} (retained : Retained depth least state)
    (restores : program.RestoresFrom call least.count state) :
    Retained depth least (stateOf (runProgram call program state)) := by
  induction program generalizing state with
  | finish | fail => exact retained
  | inspect next inductionHypothesis =>
      exact inductionHypothesis _ (fun pattern runs => calls pattern ⟨_, runs⟩) retained restores
  | bind name value next inductionHypothesis =>
      exact inductionHypothesis calls (retained.bind name value) restores
  | restore number next inductionHypothesis =>
      simp only [Program.RestoresFrom] at restores
      obtain ⟨notBelow, restores⟩ := restores
      simp only [runProgram]
      cases restored : state.bindings.restore number with
      | ok bindings =>
          rw [restored] at restores
          exact inductionHypothesis _ (fun pattern runs => calls pattern ⟨_, runs⟩)
            (retained.restore notBelow restored) restores
      | error error =>
          rw [restored] at restores
          exact inductionHypothesis _ (fun pattern runs => calls pattern ⟨_, runs⟩) retained
            restores
  | push stack value next inductionHypothesis =>
      exact inductionHypothesis calls (retained.withTable _) restores
  | pop stack next inductionHypothesis =>
      exact inductionHypothesis _ (fun pattern runs => calls pattern ⟨_, runs⟩)
        (retained.withTable _) restores
  | popMany stack count position next inductionHypothesis =>
      simp only [Program.RestoresFrom] at restores
      simp only [runProgram]
      cases popped : state.stackTable.popMany stack count position with
      | ok taken =>
          rw [popped] at restores
          exact inductionHypothesis _ (fun pattern runs => calls pattern ⟨_, runs⟩)
            (retained.withTable _) restores
      | error error =>
          rw [popped] at restores
          exact inductionHypothesis _ (fun pattern runs => calls pattern ⟨_, runs⟩) retained
            restores
  | commit next inductionHypothesis | rollback _ next inductionHypothesis =>
      exact inductionHypothesis calls (retained.withTable _) restores
  | run pattern index next inductionHypothesis =>
      have first := (calls pattern (Or.inl rfl) index state retained.depth).keeping
        retained.bindings
      simp only [Program.RestoresFrom] at restores
      simp only [runProgram]
      cases ended : call pattern index state with
      | ok outcome reached | error error reached =>
          rw [ended] at first restores
          exact inductionHypothesis _ (fun other runs => calls other (Or.inr ⟨_, runs⟩)) first
            restores

theorem run_retains {patterns : PatternId → Prop} {programs : Program → Prop}
    (calls : ∀ pattern, patterns pattern → ∀ index, Retains depth (call pattern index))
    (performs : ∀ program, programs program → Retains depth (runProgram call program))
    {routine : Routine α} (keeps : routine.KeepsTo patterns programs) {state : MatchState}
    (retained : Retained depth least state) :
    Retained depth least (stateOf (routine.run call state)) := by
  induction routine generalizing state with
  | finish | fail => exact retained
  | look next inductionHypothesis => exact inductionHypothesis _ _ (keeps _ _) retained
  | bind name value next inductionHypothesis =>
      exact inductionHypothesis keeps (retained.bind name value)
  | restack stackTable next inductionHypothesis =>
      exact inductionHypothesis keeps (retained.withTable stackTable)
  | note line next inductionHypothesis =>
      have stays : Retained depth least (state.addTrace [.line line]) :=
        ⟨retained.depth, retained.bindings⟩
      exact inductionHypothesis keeps stays
  | invoke pattern index next inductionHypothesis =>
      have first := (calls pattern keeps.1 index state retained.depth).keeping retained.bindings
      rw [Routine.run, bind_apply]
      cases ended : call pattern index state with
      | ok outcome reached =>
          rw [ended] at first
          exact inductionHypothesis _ (keeps.2 outcome) first
      | error error reached =>
          rw [ended] at first
          exact first
  | perform program next inductionHypothesis =>
      have first := (performs program keeps.1 state retained.depth).keeping retained.bindings
      rw [Routine.run, bind_apply]
      cases ended : runProgram call program state with
      | ok outcome reached =>
          rw [ended] at first
          exact inductionHypothesis _ (keeps.2 outcome) first
      | error error reached =>
          rw [ended] at first
          exact first

end Actions

/-- The end of a call whose body has kept the bindings: the answer is that of the body, and without
a match the bindings are those from before. -/
structure GuardedRetained (setup : Setup) (pattern : PatternId) (entry : MatchState)
    (bodyEnded ended : EStateM.Result MatchError MatchState (Option Match)) : Prop where
  answer : answerOf ended =
    (answerOf bodyEnded).mapError (·.inPattern (setup.graph.name? pattern))
  retained : Retained entry.depth entry.bindings (stateOf ended)
  bindings (noMatch : ∀ m, answerOf ended ≠ .ok (some m)) : (stateOf ended).bindings = entry.bindings

/-- A call finds what its body does. -/
theorem GuardedRetained.found {setup : Setup} {pattern : PatternId} {entry : MatchState}
    {bodyEnded ended : EStateM.Result MatchError MatchState (Option Match)}
    (retained : GuardedRetained setup pattern entry bodyEnded ended) {m : Match}
    (found : answerOf ended = .ok (some m)) : answerOf bodyEnded = .ok (some m) := by
  have mapped := retained.answer.symm.trans found
  cases bodyEnded with
  | ok outcome reached => exact mapped
  | error error reached => cases mapped

theorem guarded_retained {setup : Setup} {pattern : PatternId} {i : Nat}
    {body : MatchM (Option Match)} {entry : MatchState}
    (retains : Retains (entry.depth + 1) body) :
    GuardedRetained setup pattern entry (body (started setup pattern i entry))
      (guarded setup pattern i body entry) := by
  have begins : (started setup pattern i entry).depth = entry.depth + 1 := depth_started
  obtain ⟨atDepth, kept⟩ := retains _ begins
  have kept : entry.bindings.newestFirst <:+ _ := started_extends.bindings.trans kept
  have sameStart : started setup pattern i entry =
      (entry.enter (setup.graph.node pattern)).report setup pattern i .before := rfl
  -- The state in which a call is left has what its body has kept, whatever is reported.
  have left {state : MatchState} (atDepth : state.depth = entry.depth + 1)
      (kept : entry.bindings.newestFirst <:+ state.bindings.newestFirst) :
      Retained entry.depth entry.bindings (entry.leave (setup.graph.node pattern) state) :=
    ⟨by simp [MatchState.leave, atDepth], kept⟩
  unfold guarded
  dsimp only
  rw [← sameStart]
  cases ended : body (started setup pattern i entry) with
  | ok outcome reached =>
      rw [ended] at atDepth kept
      have reported := MatchState.Extends.report setup pattern i (.after outcome) reached
      have leaving := left (reported.depth.trans atDepth) (kept.trans reported.bindings)
      cases outcome with
      | some m =>
          refine ⟨rfl, ⟨?_, ?_⟩, fun noMatch => absurd rfl (noMatch m)⟩
          · exact (MatchState.depth_settle _).trans leaving.depth
          · simpa [stateOf] using leaving.bindings
      | none =>
          dsimp only
          rw [MatchState.backtrack_of_suffix leaving.bindings]
          refine ⟨rfl, ⟨?_, ?_⟩, fun _ => by simp [stateOf]⟩
          · exact (MatchState.depth_settle _).trans leaving.depth
          · simp [stateOf]
  | error error reached =>
      rw [ended] at atDepth kept
      have leaving := @left reached atDepth kept
      dsimp only
      rw [MatchState.backtrack_of_suffix leaving.bindings]
      refine ⟨rfl, ⟨?_, ?_⟩, fun _ => by simp [stateOf]⟩
      · exact (MatchState.depth_settle _).trans leaving.depth
      · simp [stateOf]

/-- A body inside a call keeps bindings, given that the nested calls do. -/
theorem matchKind_retains {setup : Setup} {room depth : Nat} {pattern : PatternId} {i : Nat}
    (inside : i ≤ setup.text.length) (keeps : setup.KeepsBindings pattern)
    (roomLeft : setup.limit - depth = room)
    (calls : ∀ next, setup.graph.Calls pattern next → ∀ index,
      Retains depth (call setup room next index)) :
    Retains depth (matchKind setup (call setup room) i (setup.graph.kind pattern)) := by
  intro state atDepth
  rw [matchKind_eq]
  apply run_retains (fun next leads => calls next (Or.inl leads)) ?_
    (Routine.keepsTo_ofKind setup i pattern) (.refl atDepth)
  rintro program ⟨callback, found, rfl⟩ begun sameDepth
  have restores := keeps pattern callback .refl found i inside begun
  rw [sameDepth, roomLeft] at restores
  exact runProgram_retains (fun next runs => calls next (Or.inr ⟨callback, _, _, found, runs⟩))
    (.refl sameDepth) restores

/-- Every call of a pattern keeps bindings if the callbacks below it do. -/
theorem call_retains {setup : Setup} {room depth : Nat} {pattern : PatternId}
    (keeps : setup.KeepsBindings pattern) (roomLeft : setup.limit - depth = room) (index : Nat) :
    Retains depth (call setup room pattern index) := by
  induction room generalizing depth pattern index with
  | zero => exact fun state atDepth => .refl atDepth
  | succ room inductionHypothesis =>
      intro entry atDepth
      have shallow : ¬ setup.limit ≤ entry.depth := by omega
      simp only [call, if_neg shallow]
      rw [← atDepth]
      refine (guarded_retained (matchKind_retains (Nat.min_le_right ..) keeps (by omega)
        fun next step index => ?_)).retained
      exact inductionHypothesis (keeps.of_calls step) (by omega) index

end Matching

end PegEngine
