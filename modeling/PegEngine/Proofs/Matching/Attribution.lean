import PegEngine.Proofs.Matching.Limit
import PegEngine.Proofs.Matching.Refinement
import PegEngine.Proofs.Matching.TracedCalls

/-!
Contract: the first error ends a match and names the innermost named pattern around it.

The engine hands an error out through every call that is under way, which takes back what it did and
adds its name where none is given. The evaluation here stops at the first error, and attributes it
at once: to the innermost named pattern on the call path. Both come to the same.

Owns:
- `Scope.innermost?`, the name that a place on the call path gives to an error;
- `Aborting.eval`, which has no step between the place of an error and the end of the match, and
  `Graph.abortingIn` for a match from the outside;
- `Matching.EndsAs`, by which an action of the engine ends as the evaluation does;
- `callInstead`, calls in which something else takes the place of all that end with an error;
- `Graph.matchIn_raises_first_error`.
-/

namespace PegEngine

namespace Matching

/-- The name of the innermost named pattern on the call path. -/
def Scope.innermost? (scope : Scope) (graph : Graph) : Option String :=
  scope.path.findSome? graph.name?

@[simp] theorem Scope.innermost?_inside (scope : Scope) (graph : Graph) (pattern : PatternId) :
    (scope.inside pattern).innermost? graph = (graph.name? pattern <|> scope.innermost? graph) := by
  unfold innermost? inside
  cases own : graph.name? pattern <;> simp [own]

namespace Aborting

/-- An answer with the memory that is left, or the error that was raised first. -/
abbrev Outcome (α : Type) := Except MatchError (α × Memory)

/-- End a match with an error of this place. -/
def raise {α : Type} (graph : Graph) (here : Scope) (error : MatchError) : Outcome α :=
  .error (error.inPattern (here.innermost? graph))

section Requests

variable (graph : Graph) (here : Scope)
  (call : PatternId → Nat → Memory → Outcome (Option Match))

/-- Carry out the requests of a callback until one of them fails. -/
def program : Program → Memory → Outcome CallbackOutcome
  | .finish outcome, memory => .ok (outcome, memory)
  | .fail error, _ => raise graph here error
  | .inspect next, memory => program (next (here.view graph memory)) memory
  | .bind name value next, memory =>
      program next { memory with bindings := memory.bindings.bind name value }
  | .restore number next, memory =>
      match memory.bindings.restore number with
      | .ok bindings => program (next (.ok ())) { memory with bindings }
      | .error error => raise graph here error
  | .push stack value next, memory =>
      program next { memory with stackTable := memory.stackTable.push stack value }
  | .pop stack next, memory =>
      program (next (memory.stackTable.pop stack).1)
        { memory with stackTable := (memory.stackTable.pop stack).2 }
  | .popMany stack count position next, memory =>
      match memory.stackTable.popMany stack count position with
      | .ok (values, stackTable) => program (next (.ok values)) { memory with stackTable }
      | .error error => raise graph here error
  | .commit next, memory =>
      program next { memory with stackTable := memory.stackTable.commit }
  | .rollback checkpoint next, memory =>
      program next { memory with stackTable := memory.stackTable.rollback checkpoint }
  | .run pattern index next, memory =>
      match call pattern index memory with
      | .ok (outcome, memory) => program (next (.ok outcome)) memory
      | .error error => .error error

/-- Carry out the requests of a node until one of them fails. -/
def routine {α : Type} : Routine α → Memory → Outcome α
  | .finish value, memory => .ok (value, memory)
  | .fail error, _ => raise graph here error
  | .look next, memory => routine (next memory.bindings memory.stackTable) memory
  | .bind name value next, memory =>
      routine next { memory with bindings := memory.bindings.bind name value }
  | .restack stackTable next, memory => routine next { memory with stackTable }
  | .note _ next, memory => routine next memory
  | .invoke pattern index next, memory =>
      match call pattern index memory with
      | .ok (outcome, memory) => routine (next outcome) memory
      | .error error => .error error
  | .perform script next, memory =>
      match program graph here call script memory with
      | .ok (outcome, memory) => routine (next outcome) memory
      | .error error => .error error

end Requests

/-- What is left of a call whose node came to an end. Without a match the bindings are those from
before, and the stacks have their changes undone. -/
def left (scope : Scope) (before : Memory) : Outcome (Option Match) → Outcome (Option Match)
  | .ok (some m, reached) => .ok (some m, scope.settle reached)
  | .ok (none, reached) =>
      .ok (none, scope.settle
        { bindings := before.bindings
          stackTable := reached.stackTable.rollback before.stackTable.checkpoint })
  | .error error => .error error

/-- Match a pattern at a position, at most `room` calls deep. -/
def eval (setup : Setup) :
    (room : Nat) → Scope → PatternId → Nat → Memory → Outcome (Option Match)
  | 0, _, _, index, _ => .error (.recursionLimit setup.limit (min index setup.text.length))
  | room + 1, scope, pattern, index, before =>
      let here := scope.inside pattern
      let node := Routine.ofKind setup (min index setup.text.length) (setup.graph.kind pattern)
      left scope before (routine setup.graph here (eval setup room here) node before)

end Aborting

/-! ## The engine ends as the evaluation does -/

/-- An action of a place ends with the answer and the memory of an outcome, in the place and with
the bindings `least`. Or both end with one error, to which the engine has yet to add the names of
the calls under way. -/
inductive EndsAs {α : Type} (graph : Graph) (here : Scope) (least : Bindings) :
    EStateM.Result MatchError MatchState α → Aborting.Outcome α → Prop where
  | ended {value : α} {state : MatchState} (within : state.Within graph here least) :
      EndsAs graph here least (.ok value state) (.ok (value, state.memory))
  | failed {error : MatchError} {state : MatchState} :
      EndsAs graph here least (.error error state)
        (.error (error.inPattern (here.innermost? graph)))

/-- Wherever in the place it is made, a call of the pattern ends as the evaluation of it. -/
def CallEndsAs (graph : Graph) (here : Scope) (call : Caller)
    (callee : PatternId → Nat → Memory → Aborting.Outcome (Option Match)) (pattern : PatternId) :
    Prop :=
  ∀ index (entry : MatchState), entry.StandsIn graph here →
    EndsAs graph here entry.bindings (call pattern index entry) (callee pattern index entry.memory)

/-- Older bindings are kept as well. -/
theorem EndsAs.keeping {α : Type} {graph : Graph} {here : Scope} {least older : Bindings}
    {ended : EStateM.Result MatchError MatchState α} {outcome : Aborting.Outcome α}
    (ends : EndsAs graph here least ended outcome)
    (kept : older.newestFirst <:+ least.newestFirst) : EndsAs graph here older ended outcome := by
  cases ends with
  | ended within => exact .ended ⟨within.toStandsIn, kept.trans within.bindings⟩
  | failed => exact .failed

/-- A program that is bound to end with an error does so, whatever it cleans up. -/
theorem runProgram_endsWith (call : Caller) {error : MatchError} {program : Program}
    (ends : program.EndsWith error) (state : MatchState) :
    ∃ reached, runProgram call program state = .error error reached := by
  induction program generalizing state with
  | finish | run => cases ends
  | fail other =>
      cases ends
      exact ⟨state, rfl⟩
  | inspect next inductionHypothesis => exact inductionHypothesis _ (ends _) _
  | bind _ _ next inductionHypothesis | push _ _ next inductionHypothesis
  | commit next inductionHypothesis | rollback _ next inductionHypothesis =>
      exact inductionHypothesis ends _
  | pop stack next inductionHypothesis => exact inductionHypothesis _ (ends _) _
  | restore number next inductionHypothesis =>
      simp only [runProgram]
      split <;> exact inductionHypothesis _ (ends _) _
  | popMany stack count position next inductionHypothesis =>
      simp only [runProgram]
      split <;> exact inductionHypothesis _ (ends _) _

section Actions

variable {α : Type} {graph : Graph} {here : Scope} {least : Bindings} {call : Caller}
  {callee : PatternId → Nat → Memory → Aborting.Outcome (Option Match)}

/-- What is left of a program after an error does not change how it ends. -/
theorem endsAs_of_endsWith {error : MatchError} {program : Program}
    (ends : program.EndsWith error) (state : MatchState) :
    EndsAs graph here least (runProgram call program state)
      (.error (error.inPattern (here.innermost? graph))) := by
  obtain ⟨reached, same⟩ := runProgram_endsWith call ends state
  rw [same]
  exact .failed

/-- A program that stops at errors ends as its evaluation, if its restores leave the bindings
`least`. -/
theorem runProgram_endsAs {program : Program} (stops : program.StopsAtErrors)
    (calls : ∀ pattern, program.Runs pattern → CallEndsAs graph here call callee pattern)
    {state : MatchState} (within : state.Within graph here least)
    (restores : program.RestoresFrom call least.count state) :
    EndsAs graph here least (runProgram call program state)
      (Aborting.program graph here callee program state.memory) := by
  induction program generalizing state with
  | finish outcome => exact .ended within
  | fail error => exact .failed
  | inspect next inductionHypothesis =>
      simp only [runProgram, Aborting.program, ← within.view]
      exact inductionHypothesis _ (stops _) (fun pattern runs => calls pattern ⟨_, runs⟩) within
        restores
  | bind name value next inductionHypothesis =>
      exact inductionHypothesis stops calls (within.bind name value) restores
  | restore number next inductionHypothesis =>
      simp only [Program.RestoresFrom] at restores
      obtain ⟨notBelow, restores⟩ := restores
      simp only [runProgram, Aborting.program, MatchState.memory]
      cases restored : state.bindings.restore number with
      | ok bindings =>
          rw [restored] at restores
          exact inductionHypothesis _ stops.1 (fun pattern runs => calls pattern ⟨_, runs⟩)
            (within.restore notBelow restored) restores
      | error error => exact endsAs_of_endsWith (stops.2 error) state
  | push stack value next inductionHypothesis =>
      exact inductionHypothesis stops calls (within.withTable _) restores
  | pop stack next inductionHypothesis =>
      exact inductionHypothesis _ (stops _) (fun pattern runs => calls pattern ⟨_, runs⟩)
        (within.withTable _) restores
  | popMany stack count position next inductionHypothesis =>
      simp only [Program.RestoresFrom] at restores
      simp only [runProgram, Aborting.program, MatchState.memory]
      cases popped : state.stackTable.popMany stack count position with
      | ok taken =>
          rw [popped] at restores
          exact inductionHypothesis _ (stops.1 _) (fun pattern runs => calls pattern ⟨_, runs⟩)
            (within.withTable _) restores
      | error error => exact endsAs_of_endsWith (stops.2 error) state
  | commit next inductionHypothesis =>
      exact inductionHypothesis stops calls (within.withTable _) restores
  | rollback checkpoint next inductionHypothesis =>
      exact inductionHypothesis stops calls (within.withTable _) restores
  | run pattern index next inductionHypothesis =>
      have first := (calls pattern (Or.inl rfl) index state within.toStandsIn).keeping
        within.bindings
      simp only [Program.RestoresFrom] at restores
      simp only [runProgram, Aborting.program]
      generalize call pattern index state = ended at first restores
      generalize callee pattern index state.memory = outcome at first
      cases first with
      | ended reached =>
          exact inductionHypothesis _ (stops.1 _) (fun other runs => calls other (Or.inr ⟨_, runs⟩))
            reached restores
      | @failed error reached => exact endsAs_of_endsWith (stops.2 error) reached

/-- Running a routine ends as its evaluation. -/
theorem run_endsAs {patterns : PatternId → Prop} {programs : Program → Prop}
    (calls : ∀ pattern, patterns pattern → CallEndsAs graph here call callee pattern)
    (performs : ∀ program, programs program → ∀ state : MatchState, state.StandsIn graph here →
      EndsAs graph here state.bindings (runProgram call program state)
        (Aborting.program graph here callee program state.memory))
    {routine : Routine α} (keeps : routine.KeepsTo patterns programs) {state : MatchState}
    (within : state.Within graph here least) :
    EndsAs graph here least (routine.run call state)
      (Aborting.routine graph here callee routine state.memory) := by
  induction routine generalizing state with
  | finish value => exact .ended within
  | fail error => exact .failed
  | look next inductionHypothesis => exact inductionHypothesis _ _ (keeps _ _) within
  | bind name value next inductionHypothesis =>
      exact inductionHypothesis keeps (within.bind name value)
  | restack stackTable next inductionHypothesis =>
      exact inductionHypothesis keeps (within.withTable stackTable)
  | note line next inductionHypothesis =>
      have stays : (state.addTrace [.line line]).Within graph here least :=
        ⟨⟨within.depth, within.options⟩, within.bindings⟩
      exact inductionHypothesis keeps stays
  | invoke pattern index next inductionHypothesis =>
      have first := (calls pattern keeps.1 index state within.toStandsIn).keeping within.bindings
      simp only [Routine.run, Aborting.routine, bind_apply]
      generalize call pattern index state = ended at first
      generalize callee pattern index state.memory = outcome at first
      cases first with
      | ended reached => exact inductionHypothesis _ (keeps.2 _) reached
      | failed => exact .failed
  | perform program next inductionHypothesis =>
      have first := (performs program keeps.1 state within.toStandsIn).keeping within.bindings
      simp only [Routine.run, Aborting.routine, bind_apply]
      generalize runProgram call program state = ended at first
      generalize Aborting.program graph here callee program state.memory = outcome at first
      cases first with
      | ended reached => exact inductionHypothesis _ (keeps.2 _) reached
      | failed => exact .failed

end Actions

/-- The state in which a call is settled shows what the evaluation leaves. -/
theorem EndsAs.settled {setup : Setup} {scope : Scope} {least : Bindings} {outcome : Option Match}
    {state : MatchState} {memory : Memory} (within : state.Within setup.graph scope least)
    (same : state.memory = memory) :
    EndsAs setup.graph scope least (.ok outcome state.settle)
      (.ok (outcome, scope.settle memory)) := by
  rw [← same, ← memory_settle within.toStandsIn]
  exact .ended (within_settle within)

/-- A call under the protocol ends as the evaluation if its node does. Its name is the one that is
added first. -/
theorem guarded_endsAs {setup : Setup} {scope : Scope} {pattern : PatternId} {i : Nat}
    {entry : MatchState} (stands : entry.StandsIn setup.graph scope)
    {body : MatchM (Option Match)} {outcome : Aborting.Outcome (Option Match)}
    (bodies : ∀ begun : MatchState, begun.memory = entry.memory →
      begun.Within setup.graph (scope.inside pattern) entry.bindings →
        EndsAs setup.graph (scope.inside pattern) entry.bindings (body begun) outcome) :
    EndsAs setup.graph scope entry.bindings (guarded setup pattern i body entry)
      (Aborting.left scope entry.memory outcome) := by
  have ends := bodies ((entry.enter (setup.graph.node pattern)).report setup pattern i .before)
    (memory_report ..) (within_report _ _ _ _ (within_enter stands pattern))
  unfold guarded
  dsimp only
  generalize body ((entry.enter (setup.graph.node pattern)).report setup pattern i .before) = ended
    at ends ⊢
  cases ends with
  | @ended outcome reached within =>
      have left := within_leave stands (within_report setup pattern i (.after outcome) within)
      have reported := memory_report setup pattern i (.after outcome) reached
      cases outcome with
      | some m => exact .settled left reported
      | none =>
          obtain ⟨state, back, -, stays, taken⟩ := backtrack_left left reported
          dsimp only
          rw [back]
          exact .settled stays taken
  | @failed error reached =>
      have named : error.inPattern ((scope.inside pattern).innermost? setup.graph) =
          (error.inPattern (setup.graph.name? pattern)).inPattern
            (scope.innermost? setup.graph) := by
        rw [Scope.innermost?_inside, inPattern_orElse]
      dsimp only
      rw [named]
      exact .failed

/-- Calls at a place end as their evaluation, if callbacks stop at errors and keep bindings. -/
theorem call_endsAs {setup : Setup} {room : Nat} {scope : Scope} {pattern : PatternId}
    (stops : setup.StopsAtErrors pattern) (roomLeft : setup.limit - scope.nesting = room) :
    CallEndsAs setup.graph scope (call setup room) (Aborting.eval setup room scope) pattern := by
  induction room generalizing scope pattern with
  | zero => exact fun index entry stands => .failed
  | succ room inductionHypothesis =>
      intro index entry stands
      have shallow : ¬ setup.limit ≤ entry.depth := by
        rw [stands.depth]
        omega
      have roomInside : setup.limit - (scope.inside pattern).nesting = room := by
        rw [Scope.nesting_inside]
        omega
      have below : ∀ next, setup.graph.Calls pattern next →
          CallEndsAs setup.graph (scope.inside pattern) (call setup room)
            (Aborting.eval setup room (scope.inside pattern)) next := fun next step =>
        inductionHypothesis (stops.of_calls step) roomInside
      simp only [call, if_neg shallow, Aborting.eval]
      apply guarded_endsAs stands
      intro begun memory within
      rw [matchKind_eq, ← memory]
      apply run_endsAs (fun next leads => below next (Or.inl leads)) ?_
        (Routine.keepsTo_ofKind setup _ pattern) within
      rintro program ⟨callback, found, rfl⟩ state here
      have inside := Nat.min_le_right index setup.text.length
      have keeps := stops.keeps pattern callback .refl found _ inside state
      rw [here.depth, roomInside] at keeps
      exact runProgram_endsAs (stops.stops pattern callback .refl found _ inside)
        (fun next runs => below next (Or.inr ⟨callback, _, _, found, runs⟩)) here.within keeps

/-! ## Nothing goes on after an error -/

/-- Where the first action ends without an error, the second one ends in the same way. -/
def KeepsOutcomes {α : Type} (action other : MatchM α) : Prop :=
  ∀ state value reached, action state = .ok value reached → other state = .ok value reached

/-- No node turns the error of a call into an answer. -/
theorem congruence_keepsOutcomes : Congruence KeepsOutcomes where
  pure _ := fun _ _ _ ended => ended
  throw _ := fun _ _ _ ended => nomatch ended
  bind := by
    intro α β action other next otherNext first rest state value reached ended
    rw [bind_apply] at ended ⊢
    cases halfway : action state with
    | ok middle middleState =>
        rw [halfway] at ended
        rw [first state middle middleState halfway]
        exact rest middle middleState value reached ended
    | error error middleState =>
        rw [halfway] at ended
        cases ended
  look rest := fun state => rest state state rfl rfl state
  rebind _ := fun _ _ _ ended => ended
  restack _ := fun _ _ _ ended => ended
  addTrace _ := fun _ _ _ ended => ended

theorem runProgram_keepsOutcomes {call other : Caller} {program : Program}
    (stops : program.StopsAtErrors)
    (calls : ∀ pattern, program.Runs pattern → ∀ index,
      KeepsOutcomes (call pattern index) (other pattern index)) :
    KeepsOutcomes (runProgram call program) (runProgram other program) := by
  intro state value reached ended
  induction program generalizing state with
  | finish | fail => exact ended
  | inspect next inductionHypothesis =>
      exact inductionHypothesis _ (stops _) (fun pattern runs => calls pattern ⟨_, runs⟩) _ ended
  | bind _ _ next inductionHypothesis | push _ _ next inductionHypothesis
  | commit next inductionHypothesis | rollback _ next inductionHypothesis =>
      exact inductionHypothesis stops calls _ ended
  | pop stack next inductionHypothesis =>
      exact inductionHypothesis _ (stops _) (fun pattern runs => calls pattern ⟨_, runs⟩) _ ended
  | restore number next inductionHypothesis =>
      simp only [runProgram] at ended ⊢
      cases restored : state.bindings.restore number with
      | ok bindings =>
          rw [restored] at ended
          exact inductionHypothesis _ stops.1 (fun pattern runs => calls pattern ⟨_, runs⟩) _ ended
      | error error =>
          obtain ⟨last, fails⟩ := runProgram_endsWith call (stops.2 error) state
          rw [restored] at ended
          cases fails.symm.trans ended
  | popMany stack count position next inductionHypothesis =>
      simp only [runProgram] at ended ⊢
      cases popped : state.stackTable.popMany stack count position with
      | ok taken =>
          rw [popped] at ended
          exact inductionHypothesis _ (stops.1 _) (fun pattern runs => calls pattern ⟨_, runs⟩) _
            ended
      | error error =>
          obtain ⟨last, fails⟩ := runProgram_endsWith call (stops.2 error) state
          rw [popped] at ended
          cases fails.symm.trans ended
  | run pattern index next inductionHypothesis =>
      simp only [runProgram] at ended ⊢
      cases answered : call pattern index state with
      | ok outcome later =>
          rw [answered] at ended
          rw [calls pattern (Or.inl rfl) index state outcome later answered]
          exact inductionHypothesis _ (stops.1 _) (fun other runs => calls other (Or.inr ⟨_, runs⟩))
            _ ended
      | error error later =>
          obtain ⟨last, fails⟩ := runProgram_endsWith call (stops.2 error) later
          rw [answered] at ended
          cases fails.symm.trans ended

theorem guarded_keepsOutcomes {setup : Setup} {pattern : PatternId} {i : Nat}
    {body other : MatchM (Option Match)} (bodies : KeepsOutcomes body other) :
    KeepsOutcomes (guarded setup pattern i body) (guarded setup pattern i other) := by
  intro entry value reached ended
  unfold guarded at ended ⊢
  dsimp only at ended ⊢
  cases halfway : body ((entry.enter (setup.graph.node pattern)).report setup pattern i .before) with
  | ok outcome later =>
      rw [halfway] at ended
      rw [bodies _ outcome later halfway]
      exact ended
  | error error later =>
      rw [halfway] at ended
      cases ended

/-- Calls of patterns in which `instead` takes the place of every call that ends with an error. -/
def callInstead (instead : Caller) (setup : Setup) : (room : Nat) → Caller
  | 0, pattern, index => instead pattern index
  | room + 1, pattern, index => fun entry =>
      match callOver setup (callInstead instead setup room) pattern index entry with
      | .ok outcome reached => .ok outcome reached
      | .error _ _ => instead pattern index entry

/-- A call that does not end with an error has made no call that does. -/
theorem callInstead_keepsOutcomes (instead : Caller) (setup : Setup) (room : Nat)
    {pattern : PatternId} (stops : setup.StopsAtErrors pattern) (index : Nat) :
    KeepsOutcomes (call setup room pattern index) (callInstead instead setup room pattern index) := by
  induction room generalizing pattern index with
  | zero => exact fun _ _ _ ended => nomatch ended
  | succ room inductionHypothesis =>
      intro entry value reached ended
      rw [call_succ] at ended
      have same : callOver setup (callInstead instead setup room) pattern index entry =
          .ok value reached := by
        unfold callOver at ended ⊢
        split at ended
        · cases ended
        · next shallow =>
            rw [if_neg shallow]
            refine guarded_keepsOutcomes ?_ entry value reached ended
            refine congruence_keepsOutcomes.matchKind rfl (fun _ _ _ => rfl)
              (fun next step => inductionHypothesis (stops.of_calls step)) fun callback found => ?_
            exact runProgram_keepsOutcomes
              (stops.stops pattern callback .refl found _ (Nat.min_le_right ..))
              fun next runs => inductionHypothesis
                (stops.of_calls (Or.inr ⟨callback, _, _, found, runs⟩))
      simp only [callInstead, same]

end Matching

/-! ## Matches from the outside -/

namespace Graph

variable {graph : Graph} {pattern : PatternId}

/-- The evaluation up to the first error that a match in a context amounts to. -/
def abortingIn (graph : Graph) (pattern : PatternId) (input : Input) (index : Nat)
    (context : Context) : Matching.Aborting.Outcome (Option Match) :=
  Matching.Aborting.eval (context.setup graph input.text) (context.config.limit - context.depth)
    context.scope pattern index { bindings := input.bindings, stackTable := context.stackTable }

/-- A match in which `instead` takes the place of every call that ends with an error. -/
def matchInstead (graph : Graph) (instead : Caller) (pattern : PatternId) (input : Input)
    (index : Nat) (context : Context) : MatchRun :=
  let ended := Matching.callInstead instead (context.setup graph input.text)
    (context.config.limit - context.depth) pattern index (context.state input)
  .ofState (Matching.answerOf ended) input context (Matching.stateOf ended)

/-- The first error of a match is its result, attributed to the innermost named pattern on the call
path where it arose, and a match without one comes to what the evaluation comes to. Nothing swallows
an error on the way out: what a match without an error would do in the place of a call that ends
with one makes no difference to it. -/
theorem matchIn_raises_first_error {input : Input} {context : Context}
    (stops : (context.setup graph input.text).StopsAtErrors pattern) (index : Nat) :
    let run := graph.matchIn pattern input index context
    let reference := graph.abortingIn pattern input index context
    run.result = reference.map Prod.fst ∧
      (∀ outcome memory, reference = .ok (outcome, memory) →
        run.input.bindings = memory.bindings ∧ run.context.stackTable = memory.stackTable) ∧
      ∀ outcome, run.result = .ok outcome →
        ∀ instead, graph.matchInstead instead pattern input index context = run := by
  intro run reference
  let setup := context.setup graph input.text
  let room := context.config.limit - context.depth
  have stands : (context.state input).StandsIn graph context.scope :=
    ⟨by simp [Context.state, Context.scope, Matching.Scope.nesting],
      by simp [Context.state, Context.scope, Matching.Scope.inEffect]⟩
  have ends : Matching.EndsAs graph context.scope input.bindings
      (Matching.call setup room pattern index (context.state input)) reference :=
    Matching.call_endsAs stops rfl index (context.state input) stands
  have keeps := fun instead =>
    Matching.callInstead_keepsOutcomes instead setup room stops index (context.state input)
  have same : run = .ofState
      (Matching.answerOf (Matching.call setup room pattern index (context.state input))) input
      context (Matching.stateOf (Matching.call setup room pattern index (context.state input))) :=
    graph.matchIn_eq pattern input index context
  generalize Matching.call setup room pattern index (context.state input) = ended
    at same ends keeps
  rw [same]
  generalize reference = outcome at ends ⊢
  cases ends with
  | @ended value state within =>
      refine ⟨rfl, fun other memory found => ?_, fun other found instead => ?_⟩
      · cases found
        exact ⟨rfl, rfl⟩
      · exact congrArg (fun ended => MatchRun.ofState (Matching.answerOf ended) input context
          (Matching.stateOf ended)) (keeps instead value state rfl)
  | @failed error state =>
      have outermost : context.scope.innermost? graph = none := rfl
      refine ⟨?_, fun other memory found => ?_, fun other found => ?_⟩
      · rw [outermost, error.inPattern_none]
        rfl
      · cases found
      · cases found

/-- Two named patterns, one inside the other, with a reference, a callback's match and a negation
between them. The inner one pops from an empty stack by way of a script. -/
def underflow : Graph where
  slots := #[
    some { kind := .literal ['a'] },
    some { kind := .function (Script.callback { steps := [.popMany "s" 1 0], verdict := .accept }) },
    some { kind := .sequence [0, 1], name := some "inner" },
    some { kind := .negative 2 },
    some { kind := .function (Script.callback { steps := [.run 3 0], verdict := .last }) },
    some { kind := .reference "rule" 0 },
    some { kind := .choice [5, 0], name := some "outer" }]
  cells := #[.weak 4]

theorem matchIn_raises_first_error_underflow :
    let input : Input := .ofString "a"
    (Context.setup {} underflow input.text).StopsAtErrors 6 ∧
      (underflow.matchIn 6 input 0 {}).result =
        (underflow.abortingIn 6 input 0 {}).map Prod.fst ∧
      underflow.abortingIn 6 input 0 {} = .error (.stackUnderflow "s" 1 0 0 (some "inner")) := by
  intro input
  have scripts : ∀ origin callback, underflow.kind origin = .function callback →
      ∃ script : Script, callback = script.callback ∧
        ∀ step ∈ script.steps, step.keepsBindings := by
    intro origin callback found
    match origin with
    | 1 | 4 =>
        cases found
        exact ⟨_, rfl, by decide⟩
    | 0 | 2 | 3 | 5 | 6 => cases found
    | origin + 7 => cases found
  have stops : (Context.setup {} underflow input.text).StopsAtErrors 6 := by
    constructor
    · intro origin callback _ found
      obtain ⟨script, rfl, -⟩ := scripts origin callback found
      exact script.stopsAtErrors _
    · intro origin callback _ found
      obtain ⟨script, rfl, keeps⟩ := scripts origin callback found
      exact Script.keepsBindings keeps _
  exact ⟨stops, (matchIn_raises_first_error stops 0).1, by rfl⟩

end Graph

end PegEngine
