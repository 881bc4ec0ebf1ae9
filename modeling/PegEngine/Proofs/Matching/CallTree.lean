import PegEngine.Proofs.Callback.Conduct
import PegEngine.Proofs.Matching.Routine

/-!
Contract: the call tree of a match, and the events that it stands for.

The evaluation here hands bindings and stacks on by value, and each call gets its place on the call
path as an argument. Nothing is saved or brought back on the way, and nothing is reported: the calls
are the result, in a tree. What a trace reports is read off the tree afterwards, with the trace
options that are in effect by the path.

Owns:
- `Memory` and `Scope`, what a call is given besides its pattern and position;
- `CallTree`, with its `events`, and what it looks like after an outcome (`Complete`) and after an
  error (`Breaks`);
- `evaluate`, and `Graph.evaluateIn` for a match from the outside;
- `evaluate_shaped`, that the calls without an outcome are those on the way to an error.
-/

namespace PegEngine

namespace Matching

/-- What patterns change: the names bound so far, and the stacks with their journal. -/
structure Memory where
  bindings : Bindings
  stackTable : StackTable
deriving DecidableEq, Repr

/-- Where a call stands: the calls that it is made for, the innermost first, itself included, and
the nesting and the trace options in effect around the outermost of them. -/
structure Scope where
  depth : Nat
  options : Option TraceOptions
  path : List PatternId := []

namespace Scope

/-- The place of a call that is made here. -/
def inside (scope : Scope) (pattern : PatternId) : Scope :=
  { scope with path := pattern :: scope.path }

/-- The trace options of the innermost call on the path whose node carries some, or else those
around all of them. -/
def inEffect (scope : Scope) (graph : Graph) : Option TraceOptions :=
  scope.path.findSome? (fun pattern => (graph.node pattern).trace) <|> scope.options

def nesting (scope : Scope) : Nat :=
  scope.depth + scope.path.length

/-- The changes of the stacks that the outermost call leaves are kept for good. -/
def settle (scope : Scope) (memory : Memory) : Memory :=
  if scope.nesting = 0 then { memory with stackTable := memory.stackTable.commit } else memory

/-- What a callback can look at here. -/
def view (scope : Scope) (graph : Graph) (memory : Memory) : CallbackView where
  bindings := memory.bindings
  stackTable := memory.stackTable
  depth := scope.nesting
  trace := scope.inEffect graph

@[simp] theorem nesting_inside (scope : Scope) (pattern : PatternId) :
    (scope.inside pattern).nesting = scope.nesting + 1 := by
  simp only [nesting, inside, List.length_cons]
  omega

/-- A node's own trace options come before those in effect around its call. -/
@[simp] theorem inEffect_inside (scope : Scope) (graph : Graph) (pattern : PatternId) :
    (scope.inside pattern).inEffect graph =
      ((graph.node pattern).trace <|> scope.inEffect graph) := by
  unfold inEffect inside
  cases own : (graph.node pattern).trace <;> simp [own]

end Scope

/-- A pattern call, with the calls that were made for it in order. -/
inductive CallTree where
  /-- Refused because it would nest too deep. -/
  | refused (pattern : PatternId) (index : Nat)
  /-- Carried out: with the memory at its begin and the one that its node came to. -/
  | call (pattern : PatternId) (index : Nat) (before after : Memory)
      (answer : Except MatchError (Option Match)) (below : List CallTree)

namespace CallTree

/-- The event of one side of a call, if the trace options in effect at its place allow it. -/
def side (setup : Setup) (here : Scope) (pattern : PatternId) (index : Nat) (memory : Memory)
    (phase : Phase) : List Attempt :=
  match here.inEffect setup.graph with
  | none => []
  | some options =>
      let attempt := Attempt.ofPattern setup.graph pattern setup.text index memory.bindings
        memory.stackTable phase
      if options.allows attempt then [attempt] else []

mutual

/-- The events of a call that is made at a place: one before all events of the calls made for it,
and one behind them that carries its outcome. A call without an outcome has no second event, and
one that is refused has none at all. -/
def events (setup : Setup) (scope : Scope) : CallTree → List Attempt
  | .refused _ _ => []
  | .call pattern index before after answer below =>
      let here := scope.inside pattern
      side setup here pattern index before .before ++ eventsAll setup here below ++
        match answer with
        | .ok outcome => side setup here pattern index after (.after outcome)
        | .error _ => []

/-- The events of calls that are made at one place, one after the other. -/
def eventsAll (setup : Setup) (scope : Scope) : List CallTree → List Attempt
  | [] => []
  | tree :: rest => tree.events setup scope ++ eventsAll setup scope rest

end

theorem eventsAll_append (setup : Setup) (scope : Scope) (trees others : List CallTree) :
    eventsAll setup scope (trees ++ others) =
      eventsAll setup scope trees ++ eventsAll setup scope others := by
  induction trees with
  | nil => rfl
  | cons tree rest inductionHypothesis =>
      simp only [List.cons_append, eventsAll, inductionHypothesis, List.append_assoc]

/-- Every call has an outcome. -/
inductive Complete : CallTree → Prop where
  | call {pattern : PatternId} {index : Nat} {before after : Memory} {outcome : Option Match}
      {below : List CallTree} (each : ∀ tree ∈ below, tree.Complete) :
      Complete (.call pattern index before after (.ok outcome) below)

/-- The calls without an outcome are those on one way down from the outermost call, each of them the
last one that is made for the one before it. At the end of the way the error arose. -/
inductive Breaks : CallTree → Prop where
  | refused {pattern : PatternId} {index : Nat} : Breaks (.refused pattern index)
  | here {pattern : PatternId} {index : Nat} {before after : Memory} {error : MatchError}
      {below : List CallTree} (each : ∀ tree ∈ below, tree.Complete) :
      Breaks (.call pattern index before after (.error error) below)
  | deeper {pattern : PatternId} {index : Nat} {before after : Memory} {error : MatchError}
      {earlier : List CallTree} {last : CallTree} (each : ∀ tree ∈ earlier, tree.Complete)
      (breaks : last.Breaks) :
      Breaks (.call pattern index before after (.error error) (earlier ++ [last]))

end CallTree

/-- The end of a part of an evaluation: its answer, the memory that it leaves, and the calls that
were made, in order. -/
structure Evaluation (α : Type) where
  answer : Except MatchError α
  memory : Memory
  calls : List CallTree := []

/-- The end of a pattern call. -/
structure Called where
  answer : Except MatchError (Option Match)
  memory : Memory
  tree : CallTree

/-- Match a pattern at a position, given the memory. -/
abbrev Callee := PatternId → Nat → Memory → Called

namespace Evaluation

variable {α β : Type}

/-- Go on after a call. -/
def after (called : Called) (next : Except MatchError (Option Match) → Memory → Evaluation α) :
    Evaluation α :=
  let later := next called.answer called.memory
  { later with calls := called.tree :: later.calls }

/-- Go on with the value of an evaluation. Its error ends both. -/
def andThen (first : Evaluation α) (next : α → Memory → Evaluation β) : Evaluation β :=
  match first.answer with
  | .ok value =>
      let later := next value first.memory
      { later with calls := first.calls ++ later.calls }
  | .error error => { answer := .error error, memory := first.memory, calls := first.calls }

end Evaluation

/-- Carry out the requests of a callback in order. -/
def evaluateProgram (view : Memory → CallbackView) (call : Callee) :
    Program → Memory → Evaluation CallbackOutcome
  | .finish outcome, memory => { answer := .ok outcome, memory }
  | .fail error, memory => { answer := .error error, memory }
  | .inspect next, memory => evaluateProgram view call (next (view memory)) memory
  | .bind name value next, memory =>
      evaluateProgram view call next { memory with bindings := memory.bindings.bind name value }
  | .restore number next, memory =>
      match memory.bindings.restore number with
      | .ok bindings => evaluateProgram view call (next (.ok ())) { memory with bindings }
      | .error error => evaluateProgram view call (next (.error error)) memory
  | .push stack value next, memory =>
      evaluateProgram view call next
        { memory with stackTable := memory.stackTable.push stack value }
  | .pop stack next, memory =>
      evaluateProgram view call (next (memory.stackTable.pop stack).1)
        { memory with stackTable := (memory.stackTable.pop stack).2 }
  | .popMany stack count position next, memory =>
      match memory.stackTable.popMany stack count position with
      | .ok (values, stackTable) =>
          evaluateProgram view call (next (.ok values)) { memory with stackTable }
      | .error error => evaluateProgram view call (next (.error error)) memory
  | .commit next, memory =>
      evaluateProgram view call next { memory with stackTable := memory.stackTable.commit }
  | .rollback checkpoint next, memory =>
      evaluateProgram view call next
        { memory with stackTable := memory.stackTable.rollback checkpoint }
  | .run pattern index next, memory =>
      .after (call pattern index memory) fun answer memory =>
        evaluateProgram view call (next answer) memory

/-- Carry out the requests of a routine in order. -/
def evaluateRoutine {α : Type} (view : Memory → CallbackView) (call : Callee) :
    Routine α → Memory → Evaluation α
  | .finish value, memory => { answer := .ok value, memory }
  | .fail error, memory => { answer := .error error, memory }
  | .look next, memory =>
      evaluateRoutine view call (next memory.bindings memory.stackTable) memory
  | .bind name value next, memory =>
      evaluateRoutine view call next { memory with bindings := memory.bindings.bind name value }
  | .restack stackTable next, memory =>
      evaluateRoutine view call next { memory with stackTable }
  | .note _ next, memory => evaluateRoutine view call next memory
  | .invoke pattern index next, memory =>
      .after (call pattern index memory) fun
        | .ok outcome, memory => evaluateRoutine view call (next outcome) memory
        | .error error, memory => { answer := .error error, memory }
  | .perform program next, memory =>
      (evaluateProgram view call program memory).andThen fun outcome memory =>
        evaluateRoutine view call (next outcome) memory

namespace Evaluation

/-- What is left of a call: all that was done for a match, and otherwise the bindings from before
and the stacks with their changes undone. -/
def left (body : Evaluation (Option Match)) (scope : Scope) (before : Memory) : Memory :=
  scope.settle <|
    match body.answer with
    | .ok (some _) => body.memory
    | .ok none | .error _ =>
        { bindings := before.bindings
          stackTable := body.memory.stackTable.rollback before.stackTable.checkpoint }

/-- The call whose node came to this end. An error is attributed to the pattern's name. -/
def called (body : Evaluation (Option Match)) (graph : Graph) (scope : Scope) (pattern : PatternId)
    (i : Nat) (before : Memory) : Called :=
  let answer := body.answer.mapError (·.inPattern (graph.name? pattern))
  { answer
    memory := body.left scope before
    tree := .call pattern i before body.memory answer body.calls }

end Evaluation

/-- Call a pattern at a position, at most `room` calls deep. -/
def evaluate (setup : Setup) : (room : Nat) → Scope → Callee
  | 0, _, pattern, index, memory =>
      let i := min index setup.text.length
      { answer := .error (.recursionLimit setup.limit i), memory, tree := .refused pattern i }
  | room + 1, scope, pattern, index, memory =>
      let i := min index setup.text.length
      let here := scope.inside pattern
      let body := evaluateRoutine (here.view setup.graph) (evaluate setup room here)
        (Routine.ofKind setup i (setup.graph.kind pattern)) memory
      body.called setup.graph scope pattern i memory

/-! ## Which calls have an outcome -/

/-- What the calls of an evaluation look like: all of them have an outcome, or all but the last, at
which the error of the evaluation came up. -/
inductive Shaped {α : Type} : Except MatchError α → List CallTree → Prop where
  | complete {answer : Except MatchError α} {calls : List CallTree}
      (each : ∀ tree ∈ calls, tree.Complete) : Shaped answer calls
  | broken {error : MatchError} {earlier : List CallTree} {last : CallTree}
      (each : ∀ tree ∈ earlier, tree.Complete) (breaks : last.Breaks) :
      Shaped (.error error) (earlier ++ [last])

/-- A call has an outcome, or it is on the way to where an error came up. -/
def Called.Shaped (called : Called) : Prop :=
  match called.answer with
  | .ok _ => called.tree.Complete
  | .error _ => called.tree.Breaks

section Shape

variable {α : Type} {view : Memory → CallbackView} {callee : Callee}

/-- Calls that have an outcome may come before. -/
theorem Shaped.append {answer : Except MatchError α} {calls later : List CallTree}
    (each : ∀ tree ∈ calls, tree.Complete) (shaped : Shaped answer later) :
    Shaped answer (calls ++ later) := by
  cases shaped with
  | complete every =>
      apply Shaped.complete
      simpa [or_imp, forall_and] using ⟨each, every⟩
  | broken every breaks =>
      rw [← List.append_assoc]
      apply Shaped.broken _ breaks
      simpa [or_imp, forall_and] using ⟨each, every⟩

/-- A program that ends with an error makes no calls on the way. -/
theorem evaluateProgram_of_endsWith (view : Memory → CallbackView) (callee : Callee)
    {error : MatchError} {program : Program} (ends : program.EndsWith error) (memory : Memory) :
    (evaluateProgram view callee program memory).answer = .error error ∧
      (evaluateProgram view callee program memory).calls = [] := by
  induction program generalizing memory with
  | finish | run => cases ends
  | fail other =>
      cases ends
      exact ⟨rfl, rfl⟩
  | inspect next inductionHypothesis => exact inductionHypothesis _ (ends _) _
  | bind _ _ next inductionHypothesis | push _ _ next inductionHypothesis
  | commit next inductionHypothesis | rollback _ next inductionHypothesis =>
      exact inductionHypothesis ends _
  | pop stack next inductionHypothesis => exact inductionHypothesis _ (ends _) _
  | restore number next inductionHypothesis =>
      simp only [evaluateProgram]
      split <;> exact inductionHypothesis _ (ends _) _
  | popMany stack count position next inductionHypothesis =>
      simp only [evaluateProgram]
      split <;> exact inductionHypothesis _ (ends _) _

theorem evaluateProgram_shaped {program : Program} (passes : program.PassesErrors)
    (calls : ∀ pattern, program.Runs pattern → ∀ index memory,
      (callee pattern index memory).Shaped) (memory : Memory) :
    Shaped (evaluateProgram view callee program memory).answer
      (evaluateProgram view callee program memory).calls := by
  induction program generalizing memory with
  | finish | fail => exact .complete (by simp [evaluateProgram])
  | inspect next inductionHypothesis =>
      exact inductionHypothesis _ (passes _) (fun pattern runs => calls pattern ⟨_, runs⟩) _
  | bind _ _ next inductionHypothesis | push _ _ next inductionHypothesis
  | commit next inductionHypothesis | rollback _ next inductionHypothesis =>
      exact inductionHypothesis passes calls _
  | pop stack next inductionHypothesis =>
      exact inductionHypothesis _ (passes _) (fun pattern runs => calls pattern ⟨_, runs⟩) _
  | restore number next inductionHypothesis =>
      simp only [evaluateProgram]
      split <;>
        exact inductionHypothesis _ (passes _) (fun pattern runs => calls pattern ⟨_, runs⟩) _
  | popMany stack count position next inductionHypothesis =>
      simp only [evaluateProgram]
      split <;>
        exact inductionHypothesis _ (passes _) (fun pattern runs => calls pattern ⟨_, runs⟩) _
  | run pattern index next inductionHypothesis =>
      have first := calls pattern (Or.inl rfl) index memory
      unfold Called.Shaped at first
      simp only [evaluateProgram, Evaluation.after]
      cases answered : (callee pattern index memory).answer with
      | ok outcome =>
          rw [answered] at first
          have later := inductionHypothesis (.ok outcome) (passes.1 outcome)
            (fun other runs => calls other (Or.inr ⟨_, runs⟩)) (callee pattern index memory).memory
          exact Shaped.append (List.forall_mem_singleton.mpr first) later
      | error error =>
          rw [answered] at first
          obtain ⟨answer, none⟩ := evaluateProgram_of_endsWith view callee
            (passes.2 error) (callee pattern index memory).memory
          simp only [answer, none]
          exact Shaped.broken (List.forall_mem_nil _) first

theorem evaluateRoutine_shaped {patterns : PatternId → Prop} {programs : Program → Prop}
    (calls : ∀ pattern, patterns pattern → ∀ index memory, (callee pattern index memory).Shaped)
    (performs : ∀ program, programs program → ∀ memory,
      Shaped (evaluateProgram view callee program memory).answer
        (evaluateProgram view callee program memory).calls)
    {routine : Routine α} (keeps : routine.KeepsTo patterns programs) (memory : Memory) :
    Shaped (evaluateRoutine view callee routine memory).answer
      (evaluateRoutine view callee routine memory).calls := by
  induction routine generalizing memory with
  | finish | fail => exact .complete (by simp [evaluateRoutine])
  | look next inductionHypothesis => exact inductionHypothesis _ _ (keeps _ _) _
  | bind _ _ next inductionHypothesis | restack _ next inductionHypothesis
  | note _ next inductionHypothesis => exact inductionHypothesis keeps _
  | invoke pattern index next inductionHypothesis =>
      have first := calls pattern keeps.1 index memory
      unfold Called.Shaped at first
      simp only [evaluateRoutine, Evaluation.after]
      cases answered : (callee pattern index memory).answer with
      | ok outcome =>
          rw [answered] at first
          have later := inductionHypothesis outcome (keeps.2 outcome)
            (callee pattern index memory).memory
          exact Shaped.append (List.forall_mem_singleton.mpr first) later
      | error error =>
          rw [answered] at first
          exact Shaped.broken (List.forall_mem_nil _) first
  | perform program next inductionHypothesis =>
      have first := performs program keeps.1 memory
      simp only [evaluateRoutine, Evaluation.andThen]
      cases answered : (evaluateProgram view callee program memory).answer with
      | ok outcome =>
          rw [answered] at first
          cases first with
          | complete each =>
              exact (inductionHypothesis outcome (keeps.2 outcome) _).append each
      | error error =>
          rw [answered] at first
          generalize (evaluateProgram view callee program memory).calls = trees at first ⊢
          cases first with
          | complete each => exact .complete each
          | broken each breaks => exact .broken each breaks

/-- A call has the shape that the calls of its node give it. -/
theorem called_shaped {body : Evaluation (Option Match)} (shaped : Shaped body.answer body.calls)
    (graph : Graph) (scope : Scope) (pattern : PatternId) (i : Nat) (before : Memory) :
    (body.called graph scope pattern i before).Shaped := by
  unfold Called.Shaped Evaluation.called
  generalize body.answer = answer at shaped ⊢
  generalize body.calls = calls at shaped ⊢
  cases answer with
  | ok outcome =>
      cases shaped with
      | complete each => exact .call each
  | error error =>
      cases shaped with
      | complete each => exact .here each
      | broken each breaks => exact .deeper each breaks

end Shape

/-- All calls have an outcome, but those on the way to the error that ends them. -/
theorem evaluate_shaped {setup : Setup} (room : Nat) {pattern : PatternId}
    (passes : ∀ origin callback, setup.graph.Reaches pattern origin →
      setup.graph.kind origin = .function callback → callback.PassesErrors setup.text)
    (scope : Scope) (index : Nat) (memory : Memory) :
    (evaluate setup room scope pattern index memory).Shaped := by
  induction room generalizing scope pattern index memory with
  | zero => exact .refused
  | succ room inductionHypothesis =>
      have below : ∀ next, setup.graph.Calls pattern next → ∀ index memory,
          (evaluate setup room (scope.inside pattern) next index memory).Shaped :=
        fun next step => inductionHypothesis
          (fun origin callback reaches => passes origin callback (.of_calls step reaches)) _
      apply called_shaped
      apply evaluateRoutine_shaped (fun next leads => below next (Or.inl leads)) ?_
        (Routine.keepsTo_ofKind setup _ pattern)
      rintro program ⟨callback, found, rfl⟩
      apply evaluateProgram_shaped
      · exact passes pattern callback .refl found _ (Nat.min_le_right ..)
      · exact fun next runs => below next (Or.inr ⟨callback, _, _, found, runs⟩)

end Matching

/-- The place of the calls that a match from the outside makes. -/
def Context.scope (context : Context) : Matching.Scope where
  depth := context.depth
  options := context.config.trace

/-- The evaluation that a match in a context amounts to. -/
def Graph.evaluateIn (graph : Graph) (pattern : PatternId) (input : Input) (index : Nat)
    (context : Context) : Matching.Called :=
  Matching.evaluate (context.setup graph input.text) (context.config.limit - context.depth)
    context.scope pattern index { bindings := input.bindings, stackTable := context.stackTable }

end PegEngine
