import PegEngine.Callback.Script
import PegEngine.Matching.Engine
import PegEngine.Proofs.Reachability

/-!
Contract: callbacks that pass on errors and keep the bindings that they find.

A callback may clean up after the error of a match, but it ends with that error and matches nothing
more. It may cut the bindings back, though not below their number when it began: what a node bound
before stays. Commits and rollbacks of the stacks are its own affair.

Owns:
- `Program.PassesErrors`, for the error of a match that the program runs;
- `Program.StopsAtErrors`, for the errors of all operations that the program asks for;
- `Program.RestoresFrom`, for the restores that a program comes to in a match;
- `Setup.Conducts` and `Setup.StopsAtErrors`, for all callbacks that a pattern comes to;
- `Script.Closed`, for properties that the programs of scripts have by what their steps ask for;
- that scripts stop at errors, and keep the bindings if they have no step that restores.
-/

namespace PegEngine

namespace Program

/-- However it goes on, the program ends with `error`, and runs no match before. -/
def EndsWith (error : MatchError) : Program → Prop
  | .finish _ | .run _ _ _ => False
  | .fail other => other = error
  | .inspect next => ∀ view, (next view).EndsWith error
  | .bind _ _ next | .push _ _ next | .commit next | .rollback _ next => next.EndsWith error
  | .restore _ next => ∀ answer, (next answer).EndsWith error
  | .pop _ next => ∀ value, (next value).EndsWith error
  | .popMany _ _ _ next => ∀ answer, (next answer).EndsWith error

/-- The error of a match that the program runs becomes its own. -/
def PassesErrors : Program → Prop
  | .finish _ | .fail _ => True
  | .inspect next => ∀ view, (next view).PassesErrors
  | .bind _ _ next | .push _ _ next | .commit next | .rollback _ next => next.PassesErrors
  | .restore _ next => ∀ answer, (next answer).PassesErrors
  | .pop _ next => ∀ value, (next value).PassesErrors
  | .popMany _ _ _ next => ∀ answer, (next answer).PassesErrors
  | .run _ _ next =>
      (∀ outcome, (next (.ok outcome)).PassesErrors) ∧
        ∀ error, (next (.error error)).EndsWith error

/-- The first error that the program meets becomes its own, be it that of a match or of one of its
other requests. -/
def StopsAtErrors : Program → Prop
  | .finish _ | .fail _ => True
  | .inspect next => ∀ view, (next view).StopsAtErrors
  | .bind _ _ next | .push _ _ next | .commit next | .rollback _ next => next.StopsAtErrors
  | .restore _ next =>
      (next (.ok ())).StopsAtErrors ∧ ∀ error, (next (.error error)).EndsWith error
  | .pop _ next => ∀ value, (next value).StopsAtErrors
  | .popMany _ _ _ next =>
      (∀ values, (next (.ok values)).StopsAtErrors) ∧
        ∀ error, (next (.error error)).EndsWith error
  | .run _ _ next =>
      (∀ outcome, (next (.ok outcome)).StopsAtErrors) ∧
        ∀ error, (next (.error error)).EndsWith error

/-- Carried out from a state of the match, the program cuts the bindings to no fewer than
`least`. -/
def RestoresFrom (call : Caller) (least : Nat) : Program → MatchState → Prop
  | .finish _, _ | .fail _, _ => True
  | .inspect next, state => (next state.view).RestoresFrom call least state
  | .bind name value next, state =>
      next.RestoresFrom call least { state with bindings := state.bindings.bind name value }
  | .restore number next, state =>
      least ≤ number ∧
        match state.bindings.restore number with
        | .ok bindings => (next (.ok ())).RestoresFrom call least { state with bindings }
        | .error error => (next (.error error)).RestoresFrom call least state
  | .push stack value next, state =>
      next.RestoresFrom call least
        { state with stackTable := state.stackTable.push stack value }
  | .pop stack next, state =>
      (next (state.stackTable.pop stack).1).RestoresFrom call least
        { state with stackTable := (state.stackTable.pop stack).2 }
  | .popMany stack count position next, state =>
      match state.stackTable.popMany stack count position with
      | .ok (values, stackTable) =>
          (next (.ok values)).RestoresFrom call least { state with stackTable }
      | .error error => (next (.error error)).RestoresFrom call least state
  | .commit next, state =>
      next.RestoresFrom call least { state with stackTable := state.stackTable.commit }
  | .rollback checkpoint next, state =>
      next.RestoresFrom call least
        { state with stackTable := state.stackTable.rollback checkpoint }
  | .run pattern index next, state =>
      match call pattern index state with
      | .ok outcome reached => (next (.ok outcome)).RestoresFrom call least reached
      | .error error reached => (next (.error error)).RestoresFrom call least reached

end Program

/-- The callback passes on the errors of its matches wherever it is called in the text. -/
def Callback.PassesErrors (text : Text) (callback : Callback) : Prop :=
  ∀ i ≤ text.length, (callback.program text i).PassesErrors

/-- The callback ends with the first error that it meets, wherever it is called in the text. -/
def Callback.StopsAtErrors (text : Text) (callback : Callback) : Prop :=
  ∀ i ≤ text.length, (callback.program text i).StopsAtErrors

/-- In whatever state of a match the callback is called, all bindings that it finds stay. -/
def Callback.KeepsBindings (setup : Setup) (callback : Callback) : Prop :=
  ∀ i ≤ setup.text.length, ∀ entry : MatchState,
    (callback.program setup.text i).RestoresFrom
      (Matching.call setup (setup.limit - entry.depth)) entry.bindings.count entry

/-- The callbacks that `pattern` comes to pass on errors and keep bindings. -/
structure Setup.Conducts (setup : Setup) (pattern : PatternId) : Prop where
  passes : ∀ origin callback, setup.graph.Reaches pattern origin →
    setup.graph.kind origin = .function callback → callback.PassesErrors setup.text
  keeps : ∀ origin callback, setup.graph.Reaches pattern origin →
    setup.graph.kind origin = .function callback → callback.KeepsBindings setup

theorem Setup.Conducts.of_calls {setup : Setup} {pattern next : PatternId}
    (conducts : setup.Conducts pattern) (step : setup.graph.Calls pattern next) :
    setup.Conducts next where
  passes origin callback reaches := conducts.passes origin callback (.of_calls step reaches)
  keeps origin callback reaches := conducts.keeps origin callback (.of_calls step reaches)

/-- The callbacks that `pattern` comes to end with the first error that they meet and keep
bindings. -/
structure Setup.StopsAtErrors (setup : Setup) (pattern : PatternId) : Prop where
  stops : ∀ origin callback, setup.graph.Reaches pattern origin →
    setup.graph.kind origin = .function callback → callback.StopsAtErrors setup.text
  keeps : ∀ origin callback, setup.graph.Reaches pattern origin →
    setup.graph.kind origin = .function callback → callback.KeepsBindings setup

theorem Setup.StopsAtErrors.of_calls {setup : Setup} {pattern next : PatternId}
    (stops : setup.StopsAtErrors pattern) (step : setup.graph.Calls pattern next) :
    setup.StopsAtErrors next where
  stops origin callback reaches := stops.stops origin callback (.of_calls step reaches)
  keeps origin callback reaches := stops.keeps origin callback (.of_calls step reaches)

/-! ## Scripts -/

/-- The step does not cut the bindings. -/
def ScriptStep.keepsBindings : ScriptStep → Bool
  | .restore _ => false
  | _ => true

namespace Script

/-- The property is closed under all that the script may ask for, with a clause for every verdict
that looks at the match and for every step. An error of a request ends the script. -/
structure Closed (script : Script) (property : Program → Prop) : Prop where
  finish (outcome : CallbackOutcome) : property (.finish outcome)
  state (asked : script.verdict = .state) (outcome : CallbackView → CallbackOutcome) :
    property (.inspect fun view => .finish (outcome view))
  bound (outcome : Bindings → CallbackOutcome) :
    property (.inspect fun view => .finish (outcome view.bindings))
  mark {next : Checkpoint → Program} (rest : ∀ mark, property (next mark)) :
    property (.inspect fun view => next view.stackTable.checkpoint)
  bind {name : String} {value : Capture} {next : Program} (rest : property next) :
    property (.bind name value next)
  restore {number : Nat} {next : Program} (asked : .restore number ∈ script.steps)
    (rest : property next) : property (.restore number (orFail fun _ => next))
  push {stack : String} {value : Capture} {next : Program} (rest : property next) :
    property (.push stack value next)
  pop {stack : String} {next : Program} (rest : property next) :
    property (.pop stack fun _ => next)
  popMany {stack : String} {count position : Nat} {next : Program} (rest : property next) :
    property (.popMany stack count position (orFail fun _ => next))
  commit {next : Program} (rest : property next) : property (.commit next)
  rollback {checkpoint : Checkpoint} {next : Program} (rest : property next) :
    property (.rollback checkpoint next)
  run {pattern : PatternId} {index : Nat} {next : Option Match → Program}
    (rest : ∀ outcome, property (next outcome)) : property (.run pattern index (orFail next))

namespace Closed

variable {script : Script} {property : Program → Prop}

theorem conclude (closed : script.Closed property) (text : Text) (i : Nat) (last : Option Match) :
    property (Script.conclude text i last script.verdict) := by
  cases decided : script.verdict with
  | last => cases last <;> exact closed.finish _
  | state => exact closed.state decided _
  | bound name =>
      exact closed.bound fun bindings => .found
        { source := text, start := i, stop := i, captures := (bindings.lookup? name).toList }
  | _ => exact closed.finish _

theorem proceed (closed : script.Closed property) (text : Text) (i : Nat) (last : Option Match)
    (mark : Checkpoint) {steps : List ScriptStep} (part : steps ⊆ script.steps) :
    property (Script.proceed text i script.verdict last mark steps) := by
  induction steps generalizing last mark with
  | nil => exact closed.conclude text i last
  | cons step rest inductionHypothesis =>
      obtain ⟨asked, later⟩ := List.cons_subset.mp part
      cases step with
      | bind => exact closed.bind (inductionHypothesis last mark later)
      | restore => exact closed.restore asked (inductionHypothesis last mark later)
      | push => exact closed.push (inductionHypothesis last mark later)
      | pop => exact closed.pop (inductionHypothesis last mark later)
      | popMany => exact closed.popMany (inductionHypothesis last mark later)
      | commit => exact closed.commit (inductionHypothesis last mark later)
      | mark => exact closed.mark fun mark => inductionHypothesis last mark later
      | rollback => exact closed.rollback (inductionHypothesis last mark later)
      | run => exact closed.run fun outcome => inductionHypothesis outcome mark later

/-- The program of a script has all properties that are closed under what it does. -/
theorem program (closed : script.Closed property) (text : Text) (i : Nat) :
    property (script.callback.program text i) :=
  closed.mark fun mark => closed.proceed text i none mark (List.Subset.refl _)

end Closed

theorem closed_stopsAtErrors (script : Script) : script.Closed Program.StopsAtErrors where
  finish _ := trivial
  state _ _ _ := trivial
  bound _ _ := trivial
  mark rest _ := rest _
  bind rest := rest
  restore _ rest := ⟨rest, fun _ => rfl⟩
  push rest := rest
  pop rest _ := rest
  popMany rest := ⟨fun _ => rest, fun _ => rfl⟩
  commit rest := rest
  rollback rest := rest
  run rest := ⟨rest, fun _ => rfl⟩

/-- Scripts end with the first error that they meet. -/
theorem stopsAtErrors (script : Script) (text : Text) : script.callback.StopsAtErrors text :=
  fun i _ => script.closed_stopsAtErrors.program text i

theorem closed_restoresFrom {script : Script} (keeps : ∀ step ∈ script.steps, step.keepsBindings)
    (call : Caller) (least : Nat) :
    script.Closed fun program => ∀ state, program.RestoresFrom call least state where
  finish _ _ := trivial
  state _ _ _ := trivial
  bound _ _ := trivial
  mark rest state := rest _ state
  bind rest _ := rest _
  restore asked _ := nomatch keeps _ asked
  push rest _ := rest _
  pop rest _ := rest _
  popMany rest state := by
    simp only [Program.RestoresFrom]
    split
    · exact rest _
    · trivial
  commit rest _ := rest _
  rollback rest _ := rest _
  run rest state := by
    simp only [Program.RestoresFrom]
    split
    · exact rest _ _
    · trivial

/-- A script that has no step to restore bindings leaves them all. -/
theorem keepsBindings {script : Script} (keeps : ∀ step ∈ script.steps, step.keepsBindings)
    (setup : Setup) : script.callback.KeepsBindings setup :=
  fun i _ entry => (closed_restoresFrom keeps _ _).program setup.text i entry

end Script

end PegEngine
