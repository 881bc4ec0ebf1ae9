import PegEngine.Callback.Script
import PegEngine.Proofs.Matching.Extension
import PegEngine.Proofs.Reachability

/-!
Contract: the courses that a callback can take.

A callback's program advances from request to request. Its own requests have one outcome each; a
nested match may have any that `nested` permits. So a course covers what the program does in every
match that it can be part of.

Owns:
- `Program.Step` and `Program.Course`, one request and any number of them;
- `runProgram_course`, that the running match follows a course to its end;
- `Callback.Lawful`, the callbacks that commit nothing and undo nothing older than themselves, and
  that the state grows along their courses;
- `Callback.IsRefused` and `Callback.Invents`, the two ways in which a callback is the origin of an
  error about bindings.
-/

namespace PegEngine

/-- A callback under way: what is left of its program, and the state of the match. -/
structure Moment where
  program : Program
  state : MatchState

/-- Which answers a nested match may have, and which states it may leave. -/
abbrev Nested := MatchState → Except MatchError (Option Match) → MatchState → Prop

namespace Program

/-- One request of a program is answered. The program's own requests are refused with `own` errors
only. -/
inductive Step (nested : Nested) (own : MatchError → Prop) : Moment → Moment → Prop where
  | inspect {next state} :
      Step nested own ⟨.inspect next, state⟩ ⟨next state.view, state⟩
  | bind {name value next state} :
      Step nested own ⟨.bind name value next, state⟩
        ⟨next, { state with bindings := state.bindings.bind name value }⟩
  | restored {number next state bindings}
      (restored : state.bindings.restore number = .ok bindings) :
      Step nested own ⟨.restore number next, state⟩ ⟨next (.ok ()), { state with bindings }⟩
  | notRestored {number next state error}
      (refused : state.bindings.restore number = .error error) (permitted : own error) :
      Step nested own ⟨.restore number next, state⟩ ⟨next (.error error), state⟩
  | push {stack value next state} :
      Step nested own ⟨.push stack value next, state⟩
        ⟨next, { state with stackTable := state.stackTable.push stack value }⟩
  | pop {stack next state} :
      Step nested own ⟨.pop stack next, state⟩
        ⟨next (state.stackTable.pop stack).1,
          { state with stackTable := (state.stackTable.pop stack).2 }⟩
  | popped {stack count position next state values stackTable}
      (popped : state.stackTable.popMany stack count position = .ok (values, stackTable)) :
      Step nested own ⟨.popMany stack count position next, state⟩
        ⟨next (.ok values), { state with stackTable }⟩
  | notPopped {stack count position next state error}
      (refused : state.stackTable.popMany stack count position = .error error)
      (permitted : own error) :
      Step nested own ⟨.popMany stack count position next, state⟩ ⟨next (.error error), state⟩
  | commit {next state} :
      Step nested own ⟨.commit next, state⟩
        ⟨next, { state with stackTable := state.stackTable.commit }⟩
  | rollback {checkpoint next state} :
      Step nested own ⟨.rollback checkpoint next, state⟩
        ⟨next, { state with stackTable := state.stackTable.rollback checkpoint }⟩
  | run {pattern index next state answer reached} (answered : nested state answer reached) :
      Step nested own ⟨.run pattern index next, state⟩ ⟨next answer, reached⟩

/-- Any number of requests. -/
def Course (nested : Nested) (own : MatchError → Prop) (first last : Moment) : Prop :=
  Relation.ReflTransGen (Step nested own) first last

theorem Course.of_step {nested : Nested} {own : MatchError → Prop} {first next last : Moment}
    (step : Step nested own first next) (rest : Course nested own next last) :
    Course nested own first last :=
  Relation.ReflTransGen.head step rest

end Program

/-! ## The running match follows a course -/

namespace Matching

/-- The last moment of a course that ended so. -/
def lastMoment : EStateM.Result MatchError MatchState CallbackOutcome → Moment
  | .ok outcome state => ⟨.finish outcome, state⟩
  | .error error state => ⟨.fail error, state⟩

end Matching

open Matching in
/-- Carrying out a program follows one of its courses to the end. What is asked of nested matches
holds at the depth at which the program began, since they do not change it. -/
theorem Program.runProgram_course {nested : Nested} {call : Caller}
    (sameDepth : ∀ state answer reached, nested state answer reached →
      reached.depth = state.depth)
    (program : Program) (state : MatchState)
    (calls : ∀ pattern, program.Runs pattern → ∀ index reached, reached.depth = state.depth →
      nested reached (answerOf (call pattern index reached))
        (stateOf (call pattern index reached))) :
    Course nested (fun _ => True) ⟨program, state⟩
      (lastMoment (runProgram call program state)) := by
  generalize level : state.depth = depth at calls
  induction program generalizing state with
  | finish outcome => exact .refl
  | fail error => exact .refl
  | inspect next inductionHypothesis =>
      refine .of_step .inspect (inductionHypothesis _ _ level ?_)
      exact fun pattern runs => calls pattern ⟨_, runs⟩
  | bind name value next inductionHypothesis =>
      exact .of_step .bind (inductionHypothesis _ level calls)
  | restore number next inductionHypothesis =>
      cases restored : state.bindings.restore number with
      | ok bindings =>
          simp only [runProgram, restored]
          refine .of_step (.restored restored) (inductionHypothesis _ _ level ?_)
          exact fun pattern runs => calls pattern ⟨_, runs⟩
      | error error =>
          simp only [runProgram, restored]
          refine .of_step (.notRestored restored trivial) (inductionHypothesis _ _ level ?_)
          exact fun pattern runs => calls pattern ⟨_, runs⟩
  | push stack value next inductionHypothesis =>
      exact .of_step .push (inductionHypothesis _ level calls)
  | pop stack next inductionHypothesis =>
      refine .of_step .pop (inductionHypothesis _ _ level ?_)
      exact fun pattern runs => calls pattern ⟨_, runs⟩
  | popMany stack count position next inductionHypothesis =>
      cases popped : state.stackTable.popMany stack count position with
      | ok taken =>
          obtain ⟨values, stackTable⟩ := taken
          simp only [runProgram, popped]
          refine .of_step (.popped popped) (inductionHypothesis _ _ level ?_)
          exact fun pattern runs => calls pattern ⟨_, runs⟩
      | error error =>
          simp only [runProgram, popped]
          refine .of_step (.notPopped popped trivial) (inductionHypothesis _ _ level ?_)
          exact fun pattern runs => calls pattern ⟨_, runs⟩
  | commit next inductionHypothesis =>
      exact .of_step .commit (inductionHypothesis _ level calls)
  | rollback checkpoint next inductionHypothesis =>
      exact .of_step .rollback (inductionHypothesis _ level calls)
  | run pattern index next inductionHypothesis =>
      have answered := calls pattern (Or.inl rfl) index state level
      have sameLevel := (sameDepth _ _ _ answered).trans level
      cases ended : call pattern index state with
      | ok outcome reached =>
          rw [ended] at answered sameLevel
          simp only [runProgram, ended]
          refine .of_step (.run answered) (inductionHypothesis _ _ sameLevel ?_)
          exact fun other runs => calls other (Or.inr ⟨_, runs⟩)
      | error error reached =>
          rw [ended] at answered sameLevel
          simp only [runProgram, ended]
          refine .of_step (.run answered) (inductionHypothesis _ _ sameLevel ?_)
          exact fun other runs => calls other (Or.inr ⟨_, runs⟩)

/-! ## Callbacks that keep to their own changes -/

/-- The next request neither commits nor reaches below what there was on entry. A checkpoint that
was taken since then is not below it. -/
def Moment.Lawful (entry : MatchState) (moment : Moment) : Prop :=
  match moment.program with
  | .commit _ => False
  | .restore number _ => entry.bindings.count ≤ number
  | .rollback checkpoint _ => entry.stackTable.journal.length ≤ checkpoint.changes
  | _ => True

/-- Whatever the state on entry, and however nested matches end, the callback binds, pushes, pops,
marks, rolls back to marks of its own and matches, but it never commits and never restores the
bindings below their number on entry. -/
def Callback.Lawful (callback : Callback) (text : Text) : Prop :=
  ∀ i ≤ text.length, ∀ entry moment,
    Program.Course Isolated (fun _ => True) ⟨callback.program text i, entry⟩ moment →
      moment.Lawful entry

namespace Program

theorem Step.extends {own : MatchError → Prop} {entry : MatchState} {moment next : Moment}
    (step : Step Isolated own moment next) (lawful : moment.Lawful entry)
    (grown : moment.state.Extends entry) : next.state.Extends entry := by
  cases step with
  | inspect => exact grown
  | bind => exact (MatchState.Extends.bind _ _ _).trans grown
  | restored restored => exact grown.restore lawful restored
  | notRestored => exact grown
  | push => exact grown.withTable ((StackTable.Extends.push _ _ _).trans grown.stackTable)
  | pop => exact grown.withTable ((StackTable.Extends.pop _ _).trans grown.stackTable)
  | popped popped =>
      exact grown.withTable ((StackTable.Extends.popMany popped).trans grown.stackTable)
  | notPopped => exact grown
  | commit => exact lawful.elim
  | rollback => exact grown.withTable (grown.stackTable.rollback_of_le lawful)
  | run answered => exact answered.extends.trans grown

theorem Course.extends {own : MatchError → Prop} {entry : MatchState} {first last : Moment}
    (course : Course Isolated own first last)
    (lawful : ∀ moment, Course Isolated own first moment → moment.Lawful entry)
    (grown : first.state.Extends entry) : last.state.Extends entry := by
  induction course with
  | refl => exact grown
  | tail before step inductionHypothesis =>
      exact step.extends (lawful _ before) inductionHypothesis

end Program

/-! ## Errors that a callback is the origin of -/

/-- Isolated matches that do not end with `error`. -/
def IsolatedBut (error : MatchError) : Nested := fun state answer reached =>
  Isolated state answer reached ∧ answer ≠ .error error

/-- A restore that the callback itself asks for is refused with `error`, on a course on which no
nested match ended with it. -/
def Callback.IsRefused (callback : Callback) (text : Text) (error : MatchError) : Prop :=
  ∃ i entry number next state,
    Program.Course (IsolatedBut error) (· ≠ error) ⟨callback.program text i, entry⟩
      ⟨.restore number next, state⟩ ∧
    state.bindings.restore number = .error error

/-- The callback ends with `error` on a course on which no request was answered with it. -/
def Callback.Invents (callback : Callback) (text : Text) (error : MatchError) : Prop :=
  ∃ i entry state,
    Program.Course (IsolatedBut error) (· ≠ error) ⟨callback.program text i, entry⟩
      ⟨.fail error, state⟩

/-- Pops are refused for want of entries only. -/
theorem StackTable.eq_stackUnderflow_of_popMany {table : StackTable} {stack : String}
    {count position : Nat} {error : MatchError}
    (refused : table.popMany stack count position = .error error) :
    error = .stackUnderflow stack count (table.size stack) position none := by
  unfold popMany at refused
  split at refused
  · exact (Except.error.inj refused).symm
  · cases refused

/-- The first refusal on a course is that of a restore, unless there is none. -/
theorem Program.Course.refused_or_not {error : MatchError} {first last : Moment}
    (notPop : ∀ stack count available position,
      error ≠ .stackUnderflow stack count available position none)
    (course : Course (IsolatedBut error) (fun _ => True) first last) :
    (∃ number next state,
      Course (IsolatedBut error) (· ≠ error) first ⟨.restore number next, state⟩ ∧
        state.bindings.restore number = .error error) ∨
    Course (IsolatedBut error) (· ≠ error) first last := by
  induction course with
  | refl => exact Or.inr .refl
  | tail before step inductionHypothesis =>
      rcases inductionHypothesis with refused | course
      · exact Or.inl refused
      · cases step with
        | inspect => exact Or.inr (.tail course .inspect)
        | bind => exact Or.inr (.tail course .bind)
        | restored restored => exact Or.inr (.tail course (.restored restored))
        | @notRestored number next state other refused =>
            by_cases same : other = error
            · subst same
              exact Or.inl ⟨number, next, state, course, refused⟩
            · exact Or.inr (.tail course (.notRestored refused same))
        | push => exact Or.inr (.tail course .push)
        | pop => exact Or.inr (.tail course .pop)
        | popped popped => exact Or.inr (.tail course (.popped popped))
        | notPopped refused =>
            have cause := StackTable.eq_stackUnderflow_of_popMany refused
            refine Or.inr (.tail course (.notPopped refused ?_))
            intro same
            exact notPop _ _ _ _ (same.symm.trans cause)
        | commit => exact Or.inr (.tail course .commit)
        | rollback => exact Or.inr (.tail course .rollback)
        | run answered => exact Or.inr (.tail course (.run answered))

end PegEngine
