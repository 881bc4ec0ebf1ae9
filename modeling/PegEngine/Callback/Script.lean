import PegEngine.Callback.Transforms

/-!
Contract: callbacks written as a list of steps and a verdict.

The steps run in order, and the first one that fails ends the callback with its error. Two
registers go along: the last match made by a step, and a checkpoint of the stacks, which is the
one on entry until a step takes another.
-/

namespace PegEngine

/-- One step of a script. Positions are relative to where the function pattern is matched. -/
inductive ScriptStep where
  | bind (name : String) (value : Capture)
  | restore (number : Nat)
  | push (stack : String) (value : Capture)
  /-- Pop an entry if there is one. -/
  | pop (stack : String)
  | popMany (stack : String) (count position : Nat)
  | commit
  /-- Keep a checkpoint of the stacks. -/
  | mark
  /-- Roll the stacks back to the checkpoint that is kept. -/
  | rollback
  /-- Match a pattern at a distance and keep its match. -/
  | run (pattern : PatternId) (distance : Int)
deriving DecidableEq, Repr

/-- How a script decides. -/
inductive Verdict where
  | accept
  | reject
  /-- A match up to a distance from the current position. -/
  | stopBy (distance : Int)
  /-- A match up to a position. -/
  | stopAt (stop : Nat)
  /-- A match between two distances, with captures. -/
  | span (startBy stopBy : Int) (captures : List Capture)
  /-- A span of another text, with captures. -/
  | spanOf (text : Text) (start stop : Nat) (captures : List Capture)
  /-- The last match made by a step. -/
  | last
  /-- A match of no width that captures the depth, the number of bindings and the length of the
  journal. -/
  | state
  /-- A match of no width that captures the value bound to a name, if any. -/
  | bound (name : String)
deriving DecidableEq, Repr

/-- Steps and a verdict. -/
structure Script where
  steps : List ScriptStep
  verdict : Verdict

namespace Script

/-- The program of a verdict, given the last match. -/
def conclude (text : Text) (index : Nat) (last : Option Match) : Verdict → Program
  | .accept => .finish .accept
  | .reject => .finish .reject
  | .stopBy distance => .finish (.stopAt (shiftPosition index distance))
  | .stopAt stop => .finish (.stopAt stop)
  | .span startBy stopBy captures =>
      .finish (.found { source := text, start := shiftPosition index startBy,
                        stop := shiftPosition index stopBy, captures })
  | .spanOf other start stop captures =>
      .finish (.found { source := other, start, stop, captures })
  | .last =>
      match last with
      | some m => .finish (.found m)
      | none => .finish .reject
  | .state => .inspect fun view =>
      .finish (.found { source := text, start := index, stop := index,
                        captures := [.int view.depth, .int view.bindings.count,
                                     .int view.stackTable.journal.length] })
  | .bound name => .inspect fun view =>
      .finish (.found { source := text, start := index, stop := index,
                        captures := (view.bindings.lookup? name).toList })

/-- Go on with a value, or end with the error in its place. -/
def orFail {α : Type} (next : α → Program) : Except MatchError α → Program
  | .ok value => next value
  | .error error => .fail error

/-- What holds of the errors and of how the values go on holds whatever the answer is. -/
theorem holds_orFail {α : Type} {property : Program → Prop} {next : α → Program}
    (fails : ∀ error, property (.fail error)) (goesOn : ∀ value, property (next value)) :
    ∀ answer, property (orFail next answer)
  | .ok value => goesOn value
  | .error error => fails error

/-- The program of the remaining steps, given the two registers. -/
def proceed (text : Text) (index : Nat) (verdict : Verdict) (last : Option Match)
    (mark : Checkpoint) : List ScriptStep → Program
  | [] => conclude text index last verdict
  | step :: rest =>
      match step with
      | .bind name value => .bind name value (proceed text index verdict last mark rest)
      | .restore number =>
          .restore number (orFail fun _ => proceed text index verdict last mark rest)
      | .push stack value => .push stack value (proceed text index verdict last mark rest)
      | .pop stack => .pop stack fun _ => proceed text index verdict last mark rest
      | .popMany stack count position =>
          .popMany stack count position
            (orFail fun _ => proceed text index verdict last mark rest)
      | .commit => .commit (proceed text index verdict last mark rest)
      | .mark => .inspect fun view =>
          proceed text index verdict last view.stackTable.checkpoint rest
      | .rollback => .rollback mark (proceed text index verdict last mark rest)
      | .run pattern distance =>
          .run pattern (shiftPosition index distance)
            (orFail fun outcome => proceed text index verdict outcome mark rest)

/-- The patterns that the steps match. -/
def patterns (script : Script) : List PatternId :=
  script.steps.filterMap fun
    | .run pattern _ => some pattern
    | _ => none

/-- A script as a callback. -/
def callback (script : Script) : Callback where
  program text index := .inspect fun view =>
    script.steps |> proceed text index script.verdict none view.stackTable.checkpoint
  patterns := script.patterns

end Script

end PegEngine
