import PegEngine.Proofs.Callback.Course

/-!
Contract: scripts that neither commit nor restore are lawful callbacks.

The checkpoint that a script keeps is never older than the entry of its callback, so its rollbacks
only undo changes of its own and of the matches that it made.
-/

namespace PegEngine

/-- The step neither commits the stacks nor cuts the bindings. -/
def ScriptStep.keepsOlder : ScriptStep → Bool
  | .commit | .restore _ => false
  | _ => true

namespace Script

/-- What a script may have come to since `entry`. -/
inductive Remaining (entry : MatchState) (text : Text) (i : Nat) : Program → Prop where
  | steps {verdict : Verdict} {last : Option Match} {mark : Checkpoint} {rest : List ScriptStep}
      (notOlder : entry.stackTable.journal.length ≤ mark.changes)
      (keeps : ∀ step ∈ rest, step.keepsOlder) :
      Remaining entry text i (proceed text i verdict last mark rest)
  | finished (outcome : CallbackOutcome) : Remaining entry text i (.finish outcome)
  | failed (error : MatchError) : Remaining entry text i (.fail error)

namespace Remaining

variable {entry : MatchState} {text : Text} {i : Nat}

theorem lawful {moment : Moment} (remaining : Remaining entry text i moment.program) :
    moment.Lawful entry := by
  obtain ⟨program, state⟩ := moment
  cases remaining with
  | finished | failed => trivial
  | @steps verdict last mark rest notOlder keeps =>
      cases rest with
      | nil =>
          cases verdict with
          | last => cases last <;> trivial
          | _ => trivial
      | cons step rest =>
          have kept := keeps step (by simp)
          cases step with
          | commit | restore => cases kept
          | rollback => exact notOlder
          | _ => trivial

/-- A script makes its next step. -/
theorem step {own : MatchError → Prop} {moment next : Moment}
    (step : Program.Step Isolated own moment next)
    (remaining : Remaining entry text i moment.program) (grown : moment.state.Extends entry) :
    Remaining entry text i next.program := by
  obtain ⟨program, state⟩ := moment
  cases remaining with
  | finished | failed => cases step
  | @steps verdict last mark rest notOlder keeps =>
      cases rest with
      | nil =>
          cases verdict with
          | state | bound => cases step; exact .finished _
          | last => cases last <;> cases step
          | _ => cases step
      | cons first rest =>
          have kept := keeps first (by simp)
          have later : ∀ step ∈ rest, step.keepsOlder := fun other member =>
            keeps other (by simp [member])
          cases first with
          | commit | restore => cases kept
          | mark =>
              cases step
              exact .steps grown.stackTable.length_le later
          | popMany =>
              cases step with
              | popped => exact .steps notOlder later
              | notPopped => exact .failed _
          | run =>
              cases step
              exact holds_orFail .failed (fun _ => .steps notOlder later) _
          | _ =>
              cases step
              exact .steps notOlder later

end Remaining

theorem lawful {script : Script} (keeps : ∀ step ∈ script.steps, step.keepsOlder) (text : Text) :
    script.callback.Lawful text := by
  intro i inside entry moment course
  have first : Remaining entry text i (script.callback.program text i) :=
    @Remaining.steps entry text i script.verdict none entry.stackTable.checkpoint
      (.mark :: script.steps) (Nat.le_refl _) (by simpa [ScriptStep.keepsOlder] using keeps)
  have invariant : Remaining entry text i moment.program ∧ moment.state.Extends entry := by
    induction course with
    | refl => exact ⟨first, .refl entry⟩
    | tail before step inductionHypothesis =>
        obtain ⟨remaining, grown⟩ := inductionHypothesis
        exact ⟨remaining.step step grown, step.extends remaining.lawful grown⟩
  exact invariant.1.lawful

end Script

end PegEngine
