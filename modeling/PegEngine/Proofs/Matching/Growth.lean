import PegEngine.Proofs.Callback.Course

/-!
Contract: inside a pattern call, every kind of node only makes changes that can be taken back, if
the calls that it makes do.

Owns:
- `Grows`, for actions inside a pattern call, with the errors that they may end in;
- one lemma for each kind of node, and `matchKind_grows` over all of them.
-/

namespace PegEngine

namespace Matching

/-- Inside a pattern call the action only makes changes that can be taken back, and it ends in
`blamed` errors only. -/
def Grows {α : Type} (blamed : MatchError → Prop) (action : MatchM α) : Prop :=
  ∀ state, 0 < state.depth →
    (stateOf (action state)).Extends state ∧
      ∀ error, answerOf (action state) = .error error → blamed error

namespace Grows

variable {α β : Type} {blamed : MatchError → Prop}

theorem pure (value : α) : Grows blamed (Pure.pure value) := by
  intro state _
  exact ⟨.refl state, fun error ended => nomatch ended⟩

theorem throw {error : MatchError} (fault : blamed error) :
    Grows blamed (MonadExcept.throw error : MatchM α) := by
  intro state _
  refine ⟨.refl state, fun other ended => ?_⟩
  cases ended
  exact fault

theorem bind {action : MatchM α} {next : α → MatchM β} (first : Grows blamed action)
    (rest : ∀ value, Grows blamed (next value)) : Grows blamed (action >>= next) := by
  intro state under
  obtain ⟨grown, faults⟩ := first state under
  rw [bind_apply]
  cases ended : action state with
  | ok value reached =>
      rw [ended] at grown
      have stillUnder : 0 < reached.depth := grown.depth.symm ▸ under
      obtain ⟨later, laterFaults⟩ := rest value reached stillUnder
      exact ⟨later.trans grown, laterFaults⟩
  | error error reached =>
      rw [ended] at grown faults
      refine ⟨grown, fun other failed => faults other ?_⟩
      cases failed
      rfl

theorem get_bind {next : MatchState → MatchM β} (rest : ∀ state, Grows blamed (next state)) :
    Grows blamed (get >>= next) :=
  fun state under => rest state state under

theorem modify {change : MatchState → MatchState}
    (grown : ∀ state, (change state).Extends state) :
    Grows blamed (modify change : MatchM PUnit) := by
  intro state _
  exact ⟨grown state, fun error ended => nomatch ended⟩

theorem orThrow {result : Except MatchError α}
    (faults : ∀ error, result = .error error → blamed error) :
    Grows blamed (Matching.orThrow result) := by
  cases result with
  | ok value => exact pure value
  | error error => exact throw (faults error rfl)

end Grows

/-! ## Nodes -/

section Nodes

variable {blamed : MatchError → Prop} {call : Caller}

theorem runProgram_grows {text : Text} {i : Nat} {callback : Callback} (inside : i ≤ text.length)
    (lawful : callback.Lawful text)
    (calls : ∀ pattern, (callback.program text i).Runs pattern → ∀ index state, 0 < state.depth →
      Isolated state (answerOf (call pattern index state)) (stateOf (call pattern index state)))
    (state : MatchState) (under : 0 < state.depth) :
    (stateOf (runProgram call (callback.program text i) state)).Extends state := by
  have course := Program.runProgram_course (fun _ _ _ isolated => isolated.extends.depth)
    (callback.program text i) state
    (fun pattern runs index reached atDepth => calls pattern runs index reached (atDepth ▸ under))
  have grown := course.extends (lawful i inside state) (.refl state)
  cases ended : runProgram call (callback.program text i) state with
  | ok outcome reached => simpa [ended, lastMoment, stateOf] using grown
  | error error reached => simpa [ended, lastMoment, stateOf] using grown

theorem matchSequence_grows {items : List PatternId}
    (calls : ∀ item ∈ items, ∀ index, Grows blamed (call item index)) (soFar : Match) :
    Grows blamed (matchSequence call items soFar) := by
  induction items generalizing soFar with
  | nil => exact .pure _
  | cons item rest inductionHypothesis =>
      refine .bind (calls item (by simp) _) fun outcome => ?_
      cases outcome with
      | none => exact .pure _
      | some m =>
          exact inductionHypothesis (fun other member => calls other (by simp [member])) _

theorem matchChoice_grows {items : List PatternId} {i : Nat}
    (calls : ∀ item ∈ items, ∀ index, Grows blamed (call item index)) :
    Grows blamed (matchChoice call i items) := by
  induction items with
  | nil => exact .pure _
  | cons item rest inductionHypothesis =>
      refine .bind (calls item (by simp) _) fun outcome => ?_
      cases outcome with
      | none => exact inductionHypothesis (fun other member => calls other (by simp [member]))
      | some m => exact .pure _

theorem matchUpTo_grows {body : PatternId} (calls : ∀ index, Grows blamed (call body index))
    (most done : Nat) (soFar : Match) : Grows blamed (matchUpTo call body most done soFar) := by
  induction most generalizing done soFar with
  | zero => exact .pure _
  | succ most inductionHypothesis =>
      refine .bind (calls _) fun outcome => ?_
      cases outcome with
      | none => exact .pure _
      | some m => exact inductionHypothesis _ _

theorem matchAtLeast_grows {body : PatternId} (calls : ∀ index, Grows blamed (call body index))
    (minimum left done : Nat) (soFar : Match) :
    Grows blamed (matchAtLeast call body minimum left done soFar) := by
  induction left generalizing done soFar with
  | zero =>
      unfold matchAtLeast
      refine .bind (calls _) fun outcome => ?_
      cases outcome with
      | none => exact .pure _
      | some m =>
          dsimp only
          split <;> exact .pure _
  | succ left inductionHypothesis =>
      unfold matchAtLeast
      refine .bind (calls _) fun outcome => ?_
      cases outcome with
      | none => exact .pure _
      | some m =>
          dsimp only
          split
          · exact .pure _
          · exact inductionHypothesis _ _

theorem matchRepetition_grows {text : Text} {i : Nat} {body : PatternId}
    (calls : ∀ index, Grows blamed (call body index)) (count : RepeatCount) :
    Grows blamed (matchRepetition text call i body count) := by
  cases count with
  | atLeast minimum => exact matchAtLeast_grows calls _ _ _ _
  | atMost maximum => exact .bind (matchUpTo_grows calls _ _ _) fun _ => .pure _
  | exactly count => exact .bind (matchUpTo_grows calls _ _ _) fun _ => .pure _

theorem matchReference_grows {graph : Graph} {i : Nat} {name : String} {cell : CellId}
    (calls : ∀ rule, graph.target? cell = some rule → ∀ index, Grows blamed (call rule index)) :
    Grows blamed (matchReference graph call i name cell) := by
  unfold matchReference
  split
  · next rule target => exact calls rule target i
  · exact .bind (.modify fun state => .addTrace state _) fun _ => .pure _

theorem ofOutcome_grows {text : Text} {i : Nat}
    (spans : ∀ start stop, blamed (.invalidSpan start stop i)) (outcome : CallbackOutcome) :
    Grows blamed (ofOutcome text i outcome) := by
  cases outcome with
  | found m =>
      refine .bind (.orThrow fun error refused => ?_) fun _ => .pure _
      rw [checkSpan_error refused]
      exact spans _ _
  | accept => exact .pure _
  | stopAt stop =>
      dsimp only [ofOutcome]
      split <;> exact .pure _
  | reject => exact .pure _

theorem matchBackReference_grows {text : Text} {i : Nat} {name : String}
    (unbound : blamed (.unboundBackCapture name i none)) :
    Grows blamed (matchBackReference text i name) := by
  refine .get_bind fun state => ?_
  split
  · exact .throw unbound
  · exact .pure _

theorem matchBackCapture_grows {i : Nat} {name : String} {body : PatternId} {index : Option Int}
    (missing : ∀ index available, blamed (.captureIndexOutOfRange index available i none))
    (calls : ∀ index, Grows blamed (call body index)) :
    Grows blamed (matchBackCapture call i name body index) := by
  refine .bind (calls i) fun outcome => ?_
  cases outcome with
  | none => exact .pure _
  | some m =>
      refine .bind (.orThrow fun error refused => ?_) fun value =>
        .bind (.modify fun state => .bind state _ _) fun _ => .pure _
      obtain ⟨_, _, cause⟩ := boundValue_error refused
      rw [cause]
      exact missing _ _

theorem matchStackCapture_grows {i : Nat} {stack : String} {body : PatternId}
    (calls : ∀ index, Grows blamed (call body index)) :
    Grows blamed (matchStackCapture call i stack body) := by
  refine .bind (calls i) fun outcome => ?_
  cases outcome with
  | none => exact .pure _
  | some m =>
      refine .bind (.modify fun state => ?_) fun _ => .pure _
      exact (MatchState.Extends.refl state).withTable (.pushAll _ _ _)

theorem matchStackPop_grows {text : Text} {i : Nat} {stack : String} {count : Nat}
    (underflow : ∀ available, blamed (.stackUnderflow stack count available i none)) :
    Grows blamed (matchStackPop text i stack count) := by
  intro state under
  cases popped : state.stackTable.popMany stack count i with
  | error error =>
      have ended : matchStackPop text i stack count state = .error error state := by
        simp only [matchStackPop, bind_apply, get_apply, popped, orThrow_error]
      rw [ended]
      refine ⟨.refl state, fun other failed => ?_⟩
      cases failed
      rw [StackTable.eq_stackUnderflow_of_popMany popped]
      exact underflow _
  | ok taken =>
      have ended : matchStackPop text i stack count state =
          .ok (some (text.matchOver i i)) { state with stackTable := taken.2 } := by
        simp only [matchStackPop, bind_apply, get_apply, popped, orThrow_ok, modify_apply]
        rfl
      rw [ended]
      exact ⟨(MatchState.Extends.refl state).withTable (.popMany popped),
        fun other failed => nomatch failed⟩

theorem matchTransform_grows {text : Text} {i : Nat} {body : PatternId} {transform : Transform}
    (spans : ∀ start stop, blamed (.invalidSpan start stop i))
    (calls : ∀ index, Grows blamed (call body index)) :
    Grows blamed (matchTransform text call i body transform) := by
  refine .bind (calls i) fun outcome => ?_
  cases outcome with
  | none => exact .pure _
  | some m =>
      dsimp only
      split
      · exact .pure _
      · refine .bind (.orThrow fun error refused => ?_) fun _ => .pure _
        rw [checkSpan_error refused]
        exact spans _ _

/-- Every kind of node grows if the calls that it makes do. Errors of its own are blamed, so
`blamed` has to hold of all that is no underflow of the bindings. -/
theorem matchKind_grows {setup : Setup} {i : Nat} {kind : Kind}
    (others : ∀ error, (∀ expected actual, error ≠ .backCaptureUnderflow expected actual) →
      blamed error)
    (calls : ∀ child ∈ kind.children, ∀ index, Grows blamed (call child index))
    (rules : ∀ name cell rule, kind = .reference name cell →
      setup.graph.target? cell = some rule → ∀ index, Grows blamed (call rule index))
    (programs : ∀ callback, kind = .function callback →
      Grows blamed (runProgram call (callback.program setup.text i))) :
    Grows blamed (matchKind setup call i kind) := by
  have own : ∀ child, kind.children = [child] → ∀ index, Grows blamed (call child index) :=
    fun child only => calls child (by simp [only])
  cases kind with
  | literal | charSet | chars | rest | constant | startOfLine | endOfLine | value | position
  | line | column => exact .pure _
  | function callback =>
      refine .bind (programs callback rfl) (ofOutcome_grows fun start stop => ?_)
      exact others _ (by simp)
  | capture body | group body _ | negative body | positive body | select body _ _ =>
      exact .bind (own body rfl i) fun _ => .pure _
  | backReference name => exact matchBackReference_grows (others _ (by simp))
  | backCapture name body index =>
      exact matchBackCapture_grows (fun _ _ => others _ (by simp)) (own body rfl)
  | stackCapture stack body => exact matchStackCapture_grows (own body rfl)
  | stackPop stack count => exact matchStackPop_grows fun _ => others _ (by simp)
  | stackMatch | stackSize => exact .get_bind fun _ => .pure _
  | sequence items => exact matchSequence_grows calls _
  | choice items => exact matchChoice_grows calls
  | repetition body count => exact matchRepetition_grows (own body rfl) count
  | reference name cell =>
      exact matchReference_grows fun rule target => rules name cell rule rfl target
  | transform body transform =>
      exact matchTransform_grows (fun _ _ => others _ (by simp)) (own body rfl)

end Nodes

end Matching

end PegEngine
