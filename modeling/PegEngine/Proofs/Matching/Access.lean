import PegEngine.Proofs.Matching.Extension
import PegEngine.Proofs.Reachability

/-!
Contract: what the kinds of nodes do to the state, one access at a time.

A node is put together of few operations: it calls other patterns one after the other, looks up a
name, reads the entries of a stack, binds, pushes, pops, adds to the trace, and ends with an answer
or an error. It does so for the names and the stacks that it mentions alone. A relation between
actions that these operations keep, and that relates the calls of the patterns that a node comes to,
relates what the node makes of them.

Owns:
- `Matching.Accesses`, with one clause for each operation, relative to the names and the stacks in
  question;
- one lemma for each kind of node that makes more than one of them;
- `Accesses.matchKind`, for all kinds. Callbacks are left to the relation at hand: a callback is
  told the errors of the patterns that it calls, and what it sees of the state.
-/

namespace PegEngine

/-- The name that the pattern looks up or binds. -/
def Kind.boundName? : Kind → Option String
  | .backReference name | .backCapture name _ _ => some name
  | _ => none

namespace Matching

/-! ## Single accesses -/

def readName (name : String) : MatchM (Option Capture) := do
  return (← get).bindings.lookup? name

def readStack (stack : String) : MatchM (List Capture) := do
  return (← get).stackTable.entries stack

def bindName (name : String) (value : Capture) : MatchM Unit :=
  modify fun state => { state with bindings := state.bindings.bind name value }

def pushAll (stack : String) (values : List Capture) : MatchM Unit :=
  modify fun state => { state with stackTable := state.stackTable.pushAll stack values }

def popUpTo (stack : String) (count : Nat) : MatchM Unit :=
  modify fun state => { state with stackTable := (state.stackTable.popUpTo stack count).2 }

theorem matchBackReference_eq (text : Text) (i : Nat) (name : String) :
    matchBackReference text i name = (do
      match ← readName name with
      | none => throw (.unboundBackCapture name i none)
      | some value => pure (literalAt text i value.display.toList)) := rfl

/-- A pop reads the entries, and takes them off when there are enough. -/
theorem matchStackPop_eq (text : Text) (i : Nat) (stack : String) (count : Nat) :
    matchStackPop text i stack count = (do
      let entries ← readStack stack
      if entries.length < count then
        throw (.stackUnderflow stack count entries.length i none)
      else
        popUpTo stack count
        pure (some (text.matchOver i i))) := by
  funext state
  unfold matchStackPop
  simp only [readStack, bind_apply, get_apply, StackTable.popMany, StackTable.size_eq_length]
  change _ = (if (state.stackTable.entries stack).length < count then
    throw (.stackUnderflow stack count (state.stackTable.entries stack).length i none)
    else do
      popUpTo stack count
      pure (some (text.matchOver i i)) : MatchM (Option Match)) state
  by_cases few : (state.stackTable.entries stack).length < count
  · rw [if_pos few, if_pos few]
    rfl
  · rw [if_neg few, if_neg few]
    rfl

/-- The relation between actions is kept by the operations that nodes are put together of, for these
names and stacks. -/
structure Accesses (names stackNames : String → Prop)
    (related : ∀ {α : Type}, MatchM α → MatchM α → Prop) : Prop where
  pure {α : Type} (value : α) : related (Pure.pure value) (Pure.pure value)
  throw {α : Type} (error : MatchError) :
    related (MonadExcept.throw error : MatchM α) (MonadExcept.throw error)
  bind {α β : Type} {action other : MatchM α} {next otherNext : α → MatchM β}
    (first : related action other) (rest : ∀ value, related (next value) (otherNext value)) :
    related (action >>= next) (other >>= otherNext)
  addTrace (entries : List TraceEntry) :
    related (modify fun state => state.addTrace entries)
      (modify fun state => state.addTrace entries)
  readName {name : String} (allowed : names name) : related (readName name) (readName name)
  bindName {name : String} (allowed : names name) (value : Capture) :
    related (bindName name value) (bindName name value)
  readStack {stack : String} (allowed : stackNames stack) :
    related (readStack stack) (readStack stack)
  pushAll {stack : String} (allowed : stackNames stack) (values : List Capture) :
    related (pushAll stack values) (pushAll stack values)
  popUpTo {stack : String} (allowed : stackNames stack) (count : Nat) :
    related (popUpTo stack count) (popUpTo stack count)

namespace Accesses

variable {names stackNames : String → Prop} {related : ∀ {α : Type}, MatchM α → MatchM α → Prop}
  (accesses : Accesses names stackNames related) {call other : Caller} {text : Text} {i : Nat}
  {body : PatternId} {name stack : String}

include accesses

theorem orThrow {α : Type} (result : Except MatchError α) :
    related (Matching.orThrow result) (Matching.orThrow result) := by
  cases result with
  | ok value => exact accesses.pure value
  | error error => exact accesses.throw error

theorem ofOutcome (outcome : CallbackOutcome) :
    related (ofOutcome text i outcome) (ofOutcome text i outcome) := by
  cases outcome with
  | found m => exact accesses.bind (accesses.orThrow _) fun _ => accesses.pure _
  | accept | reject => exact accesses.pure _
  | stopAt stop =>
      dsimp only [Matching.ofOutcome]
      split <;> exact accesses.pure _

theorem matchSequence {items : List PatternId}
    (calls : ∀ item ∈ items, ∀ index, related (call item index) (other item index))
    (soFar : Match) :
    related (matchSequence call items soFar) (matchSequence other items soFar) := by
  induction items generalizing soFar with
  | nil => exact accesses.pure _
  | cons item rest inductionHypothesis =>
      refine accesses.bind (calls item (by simp) _) fun outcome => ?_
      cases outcome with
      | none => exact accesses.pure _
      | some m => exact inductionHypothesis (fun next member => calls next (by simp [member])) _

theorem matchChoice {items : List PatternId}
    (calls : ∀ item ∈ items, ∀ index, related (call item index) (other item index)) :
    related (matchChoice call i items) (matchChoice other i items) := by
  induction items with
  | nil => exact accesses.pure _
  | cons item rest inductionHypothesis =>
      refine accesses.bind (calls item (by simp) _) fun outcome => ?_
      cases outcome with
      | none => exact inductionHypothesis fun next member => calls next (by simp [member])
      | some m => exact accesses.pure _

theorem matchUpTo (calls : ∀ index, related (call body index) (other body index))
    (most done : Nat) (soFar : Match) :
    related (matchUpTo call body most done soFar) (matchUpTo other body most done soFar) := by
  induction most generalizing done soFar with
  | zero => exact accesses.pure _
  | succ most inductionHypothesis =>
      refine accesses.bind (calls _) fun outcome => ?_
      cases outcome with
      | none => exact accesses.pure _
      | some m => exact inductionHypothesis _ _

theorem matchAtLeast (calls : ∀ index, related (call body index) (other body index))
    (minimum left done : Nat) (soFar : Match) :
    related (matchAtLeast call body minimum left done soFar)
      (matchAtLeast other body minimum left done soFar) := by
  induction left generalizing done soFar with
  | zero =>
      unfold Matching.matchAtLeast
      refine accesses.bind (calls _) fun outcome => ?_
      cases outcome with
      | none => exact accesses.pure _
      | some m =>
          dsimp only
          split <;> exact accesses.pure _
  | succ left inductionHypothesis =>
      unfold Matching.matchAtLeast
      refine accesses.bind (calls _) fun outcome => ?_
      cases outcome with
      | none => exact accesses.pure _
      | some m =>
          dsimp only
          split
          · exact accesses.pure _
          · exact inductionHypothesis _ _

theorem matchRepetition (calls : ∀ index, related (call body index) (other body index))
    (count : RepeatCount) :
    related (matchRepetition text call i body count)
      (matchRepetition text other i body count) := by
  cases count with
  | atLeast minimum => exact accesses.matchAtLeast calls _ _ _ _
  | atMost maximum =>
      exact accesses.bind (accesses.matchUpTo calls _ _ _) fun _ => accesses.pure _
  | exactly count =>
      exact accesses.bind (accesses.matchUpTo calls _ _ _) fun _ => accesses.pure _

/-- References are related if they have the same target. -/
theorem matchReference {graph otherGraph : Graph} {cell : CellId}
    (sameTarget : otherGraph.target? cell = graph.target? cell)
    (calls : ∀ rule, graph.target? cell = some rule → related (call rule i) (other rule i)) :
    related (matchReference graph call i name cell)
      (matchReference otherGraph other i name cell) := by
  unfold Matching.matchReference
  rw [sameTarget]
  cases target : graph.target? cell with
  | some rule => exact calls rule target
  | none => exact accesses.bind (accesses.addTrace _) fun _ => accesses.pure _

theorem matchBackReference (allowed : names name) :
    related (matchBackReference text i name) (matchBackReference text i name) := by
  rw [matchBackReference_eq]
  refine accesses.bind (accesses.readName allowed) fun value => ?_
  cases value with
  | none => exact accesses.throw _
  | some value => exact accesses.pure _

theorem matchBackCapture (calls : ∀ index, related (call body index) (other body index))
    (allowed : names name) (index : Option Int) :
    related (matchBackCapture call i name body index)
      (matchBackCapture other i name body index) := by
  refine accesses.bind (calls i) fun outcome => ?_
  cases outcome with
  | none => exact accesses.pure _
  | some m =>
      refine accesses.bind (accesses.orThrow _) fun value => ?_
      exact accesses.bind (accesses.bindName allowed value) fun _ => accesses.pure _

theorem matchStackCapture (calls : ∀ index, related (call body index) (other body index))
    (allowed : stackNames stack) :
    related (matchStackCapture call i stack body) (matchStackCapture other i stack body) := by
  refine accesses.bind (calls i) fun outcome => ?_
  cases outcome with
  | none => exact accesses.pure _
  | some m =>
      exact accesses.bind (accesses.pushAll allowed m.captures) fun _ => accesses.pure _

theorem matchStackPop (allowed : stackNames stack) (count : Nat) :
    related (matchStackPop text i stack count) (matchStackPop text i stack count) := by
  rw [matchStackPop_eq]
  refine accesses.bind (accesses.readStack allowed) fun values => ?_
  split
  · exact accesses.throw _
  · exact accesses.bind (accesses.popUpTo allowed count) fun _ => accesses.pure _

theorem matchTransform (calls : ∀ index, related (call body index) (other body index))
    (transform : Transform) :
    related (matchTransform text call i body transform)
      (matchTransform text other i body transform) := by
  refine accesses.bind (calls i) fun outcome => ?_
  cases outcome with
  | none => exact accesses.pure _
  | some m =>
      dsimp only
      split
      · exact accesses.pure _
      · exact accesses.bind (accesses.orThrow _) fun _ => accesses.pure _

/-- A node makes related actions of related calls, if it mentions no names and stacks but these. Its
references have to have the same targets. -/
theorem matchKind {setup otherSetup : Setup} {kind : Kind}
    (sameText : otherSetup.text = setup.text)
    (sameTarget : ∀ name cell, kind = .reference name cell →
      otherSetup.graph.target? cell = setup.graph.target? cell)
    (children : ∀ child ∈ kind.children, ∀ index, related (call child index) (other child index))
    (rules : ∀ name cell rule, kind = .reference name cell →
      setup.graph.target? cell = some rule → ∀ index, related (call rule index) (other rule index))
    (namesAllowed : ∀ name, kind.boundName? = some name → names name)
    (stacksAllowed : ∀ stack, kind.stack? = some stack → stackNames stack)
    (programs : ∀ callback, kind = .function callback →
      related (runProgram call (callback.program setup.text i))
        (runProgram other (callback.program setup.text i))) :
    related (matchKind setup call i kind) (matchKind otherSetup other i kind) := by
  unfold Matching.matchKind
  rw [sameText]
  cases kind with
  | literal | charSet | chars | rest | constant | startOfLine | endOfLine | value | position | line
  | column => exact accesses.pure _
  | function callback =>
      exact accesses.bind (programs callback rfl) fun outcome => accesses.ofOutcome outcome
  | capture body | group body | negative body | positive body | select body =>
      exact accesses.bind (children body (by simp [Kind.children]) i) fun _ => accesses.pure _
  | backReference name => exact accesses.matchBackReference (namesAllowed name rfl)
  | backCapture name body index =>
      exact accesses.matchBackCapture (children body (by simp [Kind.children]))
        (namesAllowed name rfl) index
  | stackCapture stack body =>
      exact accesses.matchStackCapture (children body (by simp [Kind.children]))
        (stacksAllowed stack rfl)
  | stackPop stack count => exact accesses.matchStackPop (stacksAllowed stack rfl) count
  | stackMatch stack index expected =>
      let entryAt := fun values =>
        stackEntryAt setup.text i (Capture.pick? values index) expected
      change related (Matching.readStack stack >>= fun values => Pure.pure (entryAt values))
        (Matching.readStack stack >>= fun values => Pure.pure (entryAt values))
      exact accesses.bind (accesses.readStack (stacksAllowed stack rfl)) fun _ => accesses.pure _
  | stackSize stack expected =>
      let sizeAt := fun values : List Capture => stackSizeAt setup.text i values.length expected
      simp only [StackTable.size_eq_length]
      change related (Matching.readStack stack >>= fun values => Pure.pure (sizeAt values))
        (Matching.readStack stack >>= fun values => Pure.pure (sizeAt values))
      exact accesses.bind (accesses.readStack (stacksAllowed stack rfl)) fun _ => accesses.pure _
  | sequence items => exact accesses.matchSequence children _
  | choice items => exact accesses.matchChoice children
  | repetition body count =>
      exact accesses.matchRepetition (children body (by simp [Kind.children])) count
  | reference name cell =>
      exact accesses.matchReference (sameTarget name cell rfl) fun rule target =>
        rules name cell rule rfl target i
  | transform body transform =>
      exact accesses.matchTransform (children body (by simp [Kind.children])) transform

end Accesses

end Matching

end PegEngine
