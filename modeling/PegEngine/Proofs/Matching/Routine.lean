import PegEngine.Proofs.Matching.Extension
import PegEngine.Proofs.Reachability

/-!
Contract: what a node does inside its own call, as data.

A routine is a tree of requests to the running match: to look at bindings and stacks, to change
them, to call another pattern, to carry out a callback's program. Whoever answers the requests
decides what a call is, so the routine of a node can be run by the engine and followed by an account
of the calls that it makes.

By its type a routine ends with the first error of a call, and it never takes a binding back; a
callback's program may do both.

Owns:
- `Routine`, with the routines of all kinds of nodes;
- `matchKind_eq`, by which the engine runs the routine of a node;
- `Routine.KeepsTo`, the patterns and programs that a routine may come to, and where they lead in
  the graph.
-/

namespace PegEngine

namespace Matching

/-- What is done inside a pattern call, one request after the other. The error of a call ends it. -/
inductive Routine (α : Type) where
  | finish (value : α)
  | fail (error : MatchError)
  | look (next : Bindings → StackTable → Routine α)
  | bind (name : String) (value : Capture) (next : Routine α)
  /-- Put other stacks in the place of the present ones. -/
  | restack (stackTable : StackTable) (next : Routine α)
  /-- Add a line to the log. -/
  | note (line : String) (next : Routine α)
  | invoke (pattern : PatternId) (index : Nat) (next : Option Match → Routine α)
  | perform (program : Program) (next : CallbackOutcome → Routine α)

namespace Routine

variable {α β : Type}

/-- One routine after the other. -/
def andThen : Routine α → (α → Routine β) → Routine β
  | .finish value, rest => rest value
  | .fail error, _ => .fail error
  | .look next, rest => .look fun bindings stackTable => (next bindings stackTable).andThen rest
  | .bind name value next, rest => .bind name value (next.andThen rest)
  | .restack stackTable next, rest => .restack stackTable (next.andThen rest)
  | .note line next, rest => .note line (next.andThen rest)
  | .invoke pattern index next, rest =>
      .invoke pattern index fun outcome => (next outcome).andThen rest
  | .perform program next, rest => .perform program fun outcome => (next outcome).andThen rest

/-- The routine as an action on the state of a match. -/
def run (call : Caller) : Routine α → MatchM α
  | .finish value => pure value
  | .fail error => throw error
  | .look next => fun state => (next state.bindings state.stackTable).run call state
  | .bind name value next => fun state =>
      next.run call { state with bindings := state.bindings.bind name value }
  | .restack stackTable next => fun state => next.run call { state with stackTable }
  | .note line next => fun state => next.run call (state.addTrace [.line line])
  | .invoke pattern index next => call pattern index >>= fun outcome => (next outcome).run call
  | .perform program next => runProgram call program >>= fun outcome => (next outcome).run call

theorem run_andThen (call : Caller) (first : Routine α) (rest : α → Routine β) :
    (first.andThen rest).run call = first.run call >>= fun value => (rest value).run call := by
  induction first with
  | finish | fail => rfl
  | look next inductionHypothesis =>
      funext state
      rw [bind_apply]
      simp only [andThen, run, inductionHypothesis, bind_apply]
  | bind _ _ next inductionHypothesis | restack _ next inductionHypothesis
  | note _ next inductionHypothesis =>
      funext state
      rw [bind_apply]
      simp only [andThen, run, inductionHypothesis, bind_apply]
  | invoke _ _ next inductionHypothesis | perform _ next inductionHypothesis =>
      simp only [andThen, run, bind_assoc, inductionHypothesis]

/-! ## Nodes -/

/-- Go on with a value, or end with the error in its place. -/
def ofExcept (next : α → Routine β) : Except MatchError α → Routine β
  | .ok value => next value
  | .error error => .fail error

/-- A call, and what its outcome is turned into. -/
def turning (pattern : PatternId) (index : Nat) (turn : Option Match → Option Match) :
    Routine (Option Match) :=
  .invoke pattern index fun outcome => .finish (turn outcome)

/-- Go on with the match of a call. There is no match if the call has none. -/
def onMatch (pattern : PatternId) (index : Nat) (next : Match → Routine (Option Match)) :
    Routine (Option Match) :=
  .invoke pattern index fun
    | none => .finish none
    | some m => next m

section Nodes

variable (text : Text) (i : Nat)

def ofOutcome : CallbackOutcome → Routine (Option Match)
  | .found m => ofExcept (fun m => .finish (some m)) (checkSpan text i m)
  | .accept => .finish (some (text.matchOver i i))
  | .stopAt stop =>
      .finish (if i ≤ stop ∧ stop ≤ text.length then some (text.matchOver i stop) else none)
  | .reject => .finish none

def backReference (name : String) : Routine (Option Match) :=
  .look fun bindings _ =>
    match bindings.lookup? name with
    | none => .fail (.unboundBackCapture name i none)
    | some value => .finish (literalAt text i value.display.toList)

def backCapture (name : String) (body : PatternId) (index : Option Int) : Routine (Option Match) :=
  onMatch body i fun m =>
    ofExcept (fun value => .bind name value (.finish (some m))) (boundValue i index m)

def stackCapture (stack : String) (body : PatternId) : Routine (Option Match) :=
  onMatch body i fun m => .look fun _ stackTable =>
    .restack (stackTable.pushAll stack m.captures) (.finish (some { m with captures := [] }))

def stackPop (stack : String) (count : Nat) : Routine (Option Match) :=
  .look fun _ stackTable =>
    ofExcept (fun popped => .restack popped.2 (.finish (some (text.matchOver i i))))
      (stackTable.popMany stack count i)

def sequence : List PatternId → Match → Routine (Option Match)
  | [], soFar => .finish (some soFar)
  | item :: rest, soFar => onMatch item soFar.stop fun m => sequence rest (soFar.append m)

def choice : List PatternId → Routine (Option Match)
  | [] => .finish none
  | item :: rest => .invoke item i fun
      | some m => .finish (some m)
      | none => choice rest

def upTo (body : PatternId) : (most : Nat) → (done : Nat) → Match → Routine (Nat × Match)
  | 0, done, soFar => .finish (done, soFar)
  | most + 1, done, soFar => .invoke body soFar.stop fun
      | none => .finish (done, soFar)
      | some m => upTo body most (done + 1) (soFar.append m)

def atLeast (body : PatternId) (minimum : Nat) :
    (left : Nat) → (done : Nat) → Match → Routine (Option Match)
  | left, done, soFar => .invoke body soFar.stop fun
      | none => .finish (if minimum ≤ done then some soFar else none)
      | some m =>
          if m.stop = soFar.stop then
            .finish (some (soFar.append m))
          else
            match left with
            | 0 => .finish (some (soFar.append m))
            | left + 1 => atLeast body minimum left (done + 1) (soFar.append m)

def repetition (body : PatternId) : RepeatCount → Routine (Option Match)
  | .atLeast minimum => atLeast body minimum (text.length - i) 0 (text.matchOver i i)
  | .atMost maximum =>
      (upTo body maximum 0 (text.matchOver i i)).andThen fun (_, m) => .finish (some m)
  | .exactly count =>
      (upTo body count 0 (text.matchOver i i)).andThen fun (done, m) =>
        .finish (if done = count then some m else none)

def reference (graph : Graph) (name : String) (cell : CellId) : Routine (Option Match) :=
  match graph.target? cell with
  | some rule => .invoke rule i .finish
  | none =>
      .note ("Reference " ++ bracketed name ++ " matched before it was bound") (.finish none)

def transform (body : PatternId) (change : Transform) : Routine (Option Match) :=
  onMatch body i fun m =>
    match change m with
    | none => .finish none
    | some changed => ofExcept (fun changed => .finish (some changed)) (checkSpan text i changed)

end Nodes

/-- What a kind of node does at position `i`. -/
def ofKind (setup : Setup) (i : Nat) : Kind → Routine (Option Match)
  | .literal chars => .finish (literalAt setup.text i chars)
  | .charSet set => .finish (charAt setup.text i set)
  | .chars count => .finish (charsAt setup.text i count)
  | .rest count => .finish (restAt setup.text i count)
  | .constant accepts => .finish (zeroWidthIf setup.text i accepts)
  | .function callback => .perform (callback.program setup.text i) (ofOutcome setup.text i)
  | .startOfLine => .finish (zeroWidthIf setup.text i (setup.text.startsLine i))
  | .endOfLine => .finish (zeroWidthIf setup.text i (setup.text.endsLine i))
  | .capture body => turning body i (·.map captureText)
  | .value value => .finish (zeroWidthValue setup.text i value)
  | .group body dropEmpty => turning body i (·.map (collectCaptures dropEmpty))
  | .position => .finish (zeroWidthValue setup.text i (.position i))
  | .line => .finish (zeroWidthValue setup.text i (.line (setup.text.lineNumber i)))
  | .column => .finish (zeroWidthValue setup.text i (.column (setup.text.columnNumber i)))
  | .backReference name => backReference setup.text i name
  | .backCapture name body index => backCapture i name body index
  | .stackCapture stack body => stackCapture i stack body
  | .stackPop stack count => stackPop setup.text i stack count
  | .stackMatch stack index expected =>
      .look fun _ stackTable =>
        .finish (stackEntryAt setup.text i (stackTable.entry? stack index) expected)
  | .stackSize stack expected =>
      .look fun _ stackTable => .finish (stackSizeAt setup.text i (stackTable.size stack) expected)
  | .sequence items => sequence items (setup.text.matchOver i i)
  | .choice items => choice i items
  | .negative body => turning body i fun outcome => zeroWidthIf setup.text i outcome.isNone
  | .positive body => turning body i (·.map fun m => { m with start := i, stop := i })
  | .repetition body count => repetition setup.text i body count
  | .reference name cell => reference i setup.graph name cell
  | .select body index default => turning body i (·.map (selectCapture setup.text i index default))
  | .transform body change => transform setup.text i body change

/-! ## The engine runs the routine of a node -/

section Runs

variable {call : Caller} {text : Text} {i : Nat}

theorem run_onMatch (pattern : PatternId) (index : Nat) (next : Match → Routine (Option Match)) :
    (onMatch pattern index next).run call =
      call pattern index >>= fun
        | none => pure none
        | some m => (next m).run call := by
  simp only [onMatch, run]
  congr 1
  funext outcome
  cases outcome <;> rfl

theorem run_ofOutcome (outcome : CallbackOutcome) :
    (ofOutcome text i outcome).run call = Matching.ofOutcome text i outcome := by
  cases outcome with
  | found m =>
      simp only [ofOutcome, Matching.ofOutcome]
      cases checkSpan text i m <;> rfl
  | accept | reject => rfl
  | stopAt stop =>
      simp only [ofOutcome, Matching.ofOutcome]
      split <;> rfl

theorem run_backReference (name : String) :
    (backReference text i name).run call = matchBackReference text i name := by
  funext state
  simp only [backReference, run, matchBackReference, bind_apply, get_apply]
  cases state.bindings.lookup? name <;> rfl

theorem run_backCapture (name : String) (body : PatternId) (index : Option Int) :
    (backCapture i name body index).run call = matchBackCapture call i name body index := by
  unfold backCapture matchBackCapture
  rw [run_onMatch]
  congr 1
  funext outcome
  cases outcome with
  | none => rfl
  | some m =>
      dsimp only
      cases boundValue i index m <;> rfl

theorem run_stackCapture (stack : String) (body : PatternId) :
    (stackCapture i stack body).run call = matchStackCapture call i stack body := by
  unfold stackCapture matchStackCapture
  rw [run_onMatch]
  rfl

theorem run_stackPop (stack : String) (count : Nat) :
    (stackPop text i stack count).run call = matchStackPop text i stack count := by
  funext state
  simp only [stackPop, run, matchStackPop, bind_apply, get_apply]
  cases state.stackTable.popMany stack count i <;> rfl

theorem run_sequence (items : List PatternId) (soFar : Match) :
    (sequence items soFar).run call = matchSequence call items soFar := by
  induction items generalizing soFar with
  | nil => rfl
  | cons item rest inductionHypothesis =>
      unfold sequence matchSequence
      rw [run_onMatch]
      refine congrArg (call item soFar.stop >>= ·) (funext fun outcome => ?_)
      cases outcome with
      | none => rfl
      | some m => exact inductionHypothesis (soFar.append m)

theorem run_choice (items : List PatternId) :
    (choice i items).run call = matchChoice call i items := by
  induction items with
  | nil => rfl
  | cons item rest inductionHypothesis =>
      simp only [choice, matchChoice, run]
      congr 1
      funext outcome
      cases outcome with
      | none => exact inductionHypothesis
      | some m => rfl

theorem run_upTo (body : PatternId) (most done : Nat) (soFar : Match) :
    (upTo body most done soFar).run call = matchUpTo call body most done soFar := by
  induction most generalizing done soFar with
  | zero => rfl
  | succ most inductionHypothesis =>
      simp only [upTo, matchUpTo, run]
      congr 1
      funext outcome
      cases outcome with
      | none => rfl
      | some m => exact inductionHypothesis _ _

theorem run_atLeast (body : PatternId) (minimum left done : Nat) (soFar : Match) :
    (atLeast body minimum left done soFar).run call =
      matchAtLeast call body minimum left done soFar := by
  induction left generalizing done soFar with
  | zero =>
      unfold atLeast matchAtLeast
      simp only [run]
      congr 1
      funext outcome
      cases outcome with
      | none => rfl
      | some m =>
          dsimp only
          split <;> rfl
  | succ left inductionHypothesis =>
      unfold atLeast matchAtLeast
      simp only [run]
      congr 1
      funext outcome
      cases outcome with
      | none => rfl
      | some m =>
          dsimp only
          split
          · rfl
          · exact inductionHypothesis _ _

theorem run_repetition (body : PatternId) (count : RepeatCount) :
    (repetition text i body count).run call = matchRepetition text call i body count := by
  cases count with
  | atLeast minimum => exact run_atLeast ..
  | atMost maximum | exactly count =>
      simp only [repetition, matchRepetition, run_andThen, run_upTo]
      rfl

theorem run_reference (graph : Graph) (name : String) (cell : CellId) :
    (reference i graph name cell).run call = matchReference graph call i name cell := by
  unfold reference matchReference
  cases graph.target? cell with
  | some rule => exact bind_pure _
  | none => rfl

theorem run_transform (body : PatternId) (change : Transform) :
    (transform text i body change).run call = matchTransform text call i body change := by
  unfold transform matchTransform
  rw [run_onMatch]
  congr 1
  funext outcome
  cases outcome with
  | none => rfl
  | some m =>
      dsimp only
      cases change m with
      | none => rfl
      | some changed =>
          dsimp only
          cases checkSpan text i changed <;> rfl

end Runs

end Routine

/-- The engine runs the routine of a node. -/
theorem matchKind_eq (setup : Setup) (call : Caller) (i : Nat) (kind : Kind) :
    matchKind setup call i kind = (Routine.ofKind setup i kind).run call := by
  unfold matchKind Routine.ofKind
  cases kind with
  | literal | charSet | chars | rest | constant | startOfLine | endOfLine | value | position | line
  | column | capture | group | negative | positive | select | stackMatch | stackSize => rfl
  | function callback =>
      have outcomes := funext (@Routine.run_ofOutcome call setup.text i)
      simp only [Routine.run, outcomes]
  | backReference name => exact (Routine.run_backReference name).symm
  | backCapture name body index => exact (Routine.run_backCapture name body index).symm
  | stackCapture stack body => exact (Routine.run_stackCapture stack body).symm
  | stackPop stack count => exact (Routine.run_stackPop stack count).symm
  | sequence items => exact (Routine.run_sequence items _).symm
  | choice items => exact (Routine.run_choice items).symm
  | repetition body count => exact (Routine.run_repetition body count).symm
  | reference name cell => exact (Routine.run_reference setup.graph name cell).symm
  | transform body change => exact (Routine.run_transform body change).symm

/-! ## What a routine may come to -/

namespace Routine

variable {α β : Type} {patterns : PatternId → Prop} {programs : Program → Prop}

/-- The routine calls none but these patterns and performs none but these programs. -/
def KeepsTo (patterns : PatternId → Prop) (programs : Program → Prop) : Routine α → Prop
  | .finish _ | .fail _ => True
  | .look next => ∀ bindings stackTable, (next bindings stackTable).KeepsTo patterns programs
  | .bind _ _ next | .restack _ next | .note _ next => next.KeepsTo patterns programs
  | .invoke pattern _ next =>
      patterns pattern ∧ ∀ outcome, (next outcome).KeepsTo patterns programs
  | .perform program next =>
      programs program ∧ ∀ outcome, (next outcome).KeepsTo patterns programs

theorem KeepsTo.andThen {first : Routine α} {rest : α → Routine β}
    (keeps : first.KeepsTo patterns programs)
    (later : ∀ value, (rest value).KeepsTo patterns programs) :
    (first.andThen rest).KeepsTo patterns programs := by
  induction first with
  | finish value => exact later value
  | fail => trivial
  | look next inductionHypothesis =>
      exact fun bindings stackTable => inductionHypothesis _ _ (keeps bindings stackTable)
  | bind _ _ next inductionHypothesis | restack _ next inductionHypothesis
  | note _ next inductionHypothesis => exact inductionHypothesis keeps
  | invoke _ _ next inductionHypothesis | perform _ next inductionHypothesis =>
      exact ⟨keeps.1, fun outcome => inductionHypothesis outcome (keeps.2 outcome)⟩

theorem keepsTo_ofExcept {next : α → Routine β} {result : Except MatchError α}
    (later : ∀ value, (next value).KeepsTo patterns programs) :
    (ofExcept next result).KeepsTo patterns programs := by
  cases result with
  | ok value => exact later value
  | error error => trivial

theorem keepsTo_onMatch {pattern : PatternId} {index : Nat} {next : Match → Routine (Option Match)}
    (permitted : patterns pattern) (later : ∀ m, (next m).KeepsTo patterns programs) :
    (onMatch pattern index next).KeepsTo patterns programs := by
  refine ⟨permitted, fun outcome => ?_⟩
  cases outcome with
  | none => trivial
  | some m => exact later m

theorem keepsTo_ofOutcome (text : Text) (i : Nat) (outcome : CallbackOutcome) :
    (ofOutcome text i outcome).KeepsTo patterns programs := by
  cases outcome with
  | found m => exact keepsTo_ofExcept fun _ => trivial
  | accept | stopAt | reject => trivial

theorem keepsTo_sequence {items : List PatternId} (permitted : ∀ item ∈ items, patterns item)
    (soFar : Match) : (sequence items soFar).KeepsTo patterns programs := by
  induction items generalizing soFar with
  | nil => trivial
  | cons item rest inductionHypothesis =>
      apply keepsTo_onMatch (permitted item (by simp))
      exact fun m => inductionHypothesis (fun other member => permitted other (by simp [member])) _

theorem keepsTo_choice {items : List PatternId} (permitted : ∀ item ∈ items, patterns item)
    (i : Nat) : (choice i items).KeepsTo patterns programs := by
  induction items with
  | nil => trivial
  | cons item rest inductionHypothesis =>
      refine ⟨permitted item (by simp), fun outcome => ?_⟩
      cases outcome with
      | none => exact inductionHypothesis fun other member => permitted other (by simp [member])
      | some m => trivial

theorem keepsTo_upTo {body : PatternId} (permitted : patterns body) (most done : Nat)
    (soFar : Match) : (upTo body most done soFar).KeepsTo patterns programs := by
  induction most generalizing done soFar with
  | zero => trivial
  | succ most inductionHypothesis =>
      refine ⟨permitted, fun outcome => ?_⟩
      cases outcome with
      | none => trivial
      | some m => exact inductionHypothesis _ _

theorem keepsTo_atLeast {body : PatternId} (permitted : patterns body) (minimum left done : Nat)
    (soFar : Match) : (atLeast body minimum left done soFar).KeepsTo patterns programs := by
  induction left generalizing done soFar with
  | zero =>
      unfold atLeast
      refine ⟨permitted, fun outcome => ?_⟩
      cases outcome with
      | none => trivial
      | some m =>
          dsimp only
          split <;> trivial
  | succ left inductionHypothesis =>
      unfold atLeast
      refine ⟨permitted, fun outcome => ?_⟩
      cases outcome with
      | none => trivial
      | some m =>
          dsimp only
          split
          · trivial
          · exact inductionHypothesis _ _

theorem keepsTo_repetition {body : PatternId} (permitted : patterns body) (text : Text) (i : Nat)
    (count : RepeatCount) : (repetition text i body count).KeepsTo patterns programs := by
  cases count with
  | atLeast minimum => exact keepsTo_atLeast permitted _ _ _ _
  | atMost maximum | exactly count =>
      exact (keepsTo_upTo permitted _ _ _).andThen fun _ => trivial

/-- The routine of a node calls what the node leads to, and performs the program of its callback. -/
theorem keepsTo_ofKind (setup : Setup) (i : Nat) (pattern : PatternId) :
    (ofKind setup i (setup.graph.kind pattern)).KeepsTo (setup.graph.Leads pattern)
      fun program => ∃ callback, setup.graph.kind pattern = .function callback ∧
        program = callback.program setup.text i := by
  have part : ∀ child ∈ (setup.graph.kind pattern).children, setup.graph.Leads pattern child :=
    fun child member => Or.inl member
  unfold ofKind
  generalize found : setup.graph.kind pattern = kind at part
  cases kind with
  | literal | charSet | chars | rest | constant | startOfLine | endOfLine | value | position | line
  | column => trivial
  | stackMatch | stackSize => exact fun _ _ => trivial
  | function callback => exact ⟨⟨callback, rfl, rfl⟩, keepsTo_ofOutcome _ _⟩
  | capture body | group body | negative body | positive body | select body =>
      exact ⟨part body (by simp [Kind.children]), fun _ => trivial⟩
  | backReference name =>
      intro bindings stackTable
      dsimp only
      split <;> trivial
  | backCapture name body index =>
      apply keepsTo_onMatch (part body (by simp [Kind.children]))
      exact fun m => keepsTo_ofExcept fun _ => trivial
  | stackCapture stack body =>
      apply keepsTo_onMatch (part body (by simp [Kind.children]))
      exact fun m _ _ => trivial
  | stackPop stack count => exact fun _ _ => keepsTo_ofExcept fun _ => trivial
  | sequence items => exact keepsTo_sequence part _
  | choice items => exact keepsTo_choice part _
  | repetition body count => exact keepsTo_repetition (part body (by simp [Kind.children])) _ _ _
  | reference name cell =>
      dsimp only [reference]
      split
      · next rule target => exact ⟨Graph.leads_of_target? found target, fun _ => trivial⟩
      · trivial
  | transform body change =>
      apply keepsTo_onMatch (part body (by simp [Kind.children]))
      intro m
      split
      · trivial
      · exact keepsTo_ofExcept fun _ => trivial

end Routine

end Matching

end PegEngine
