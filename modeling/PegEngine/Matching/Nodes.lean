import PegEngine.Matching.State

/-!
Contract: what each kind of node matches, given how its sub-patterns are matched.

`matchKind` leaves a failed sub-pattern as it is: the call of a pattern takes back whatever the
pattern did before it failed. Positions are at most the length of the text.
-/

namespace PegEngine

namespace Matching

/-! ## Primitives -/

/-- A match of no width when a condition holds. -/
def zeroWidthIf (text : Text) (i : Nat) (accepts : Bool) : Option Match :=
  if accepts then some (text.matchOver i i) else none

/-- A match of no width that captures a value. -/
def zeroWidthValue (text : Text) (i : Nat) (value : Capture) : Option Match :=
  some { source := text, start := i, stop := i, captures := [value] }

def literalAt (text : Text) (i : Nat) (literal : List Char) : Option Match :=
  if text.occursAt literal i then some (text.matchOver i (i + literal.length)) else none

def charAt (text : Text) (i : Nat) (set : CharSet) : Option Match :=
  match text.charAt? i with
  | some c => if set.contains c then some (text.matchOver i (i + 1)) else none
  | none => none

def charsAt (text : Text) (i count : Nat) : Option Match :=
  if count ≤ text.length - i then some (text.matchOver i (i + count)) else none

def restAt (text : Text) (i count : Nat) : Option Match :=
  if text.length - i < count then some (text.matchOver i text.length) else none

/-! ## Callbacks -/

/-- A match from a callback must lie in the rest of the text and must be made on a text of the
same length. -/
def checkSpan (text : Text) (i : Nat) (m : Match) : Except MatchError Match :=
  if i ≤ m.start ∧ m.start ≤ m.stop ∧ m.stop ≤ text.length ∧ m.source.length = text.length then
    .ok m
  else
    .error (.invalidSpan m.start m.stop i)

/-- Raise an error, or go on with the value. -/
def orThrow {α : Type} : Except MatchError α → MatchM α
  | .ok value => pure value
  | .error error => throw error

/-- What a callback's outcome means at position `i`. -/
def ofOutcome (text : Text) (i : Nat) : CallbackOutcome → MatchM (Option Match)
  | .found m => do return some (← orThrow (checkSpan text i m))
  | .accept => pure (some (text.matchOver i i))
  | .stopAt stop =>
      if i ≤ stop ∧ stop ≤ text.length then pure (some (text.matchOver i stop)) else pure none
  | .reject => pure none

/-- Carry out the requests of a callback in order. -/
def runProgram (call : Caller) : Program → MatchM CallbackOutcome
  | .finish outcome => pure outcome
  | .fail error => throw error
  | .inspect next => fun state => runProgram call (next state.view) state
  | .bind name value next => fun state =>
      runProgram call next { state with bindings := state.bindings.bind name value }
  | .restore number next => fun state =>
      match state.bindings.restore number with
      | .ok bindings => runProgram call (next (.ok ())) { state with bindings }
      | .error error => runProgram call (next (.error error)) state
  | .push stack value next => fun state =>
      runProgram call next { state with stackTable := state.stackTable.push stack value }
  | .pop stack next => fun state =>
      let (value, stackTable) := state.stackTable.pop stack
      runProgram call (next value) { state with stackTable }
  | .popMany stack count position next => fun state =>
      match state.stackTable.popMany stack count position with
      | .ok (values, stackTable) => runProgram call (next (.ok values)) { state with stackTable }
      | .error error => runProgram call (next (.error error)) state
  | .commit next => fun state =>
      runProgram call next { state with stackTable := state.stackTable.commit }
  | .rollback checkpoint next => fun state =>
      runProgram call next { state with stackTable := state.stackTable.rollback checkpoint }
  | .run pattern index next => fun state =>
      match call pattern index state with
      | .ok outcome state => runProgram call (next (.ok outcome)) state
      | .error error state => runProgram call (next (.error error)) state

/-! ## Captures, bindings and stacks -/

/-- The match with its text captured first. -/
def captureText (m : Match) : Match :=
  { m with captures := .text m.value :: m.captures }

/-- The match with its captures collected into one list. -/
def collectCaptures (dropEmpty : Bool) (m : Match) : Match :=
  if dropEmpty && m.captures.isEmpty then m else { m with captures := [.list m.captures] }

def matchBackReference (text : Text) (i : Nat) (name : String) : MatchM (Option Match) := do
  match (← get).bindings.lookup? name with
  | none => throw (.unboundBackCapture name i none)
  | some value => pure (literalAt text i value.display.toList)

/-- What a back capture binds: the text of the match, or one of its captures. -/
def boundValue (i : Nat) (index : Option Int) (m : Match) : Except MatchError Capture :=
  match index with
  | none => .ok (.text m.value)
  | some index =>
      match m.capture? index with
      | some value => .ok value
      | none => .error (.captureIndexOutOfRange index m.captures.length i none)

def matchBackCapture (call : Caller) (i : Nat) (name : String) (body : PatternId)
    (index : Option Int) : MatchM (Option Match) := do
  match ← call body i with
  | none => pure none
  | some m =>
      let value ← orThrow (boundValue i index m)
      modify fun state => { state with bindings := state.bindings.bind name value }
      pure (some m)

def matchStackCapture (call : Caller) (i : Nat) (stack : String) (body : PatternId) :
    MatchM (Option Match) := do
  match ← call body i with
  | none => pure none
  | some m =>
      modify fun state => { state with stackTable := state.stackTable.pushAll stack m.captures }
      pure (some { m with captures := [] })

def matchStackPop (text : Text) (i : Nat) (stack : String) (count : Nat) :
    MatchM (Option Match) := do
  let (_, stackTable) ← orThrow ((← get).stackTable.popMany stack count i)
  modify fun state => { state with stackTable }
  pure (some (text.matchOver i i))

/-- A stack entry at position `i`: equal to what is expected, or its text. An entry that is no
text matches without width when nothing is expected. There is no match without an entry. -/
def stackEntryAt (text : Text) (i : Nat) (entry : Option Capture) (expected : Option Capture) :
    Option Match :=
  match entry, expected with
  | none, _ => none
  | some value, some expected => zeroWidthIf text i (expected == value)
  | some (.text value), none => literalAt text i value.toList
  | some _, none => some (text.matchOver i i)

/-- The size of a stack, captured or compared. -/
def stackSizeAt (text : Text) (i size : Nat) (expected : Option Nat) : Option Match :=
  match expected with
  | none => zeroWidthValue text i (.int size)
  | some expected => zeroWidthIf text i (expected == size)

/-! ## Combinators -/

/-- The items one after the other, each from where the match so far ends. -/
def matchSequence (call : Caller) : List PatternId → Match → MatchM (Option Match)
  | [], soFar => pure (some soFar)
  | item :: rest, soFar => do
      match ← call item soFar.stop with
      | none => pure none
      | some m => matchSequence call rest (soFar.append m)

def matchChoice (call : Caller) (i : Nat) : List PatternId → MatchM (Option Match)
  | [] => pure none
  | item :: rest => do
      match ← call item i with
      | some m => pure (some m)
      | none => matchChoice call i rest

/-- The body as often as it matches, at most `most` times more, counted on from `done`. -/
def matchUpTo (call : Caller) (body : PatternId) :
    (most : Nat) → (done : Nat) → Match → MatchM (Nat × Match)
  | 0, done, soFar => pure (done, soFar)
  | most + 1, done, soFar => do
      match ← call body soFar.stop with
      | none => pure (done, soFar)
      | some m => matchUpTo call body most (done + 1) (soFar.append m)

/-- The body as often as it matches, and no match below `minimum`. An iteration without width
would repeat forever; it counts for all that are missing. Every other iteration takes one of
the `left` characters that are left, so none is possible once none is left. -/
def matchAtLeast (call : Caller) (body : PatternId) (minimum : Nat) :
    (left : Nat) → (done : Nat) → Match → MatchM (Option Match)
  | left, done, soFar => do
      match ← call body soFar.stop with
      | none => pure (if minimum ≤ done then some soFar else none)
      | some m =>
          if m.stop = soFar.stop then
            pure (some (soFar.append m))
          else
            match left with
            | 0 => pure (some (soFar.append m))
            | left + 1 => matchAtLeast call body minimum left (done + 1) (soFar.append m)

def matchRepetition (text : Text) (call : Caller) (i : Nat) (body : PatternId) :
    RepeatCount → MatchM (Option Match)
  | .atLeast minimum =>
      matchAtLeast call body minimum (text.length - i) 0 (text.matchOver i i)
  | .atMost maximum => do
      let (_, m) ← matchUpTo call body maximum 0 (text.matchOver i i)
      pure (some m)
  | .exactly count => do
      let (done, m) ← matchUpTo call body count 0 (text.matchOver i i)
      pure (if done = count then some m else none)

/-- What a reference is bound to. An unbound reference does not match, and the trace tells. -/
def matchReference (graph : Graph) (call : Caller) (i : Nat) (name : String) (cell : CellId) :
    MatchM (Option Match) := do
  match graph.target? cell with
  | some rule => call rule i
  | none =>
      modify fun state => state.addTrace
        [.line ("Reference " ++ bracketed name ++ " matched before it was bound")]
      pure none

/-- The match of `body` from position `i` on, with one of its captures or the default. -/
def selectCapture (text : Text) (i : Nat) (index : Int) (default : Option Capture) (m : Match) :
    Match :=
  { source := text, start := i, stop := m.stop,
    captures := (m.capture? index <|> default).toList }

/-- The match of `body` after a transform, which may turn it down. -/
def matchTransform (text : Text) (call : Caller) (i : Nat) (body : PatternId)
    (transform : Transform) : MatchM (Option Match) := do
  match ← call body i with
  | none => pure none
  | some m =>
      match transform m with
      | none => pure none
      | some transformed => return some (← orThrow (checkSpan text i transformed))

/-! ## All kinds -/

/-- Match a kind of node at position `i`, inside its own call. -/
def matchKind (setup : Setup) (call : Caller) (i : Nat) :
    Kind → MatchM (Option Match)
  | .literal chars => pure (literalAt setup.text i chars)
  | .charSet set => pure (charAt setup.text i set)
  | .chars count => pure (charsAt setup.text i count)
  | .rest count => pure (restAt setup.text i count)
  | .constant accepts => pure (zeroWidthIf setup.text i accepts)
  | .function callback => do
      ofOutcome setup.text i (← runProgram call (callback.program setup.text i))
  | .startOfLine => pure (zeroWidthIf setup.text i (setup.text.startsLine i))
  | .endOfLine => pure (zeroWidthIf setup.text i (setup.text.endsLine i))
  | .capture body => do return (← call body i).map captureText
  | .value value => pure (zeroWidthValue setup.text i value)
  | .group body dropEmpty => do return (← call body i).map (collectCaptures dropEmpty)
  | .position => pure (zeroWidthValue setup.text i (.position i))
  | .line => pure (zeroWidthValue setup.text i (.line (setup.text.lineNumber i)))
  | .column => pure (zeroWidthValue setup.text i (.column (setup.text.columnNumber i)))
  | .backReference name => matchBackReference setup.text i name
  | .backCapture name body index => matchBackCapture call i name body index
  | .stackCapture stack body => matchStackCapture call i stack body
  | .stackPop stack count => matchStackPop setup.text i stack count
  | .stackMatch stack index expected => do
      return stackEntryAt setup.text i ((← get).stackTable.entry? stack index) expected
  | .stackSize stack expected => do
      return stackSizeAt setup.text i ((← get).stackTable.size stack) expected
  | .sequence items => matchSequence call items (setup.text.matchOver i i)
  | .choice items => matchChoice call i items
  | .negative body => do return zeroWidthIf setup.text i (← call body i).isNone
  | .positive body => do return (← call body i).map fun m => { m with start := i, stop := i }
  | .repetition body count => matchRepetition setup.text call i body count
  | .reference name cell => matchReference setup.graph call i name cell
  | .select body index default => do
      return (← call body i).map (selectCapture setup.text i index default)
  | .transform body transform => matchTransform setup.text call i body transform

end Matching

end PegEngine
