import PegEngine.Matching.Engine

/-!
Contract: matching by value, the reference for the engine's shared state.

Bindings and stacks are a value that each pattern gets and that a match gives back. Nothing is
recorded and nothing is taken back: a pattern that does not match, or that ends in an error, gives
nothing back, and the value from before it is used again. An error carries the innermost named
pattern around its place from the start.

Does not own: function patterns, whose callbacks look at the journal.
-/

namespace PegEngine

namespace ByValue

/-- The names bound so far, and the entries of every stack with the bottom first. -/
@[ext] structure Store where
  bindings : Bindings
  entries : String → List Capture

/-- A match and the store after it, no match, or an error. -/
abbrev Outcome := Except MatchError (Option (Match × Store))

/-- Match a pattern at a position, given the store. -/
abbrev Evaluator := PatternId → Nat → Store → Outcome

namespace Store

def bind (store : Store) (name : String) (value : Capture) : Store :=
  { store with bindings := store.bindings.bind name value }

def setStack (store : Store) (stack : String) (values : List Capture) : Store :=
  { store with entries := fun other => if other = stack then values else store.entries other }

/-- Put values on top of a stack, in order. -/
def pushAll (store : Store) (stack : String) (values : List Capture) : Store :=
  store.setStack stack (store.entries stack ++ values)

/-- Take the top `count` values off a stack. -/
def drop (store : Store) (stack : String) (count : Nat) : Store :=
  store.setStack stack ((store.entries stack).take ((store.entries stack).length - count))

end Store

/-- An outcome that leaves the store alone. -/
def still (outcome : Option Match) (store : Store) : Outcome :=
  .ok (outcome.map (·, store))

/-- Go on after a child: with the store that its match gave back, or with the one held before it. -/
def after {α : Type} (child : Outcome) (held : Store)
    (next : Option Match → Store → Except MatchError α) : Except MatchError α :=
  match child with
  | .ok (some (m, store)) => next (some m) store
  | .ok none => next none held
  | .error error => .error error

section Nodes

variable (eval : Evaluator) (within : Option String) (i : Nat)

def backReference (text : Text) (name : String) (store : Store) : Outcome :=
  match store.bindings.lookup? name with
  | none => .error (.unboundBackCapture name i within)
  | some value => still (Matching.literalAt text i value.display.toList) store

def backCapture (name : String) (body : PatternId) (index : Option Int) (store : Store) :
    Outcome :=
  after (eval body i store) store fun
    | none, _ => .ok none
    | some m, store =>
        match index with
        | none => .ok (some (m, store.bind name (.text m.value)))
        | some index =>
            match m.capture? index with
            | some value => .ok (some (m, store.bind name value))
            | none => .error (.captureIndexOutOfRange index m.captures.length i within)

def stackCapture (stack : String) (body : PatternId) (store : Store) : Outcome :=
  after (eval body i store) store fun
    | none, _ => .ok none
    | some m, store => .ok (some ({ m with captures := [] }, store.pushAll stack m.captures))

def stackPop (text : Text) (stack : String) (count : Nat) (store : Store) : Outcome :=
  let available := (store.entries stack).length
  if available < count then
    .error (.stackUnderflow stack count available i within)
  else
    .ok (some (text.matchOver i i, store.drop stack count))

def sequence : List PatternId → Match → Store → Outcome
  | [], soFar, store => .ok (some (soFar, store))
  | item :: rest, soFar, store =>
      after (eval item soFar.stop store) store fun
        | none, _ => .ok none
        | some m, store => sequence rest (soFar.append m) store

def choice : List PatternId → Store → Outcome
  | [], _ => .ok none
  | item :: rest, store =>
      after (eval item i store) store fun
        | some m, store => .ok (some (m, store))
        | none, store => choice rest store

def upTo (body : PatternId) : (most : Nat) → (done : Nat) → Match → Store →
    Except MatchError (Nat × Match × Store)
  | 0, done, soFar, store => .ok (done, soFar, store)
  | most + 1, done, soFar, store =>
      after (eval body soFar.stop store) store fun
        | none, store => .ok (done, soFar, store)
        | some m, store => upTo body most (done + 1) (soFar.append m) store

/-- At most `left` iterations with width are possible. -/
def atLeast (body : PatternId) (minimum : Nat) : (left : Nat) → (done : Nat) → Match → Store →
    Outcome
  | left, done, soFar, store =>
      after (eval body soFar.stop store) store fun
        | none, store => still (if minimum ≤ done then some soFar else none) store
        | some m, store =>
            if m.stop = soFar.stop then
              .ok (some (soFar.append m, store))
            else
              match left with
              | 0 => .ok (some (soFar.append m, store))
              | left + 1 => atLeast body minimum left (done + 1) (soFar.append m) store

def repetition (text : Text) (body : PatternId) (store : Store) : RepeatCount → Outcome
  | .atLeast minimum => atLeast eval body minimum (text.length - i) 0 (text.matchOver i i) store
  | .atMost maximum =>
      (upTo eval body maximum 0 (text.matchOver i i) store).map fun (_, m, store) =>
        some (m, store)
  | .exactly count =>
      (upTo eval body count 0 (text.matchOver i i) store).map fun (done, m, store) =>
        if done = count then some (m, store) else none

def reference (graph : Graph) (cell : CellId) (store : Store) : Outcome :=
  match graph.target? cell with
  | some rule => eval rule i store
  | none => .ok none

def transform (text : Text) (body : PatternId) (change : Transform) (store : Store) : Outcome :=
  after (eval body i store) store fun
    | none, _ => .ok none
    | some m, store =>
        match change m with
        | none => .ok none
        | some changed =>
            match Matching.checkSpan text i changed with
            | .ok changed => .ok (some (changed, store))
            | .error error => .error error

end Nodes

/-- Match a kind of node at position `i`, inside the named pattern `within`. -/
def kind (setup : Setup) (eval : Evaluator) (within : Option String) (i : Nat) :
    Kind → Store → Outcome
  | .literal chars, store => still (Matching.literalAt setup.text i chars) store
  | .charSet set, store => still (Matching.charAt setup.text i set) store
  | .chars count, store => still (Matching.charsAt setup.text i count) store
  | .rest count, store => still (Matching.restAt setup.text i count) store
  | .constant accepts, store => still (Matching.zeroWidthIf setup.text i accepts) store
  | .function _, _ => .ok none
  | .startOfLine, store =>
      still (Matching.zeroWidthIf setup.text i (setup.text.startsLine i)) store
  | .endOfLine, store => still (Matching.zeroWidthIf setup.text i (setup.text.endsLine i)) store
  | .capture body, store =>
      after (eval body i store) store fun outcome => still (outcome.map Matching.captureText)
  | .value value, store => still (Matching.zeroWidthValue setup.text i value) store
  | .group body dropEmpty, store =>
      after (eval body i store) store fun outcome =>
        still (outcome.map (Matching.collectCaptures dropEmpty))
  | .position, store => still (Matching.zeroWidthValue setup.text i (.position i)) store
  | .line, store =>
      still (Matching.zeroWidthValue setup.text i (.line (setup.text.lineNumber i))) store
  | .column, store =>
      still (Matching.zeroWidthValue setup.text i (.column (setup.text.columnNumber i))) store
  | .backReference name, store => backReference within i setup.text name store
  | .backCapture name body index, store => backCapture eval within i name body index store
  | .stackCapture stack body, store => stackCapture eval i stack body store
  | .stackPop stack count, store => stackPop within i setup.text stack count store
  | .stackMatch stack index expected, store =>
      let entry := Capture.pick? (store.entries stack) index
      still (Matching.stackEntryAt setup.text i entry expected) store
  | .stackSize stack expected, store =>
      still (Matching.stackSizeAt setup.text i (store.entries stack).length expected) store
  | .sequence items, store => sequence eval items (setup.text.matchOver i i) store
  | .choice items, store => choice eval i items store
  | .negative body, store =>
      after (eval body i store) store fun outcome =>
        still (Matching.zeroWidthIf setup.text i outcome.isNone)
  | .positive body, store =>
      after (eval body i store) store fun outcome =>
        still (outcome.map fun m => { m with start := i, stop := i })
  | .repetition body count, store => repetition eval i setup.text body store count
  | .reference _ cell, store => reference eval i setup.graph cell store
  | .select body index default, store =>
      after (eval body i store) store fun outcome =>
        still (outcome.map (Matching.selectCapture setup.text i index default))
  | .transform body change, store => transform eval i setup.text body change store

/-- Match a pattern by value, at most `room` calls deep. -/
def eval (setup : Setup) : (room : Nat) → (within : Option String) → Evaluator
  | 0, _, _, index, _ => .error (.recursionLimit setup.limit (min index setup.text.length))
  | room + 1, within, pattern, index, store =>
      let inner := setup.graph.name? pattern <|> within
      kind setup (eval setup room inner) inner (min index setup.text.length)
        (setup.graph.kind pattern) store

end ByValue

/-- The bindings and the entries of the stacks, without the journal. -/
def MatchState.store (state : MatchState) : ByValue.Store where
  bindings := state.bindings
  entries := state.stackTable.entries

end PegEngine
