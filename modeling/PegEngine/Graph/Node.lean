import PegEngine.Callback.Program
import PegEngine.CharSet

/-!
Contract: the nodes of pattern graphs.

Owns:
- `Kind`, what a node matches, with its sub-patterns by identity;
- `Node`, a kind with an optional name and optional trace options;
- the facts about a node that do not depend on other nodes.
-/

namespace PegEngine

inductive RepeatCount where
  /-- As often as possible, and no match below the minimum. -/
  | atLeast (minimum : Nat)
  | atMost (maximum : Nat)
  | exactly (count : Nat)
deriving DecidableEq, Repr

/-- A signed count: at least that often, or at most that often when negative. -/
def RepeatCount.ofInt (count : Int) : RepeatCount :=
  if 0 ≤ count then .atLeast count.natAbs else .atMost count.natAbs

inductive Kind where
  | literal (chars : List Char)
  | charSet (set : CharSet)
  | chars (count : Nat)
  /-- The rest of the text, provided it has fewer than `count` characters. -/
  | rest (count : Nat)
  /-- A match of no width, or no match. -/
  | constant (accepts : Bool)
  | function (callback : Callback)
  | startOfLine
  | endOfLine
  /-- Captures the matched text ahead of the captures of `body`. -/
  | capture (body : PatternId)
  | value (value : Capture)
  /-- Collects the captures of `body` into one list, or nothing when there are none and
  `dropEmpty` is set. -/
  | group (body : PatternId) (dropEmpty : Bool)
  | position
  | line
  | column
  /-- The text that is bound to `name`. -/
  | backReference (name : String)
  /-- Binds the text of `body`, or one of its captures, to `name`. -/
  | backCapture (name : String) (body : PatternId) (index : Option Int)
  /-- Moves the captures of `body` onto a stack. -/
  | stackCapture (stack : String) (body : PatternId)
  | stackPop (stack : String) (count : Nat)
  /-- The text of a stack entry, or a match of no width when the entry is as expected. -/
  | stackMatch (stack : String) (index : Int) (expected : Option Capture)
  /-- Captures the size of a stack, or matches when the size is as expected. -/
  | stackSize (stack : String) (expected : Option Nat)
  | sequence (items : List PatternId)
  | choice (items : List PatternId)
  | negative (body : PatternId)
  | positive (body : PatternId)
  | repetition (body : PatternId) (count : RepeatCount)
  /-- Stands for what its cell is bound to. -/
  | reference (name : String) (cell : CellId)
  /-- Keeps one capture of `body`, or `default` when there is no such capture. -/
  | select (body : PatternId) (index : Int) (default : Option Capture)
  | transform (body : PatternId) (transform : Transform)

namespace Kind

/-- The direct sub-patterns. What a reference is bound to is not one of them. -/
def children : Kind → List PatternId
  | .sequence items | .choice items => items
  | .capture body | .group body _ | .backCapture _ body _ | .stackCapture _ body
  | .negative body | .positive body | .repetition body _ | .select body _ _
  | .transform body _ => [body]
  | _ => []

def isCapture : Kind → Bool
  | .capture _ | .value _ | .group _ _ | .position | .line | .column => true
  | _ => false

/-- The stack that the pattern works on. -/
def stack? : Kind → Option String
  | .stackCapture stack _ | .stackPop stack _ | .stackMatch stack _ _ | .stackSize stack _ =>
      some stack
  | _ => none

end Kind

structure Node where
  kind : Kind
  name : Option String := none
  trace : Option TraceOptions := none

namespace Node

/-- What stands in for a node that is gone: it never matches. -/
def absent : Node :=
  { kind := .constant false }

/-- The items of a plain sequence. Names and trace options make a sequence a unit of its own. -/
def sequenceItems? (node : Node) : Option (List PatternId) :=
  match node.kind, node.name, node.trace with
  | .sequence items, none, none => some items
  | _, _, _ => none

def choiceItems? (node : Node) : Option (List PatternId) :=
  match node.kind, node.name, node.trace with
  | .choice items, none, none => some items
  | _, _, _ => none

end Node

end PegEngine
