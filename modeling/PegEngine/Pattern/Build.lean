import PegEngine.Graph.Ownership

/-!
Contract: building patterns.

Every builder puts a node into the graph and answers its identity. Building the same pattern
twice gives two nodes; using an identity twice shares the node.

Owns:
- the primitive patterns and the combinators;
- the flattening of nested sequences and choices;
- `named` and `traced`, which make a copy of a node with a new name or new trace options. A
  copied reference keeps its cell;
- `nest`, an operation applied over and over.
-/

namespace PegEngine

abbrev Build := StateM Graph

namespace Pattern

/-- A new node without a name and without trace options. -/
def ofKind (kind : Kind) : Build PatternId :=
  fun graph => graph.add { kind }

/-! ## Primitives -/

def literal (text : String) : Build PatternId :=
  ofKind (.literal text.toList)

def charSet (set : CharSet) : Build PatternId :=
  ofKind (.charSet set)

def oneOf (chars : String) : Build PatternId :=
  charSet (CharSet.ofString chars)

def chars (count : Nat) : Build PatternId :=
  ofKind (.chars count)

def rest (count : Nat) : Build PatternId :=
  ofKind (.rest count)

/-- Any `count` characters, or for a negative count the rest of the text when that is shorter
than the amount. -/
def signedCount (count : Int) : Build PatternId :=
  if 0 ≤ count then chars count.natAbs else rest count.natAbs

def constant (accepts : Bool) : Build PatternId :=
  ofKind (.constant accepts)

def function (callback : Callback) : Build PatternId :=
  ofKind (.function callback)

def startOfLine : Build PatternId :=
  ofKind .startOfLine

def endOfLine : Build PatternId :=
  ofKind .endOfLine

/-! ## Combinators -/

/-- The items with every one that `inner?` can open replaced by what is inside. -/
def splice (graph : Graph) (inner? : Node → Option (List PatternId)) (items : List PatternId) :
    List PatternId :=
  items.flatMap fun item => (inner? (graph.node item)).getD [item]

/-- One pattern after the other. Plain sequences among the items are spliced in. -/
def sequence (items : List PatternId) : Build PatternId := do
  ofKind (.sequence (splice (← get) Node.sequenceItems? items))

/-- The first pattern that matches. Plain choices among the items are spliced in. -/
def choice (items : List PatternId) : Build PatternId := do
  ofKind (.choice (splice (← get) Node.choiceItems? items))

def negative (body : PatternId) : Build PatternId :=
  ofKind (.negative body)

def positive (body : PatternId) : Build PatternId :=
  ofKind (.positive body)

/-- Matches `body` where `excluded` does not match. -/
def except (body excluded : PatternId) : Build PatternId := do
  sequence [← negative excluded, body]

def repetition (body : PatternId) (count : RepeatCount) : Build PatternId :=
  ofKind (.repetition body count)

def zeroOrMore (body : PatternId) : Build PatternId :=
  repetition body (.atLeast 0)

def oneOrMore (body : PatternId) : Build PatternId :=
  repetition body (.atLeast 1)

def optional (body : PatternId) : Build PatternId :=
  repetition body (.atMost 1)

/-- A placeholder for the rule called `name`, with a cell of its own. -/
def reference (name : String) : Build PatternId := do
  let cell ← modifyGet Graph.addCell
  ofKind (.reference name cell)

def select (body : PatternId) (index : Int) (default : Option Capture) : Build PatternId :=
  ofKind (.select body index default)

def transform (body : PatternId) (transform : Transform) : Build PatternId :=
  ofKind (.transform body transform)

/-! ## Captures -/

def capture (body : PatternId) : Build PatternId :=
  ofKind (.capture body)

def value (value : Capture) : Build PatternId :=
  ofKind (.value value)

def group (body : PatternId) : Build PatternId :=
  ofKind (.group body false)

/-- Collects the captures of `body` into one list, unless there are none. -/
def groupNonEmpty (body : PatternId) : Build PatternId :=
  ofKind (.group body true)

def position : Build PatternId :=
  ofKind .position

def line : Build PatternId :=
  ofKind .line

def column : Build PatternId :=
  ofKind .column

def backCapture (name : String) (body : PatternId) (index : Option Int) : Build PatternId :=
  ofKind (.backCapture name body index)

def backReference (name : String) : Build PatternId :=
  ofKind (.backReference name)

/-! ## Stacks -/

def stackCapture (stack : String) (body : PatternId) : Build PatternId :=
  ofKind (.stackCapture stack body)

def stackPop (stack : String) (count : Nat) : Build PatternId :=
  ofKind (.stackPop stack count)

/-- The text of a stack entry, counted from the bottom or down from the top when negative. -/
def stackMatch (stack : String) (index : Int) : Build PatternId :=
  ofKind (.stackMatch stack index none)

/-- A match of no width when a stack entry is as expected. -/
def stackExpect (stack : String) (index : Int) (expected : Capture) : Build PatternId :=
  ofKind (.stackMatch stack index expected)

def stackSize (stack : String) : Build PatternId :=
  ofKind (.stackSize stack none)

/-- A match of no width when a stack has the expected size. -/
def stackSizeIs (stack : String) (size : Nat) : Build PatternId :=
  ofKind (.stackSize stack size)

/-! ## Names and trace options -/

/-- A copy of a pattern under a name. -/
def named (body : PatternId) (name : String) : Build PatternId :=
  fun graph => graph.add { graph.node body with name := name }

/-- A copy of a pattern with trace options. -/
def traced (body : PatternId) (options : TraceOptions) : Build PatternId :=
  fun graph => graph.add { graph.node body with trace := options }

/-! ## Repeated building -/

/-- Apply an operation `count` times, to `body` first. A result on the way that is no part of the
next one, as when it is spliced in, has no owner and is let go of at once. -/
def nest (operation : PatternId → Build PatternId) (count : Nat) (body : PatternId) :
    Build PatternId :=
  (List.range count).foldlM (fun inner step => do
    let outer ← operation inner
    if step != 0 && inner != outer then
      modify fun graph => graph.discard inner
    pure outer) body

end Pattern

end PegEngine
