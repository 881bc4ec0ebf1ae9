import PegEngine.Bindings
import PegEngine.Match
import PegEngine.Text.Line

/-!
Contract: what a pattern is matched against, a text together with the names bound so far.
-/

namespace PegEngine

/-- A text to match against, with its bindings. -/
structure Input where
  text : Text
  bindings : Bindings := {}
deriving DecidableEq, Repr, Inhabited

namespace Input

def ofString (text : String) : Input :=
  { text := Text.ofString text }

def bind (input : Input) (name : String) (value : Capture) : Input :=
  { input with bindings := input.bindings.bind name value }

/-- Cut the bindings back to their oldest `number`. -/
def restore (input : Input) (number : Nat) : Except MatchError Input :=
  (input.bindings.restore number).map fun bindings => { input with bindings }

end Input

def Text.index (text : Text) (offset : Int) : Except MatchError Nat :=
  match text.position? offset with
  | some i => .ok i
  | none => .error (.indexOutOfRange offset text.length)

end PegEngine
