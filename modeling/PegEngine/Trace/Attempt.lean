import PegEngine.Input
import PegEngine.Pattern.Identity
import PegEngine.StackTable

/-!
Contract: one attempt to match a pattern, as trace filters see it.

An attempt is seen twice, before the pattern is matched and after. A pattern whose attempt ends
in an error is not seen after it.
-/

namespace PegEngine

/-- The side of an attempt that is looked at. -/
inductive Phase where
  | before
  /-- The outcome is absent when the pattern did not match. -/
  | after (outcome : Option Match)
deriving DecidableEq, Repr

/-- One side of an attempt: the pattern with what is known of it, the place, and the state of
the match at that moment. -/
structure Attempt where
  pattern : PatternId
  name : Option String
  isCapture : Bool
  stack : Option String
  text : Text
  index : Nat
  bindings : Bindings
  stackTable : StackTable
  phase : Phase
deriving DecidableEq, Repr

end PegEngine
