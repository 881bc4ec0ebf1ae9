import PegEngine.Input
import PegEngine.Pattern.Identity
import PegEngine.StackTable
import PegEngine.Trace.Options

/-!
Contract: what a function pattern may do.

A callback is a function of the text and the position. It yields a `Program`, a tree of requests
to the running match: each request carries what to do with its answer, and the last one gives
the outcome. A request that may fail hands its error to the callback, which decides whether the
error ends the match.
-/

namespace PegEngine

/-- What a function pattern reports. -/
inductive CallbackOutcome where
  /-- A complete match, used as it is once its span is checked. -/
  | found (m : Match)
  /-- A match of no width at the current position. -/
  | accept
  /-- A match from the current position to `stop`. -/
  | stopAt (stop : Nat)
  | reject
deriving DecidableEq, Repr

/-- The state of the running match that a callback can look at. -/
structure CallbackView where
  bindings : Bindings
  stackTable : StackTable
  /-- The nesting of pattern calls, the callback's own pattern included. -/
  depth : Nat
  trace : Option TraceOptions

/-- Requests to the running match, ending in an outcome or an error. -/
inductive Program where
  | finish (outcome : CallbackOutcome)
  | fail (error : MatchError)
  | inspect (next : CallbackView → Program)
  | bind (name : String) (value : Capture) (next : Program)
  /-- Cut the bindings back to a number. -/
  | restore (number : Nat) (next : Except MatchError Unit → Program)
  | push (stack : String) (value : Capture) (next : Program)
  | pop (stack : String) (next : Option Capture → Program)
  | popMany (stack : String) (count position : Nat)
      (next : Except MatchError (List Capture) → Program)
  | commit (next : Program)
  | rollback (checkpoint : Checkpoint) (next : Program)
  /-- Match a pattern at a position. -/
  | run (pattern : PatternId) (index : Nat) (next : Except MatchError (Option Match) → Program)

/-- The behaviour of a function pattern, and the patterns that it keeps for its own use. -/
structure Callback where
  program : Text → Nat → Program
  patterns : List PatternId := []

/-- What a wrapping pattern makes of a match. There is no match when it gives none. -/
abbrev Transform := Match → Option Match

end PegEngine
