import PegEngine.Trace.Attempt

/-!
Contract: which attempts a trace reports.

Owns:
- `TraceFilter.allows`, the meaning of a filter;
- `TraceFilter.display`, its written form, in which every operand that is itself a
  combination stands in parentheses.
-/

namespace PegEngine

/-- Decides whether one side of an attempt is reported. -/
inductive TraceFilter where
  | hide
  | show
  | named
  /-- Everything before a match, and successes after one. -/
  | onlySuccess
  | both (left right : TraceFilter)
  | either (left right : TraceFilter)
  | custom (test : Attempt → Bool)
deriving Inhabited

namespace TraceFilter

def ofBool (shown : Bool) : TraceFilter :=
  if shown then .show else .hide

/-- One side of an attempt passes the filter. -/
def allows (attempt : Attempt) : TraceFilter → Bool
  | .hide => false
  | .show => true
  | .named => attempt.name.isSome
  | .onlySuccess =>
      match attempt.phase with
      | .before => true
      | .after outcome => outcome.isSome
  | .both left right => left.allows attempt && right.allows attempt
  | .either left right => left.allows attempt || right.allows attempt
  | .custom test => test attempt

/-- The filter combines two others. -/
def isCombination : TraceFilter → Bool
  | .both _ _ | .either _ _ => true
  | _ => false

/-- The written form of a filter as an operand of another. -/
def operand (filter : TraceFilter) (written : List Char) : List Char :=
  if filter.isCombination then '(' :: written ++ [')'] else written

def encode : TraceFilter → List Char
  | .hide => "hide".toList
  | .show => "show".toList
  | .named => "named".toList
  | .onlySuccess => "show_only_success".toList
  | .both left right =>
      left.operand left.encode ++ " & ".toList ++ right.operand right.encode
  | .either left right =>
      left.operand left.encode ++ " | ".toList ++ right.operand right.encode
  | .custom _ => "<custom>".toList

def display (filter : TraceFilter) : String :=
  String.ofList filter.encode

/-- The written form of a filter, marked as one. -/
def describe (filter : TraceFilter) : String :=
  "DebugFilter(" ++ filter.display ++ ")"

end TraceFilter

end PegEngine
