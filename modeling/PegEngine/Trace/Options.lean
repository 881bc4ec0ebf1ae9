import PegEngine.Trace.Specification

/-!
Contract: how the attempts of a pattern are traced, and what a trace holds.

A pattern with trace options reports the attempts made by itself and below it, down to patterns
with options of their own. The options choose the attempts on both sides of a match, and whether
a report is written as log lines or recorded as an event.
-/

namespace PegEngine

/-- Where reports go. A sink gives nothing back to the match. `record` hands the whole attempt over,
and so it stands for any sink of a client: whatever that makes of the attempts is a function of
those on record. -/
inductive TraceSink where
  | log
  | record
deriving DecidableEq, Repr, Inhabited

structure TraceOptions where
  before : TraceFilter
  after : TraceFilter
  sink : TraceSink := .log
deriving Inhabited

namespace TraceOptions

/-- One filter for both sides of a match. -/
def both (filter : TraceFilter) : TraceOptions :=
  { before := filter, after := filter }

def hidden : TraceOptions :=
  both .hide

def shown : TraceOptions :=
  both .show

def parse (spec : String) : Except PatternError TraceOptions :=
  match TraceFilter.parse spec with
  | .ok filter => .ok (both filter)
  | .error error => .error error

/-- The options allow a report of this side of an attempt. -/
def allows (options : TraceOptions) (attempt : Attempt) : Bool :=
  match attempt.phase with
  | .before => options.before.allows attempt
  | .after _ => options.after.allows attempt

def describe (options : TraceOptions) : String :=
  "DebugOptions \x7b before: " ++ options.before.describe ++ ", after: " ++ options.after.describe
    ++ ", .. \x7d"

end TraceOptions

inductive TraceEntry where
  | line (text : String)
  | event (attempt : Attempt)
deriving DecidableEq, Repr

end PegEngine
