import PegEngine.Pattern.Rendering
import PegEngine.Trace.Options

/-!
Contract: how one side of an attempt is reported.

Log lines give the place as line and column. Before a match only named patterns are reported.
After it the report shows the outcome, with the captures of a capturing pattern and the entries
of the stack of a stack pattern.
-/

namespace PegEngine

/-- Matched text as log lines show it: line controls, tabs and quotes stand behind a
backslash. -/
def loggedText (text : String) : String :=
  String.ofList <| text.toList.flatMap fun c =>
    if c = '\r' then ['\\', 'r']
    else if c = '\n' then ['\\', 'n']
    else if c = '\t' then ['\\', 't']
    else if c = '\'' ∨ c = '"' then ['\\', c]
    else [c]

namespace Attempt

/-- What an attempt is, seen from the graph and the state of the match. -/
def ofPattern (graph : Graph) (pattern : PatternId) (text : Text) (index : Nat)
    (bindings : Bindings) (stackTable : StackTable) (phase : Phase) : Attempt where
  pattern
  name := graph.name? pattern
  isCapture := (graph.kind pattern).isCapture
  stack := (graph.kind pattern).stack?
  text
  index
  bindings
  stackTable
  phase

def place (attempt : Attempt) : String :=
  "(" ++ toString (attempt.text.lineNumber attempt.index) ++ "."
    ++ toString (attempt.text.columnNumber attempt.index) ++ ")"

/-- The log lines of one side of an attempt. -/
def logLines (graph : Graph) (attempt : Attempt) : List String :=
  match attempt.phase, attempt.name with
  | .before, none => []
  | .before, some name =>
      ["Enter: " ++ bracketed name ++ " => " ++ attempt.place ++ " "
        ++ graph.display attempt.pattern]
  | .after outcome, name =>
      let shown := match name with
        | some name => bracketed name
        | none => graph.display attempt.pattern
      ("Pattern: " ++ attempt.place ++ " " ++ shown) ::
        match outcome with
        | none => ["  Failed"]
        | some m =>
            ("  Result: '" ++ loggedText m.value ++ "'") ::
              ((if attempt.isCapture then
                  ["  Captures: [" ++ Capture.displayList m.captures ++ "]"]
                else []) ++
              match attempt.stack with
              | some stack =>
                  ["  Stack: " ++ stack ++ " => ["
                    ++ Capture.displayList (attempt.stackTable.entries stack) ++ "]"]
              | none => [])

/-- The trace entries of one side of an attempt that is reported to a sink. -/
def entries (graph : Graph) (attempt : Attempt) : TraceSink → List TraceEntry
  | .log => (attempt.logLines graph).map .line
  | .record => [.event attempt]

end Attempt

end PegEngine
