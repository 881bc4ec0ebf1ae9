import PegEngine.Tokenizer.Grammar

/-!
Contract: the stream of tokens of a text.

At each position the end pattern of the active grammar is tried first, then its rules in order;
the first that matches decides. Every attempt starts without bindings and in a fresh context.

The stream ends when nothing matches, when a skip or a plain token takes no character, when a
grammar that was entered without taking a character is left at the same position, when the
initial grammar is left, and after an error.
-/

namespace PegEngine

structure Token where
  name : String
  result : Match
deriving DecidableEq, Repr

/-- A grammar that is active, with the pattern that ends it. -/
structure Active where
  grammar : Grammar
  stop : Option PatternId
  /-- The position where a match of no width switched to the grammar. -/
  openedEmptyAt : Option Nat
deriving DecidableEq, Repr

/-- A stream of tokens between two tokens. -/
structure TokenStream where
  input : Input
  index : Nat
  /-- The active grammars, the innermost first. -/
  active : List Active
  finished : Bool := false

/-- The answer to a request for a token: a token, nothing more, or an error. -/
abbrev TokenAnswer := Except MatchError (Option Token)

namespace TokenStream

def grammarName? (stream : TokenStream) : Option String :=
  stream.active.head?.map (·.grammar.name)

def atEnd (stream : TokenStream) : Bool :=
  stream.input.text.length ≤ stream.index

/-- Match a pattern at the position of the stream, without bindings and in a fresh context. -/
def attempt (graph : Graph) (config : MatchConfig) (pattern : PatternId) (stream : TokenStream) :
    MatchRun :=
  graph.matchIn pattern { stream.input with bindings := {} } stream.index { config }

/-- The end of trying rules in order: the rule that matched with its match, if any, the input,
and the trace. -/
structure Search where
  result : Except MatchError (Option (Rule × Match))
  input : Input
  trace : List TraceEntry

/-- Try rules in order up to the first one that matches. -/
def search (graph : Graph) (config : MatchConfig) (stream : TokenStream) :
    List Rule → Search
  | [] => { result := .ok none, input := stream.input, trace := [] }
  | rule :: rest =>
      let run := stream.attempt graph config rule.pattern
      match run.result with
      | .error error => { result := .error error, input := run.input, trace := run.trace }
      | .ok (some m) => { result := .ok (some (rule, m)), input := run.input, trace := run.trace }
      | .ok none =>
          let later := search graph config { stream with input := run.input } rest
          { later with trace := run.trace ++ later.trace }

/-- The token of a match, under the name of its pattern. -/
def token (graph : Graph) (pattern : PatternId) (m : Match) : Token :=
  { name := (graph.name? pattern).getD "", result := m }

def entering (grammar : String) (index : Nat) : TraceEntry :=
  .line ("Entering grammar '" ++ grammar ++ "' at " ++ toString index)

def leaving (grammar : String) (index : Nat) : TraceEntry :=
  .line ("Leaving grammar '" ++ grammar ++ "' at " ++ toString index)

/-- One request for a token: the answer, the stream after it, and the trace. -/
structure Reading where
  answer : TokenAnswer
  stream : TokenStream
  trace : List TraceEntry

def Reading.after (trace : List TraceEntry) (reading : Reading) : Reading :=
  { reading with trace := trace ++ reading.trace }

/-- The end pattern of the active grammar has matched: yield its match and leave the grammar.
The stream ends with the last grammar, and also when the grammar was entered at this very
position and nothing was taken, since the same switch would open it again. -/
def leave (graph : Graph) (stream : TokenStream) (active : Active) (outer : List Active)
    (stop : PatternId) (m : Match) : Reading :=
  let stalled := m.stop == stream.index && active.openedEmptyAt == some stream.index
  { answer := .ok (some (token graph stop m))
    stream := { stream with index := m.stop, active := outer,
                            finished := outer.isEmpty || stalled }
    trace := [leaving active.grammar.name m.stop] }

/-- A switch rule has matched: yield its match and make its grammar active. -/
def enter (graph : Graph) (tokenizer : Tokenizer) (stream : TokenStream) (pattern : PatternId)
    (m : Match) (grammar : String) (stop : PatternId) : Reading :=
  match tokenizer.grammar? grammar with
  | none => { answer := .ok none, stream := { stream with index := m.stop }, trace := [] }
  | some next =>
      let progressed := stream.index < m.stop
      let opened : Active :=
        { grammar := next, stop := some stop
          openedEmptyAt := if progressed then none else some m.stop }
      { answer := .ok (some (token graph pattern m))
        stream := { stream with index := m.stop, active := opened :: stream.active }
        trace := [entering grammar m.stop] }

/-- What becomes of the stream at one position: an answer, or a skip that took characters. -/
inductive Move where
  | answer (reading : Reading)
  | skip (stream : TokenStream) (trace : List TraceEntry)

def Move.after (trace : List TraceEntry) : Move → Move
  | .answer reading => .answer (reading.after trace)
  | .skip stream later => .skip stream (trace ++ later)

/-- A rule has matched. A plain token or a skip that takes no character ends the stream. -/
def apply (graph : Graph) (tokenizer : Tokenizer) (stream : TokenStream) (rule : Rule)
    (m : Match) : Move :=
  let moved := { stream with index := m.stop }
  match rule.kind with
  | .token =>
      .answer
        { answer := .ok (some (token graph rule.pattern m))
          stream := { moved with finished := m.stop ≤ stream.index }
          trace := [] }
  | .switch grammar stop => .answer (stream.enter graph tokenizer rule.pattern m grammar stop)
  | .skip =>
      if stream.index < m.stop then .skip moved []
      else .answer { answer := .ok none, stream := moved, trace := [] }

def moveByRules (graph : Graph) (tokenizer : Tokenizer) (stream : TokenStream)
    (grammar : Grammar) : Move :=
  let found := stream.search graph tokenizer.config grammar.rules
  let stream := { stream with input := found.input }
  match found.result with
  | .error error => .answer { answer := .error error, stream, trace := found.trace }
  | .ok none => .answer { answer := .ok none, stream, trace := found.trace }
  | .ok (some (rule, m)) => (stream.apply graph tokenizer rule m).after found.trace

/-- Let the active grammar decide: its end pattern first, then its rules. -/
def move (graph : Graph) (tokenizer : Tokenizer) (stream : TokenStream) : Move :=
  match stream.active with
  | [] => .answer { answer := .ok none, stream, trace := [] }
  | active :: outer =>
      match active.stop with
      | none => stream.moveByRules graph tokenizer active.grammar
      | some stop =>
          let run := stream.attempt graph tokenizer.config stop
          let stream := { stream with input := run.input }
          match run.result with
          | .error error => .answer { answer := .error error, stream, trace := run.trace }
          | .ok (some m) => .answer ((stream.leave graph active outer stop m).after run.trace)
          | .ok none => (stream.moveByRules graph tokenizer active.grammar).after run.trace

/-- Move over skips up to an answer. Every skip takes one of the `left` characters that are
left, so there is none once none is left. -/
def read (graph : Graph) (tokenizer : Tokenizer) : (left : Nat) → TokenStream → Reading
  | left, stream =>
      match stream.move graph tokenizer with
      | .answer reading => reading
      | .skip stream trace =>
          match left with
          | 0 => { answer := .ok none, stream, trace }
          | left + 1 => (read graph tokenizer left stream).after trace

/-- Ask for the next token. Once there is no token, and after an error, there is none any
more. -/
def next (graph : Graph) (tokenizer : Tokenizer) (stream : TokenStream) : Reading :=
  if stream.finished then
    { answer := .ok none, stream, trace := [] }
  else
    let reading := read graph tokenizer (stream.input.text.length - stream.index) stream
    match reading.answer with
    | .ok (some _) => reading
    | _ => { reading with stream := { reading.stream with finished := true } }

end TokenStream

namespace Tokenizer

/-- The stream of tokens of a text from an offset that may count back from the end, with the
trace of its start. -/
def tokens (tokenizer : Tokenizer) (text : Text) (offset : Int) :
    Except MatchError (TokenStream × List TraceEntry) :=
  match text.index offset with
  | .error error => .error error
  | .ok index =>
      match tokenizer.grammar? tokenizer.initial with
      | some grammar =>
          .ok ({ input := { text }, index,
                 active := [{ grammar, stop := tokenizer.stop, openedEmptyAt := none }] },
            [TokenStream.entering grammar.name index])
      | none => .ok ({ input := { text }, index, active := [] }, [])

end Tokenizer

end PegEngine
