import PegEngine.Lexer

/-!
Contract: the command that lists the tokens of its input.

Owns:
- `Arguments.parse`, the options of the command;
- `CommandLine.run`, from arguments and input to what is written and the exit code.

Every token is one line: its place, its name, its quoted text and its captures. When the lexer
stops before the end, or an error ends it, a message follows on the error channel. With trace
or verbose output, log lines go there too.
-/

namespace PegEngine

namespace CommandLine

/-- The options of the command. -/
structure Arguments where
  /-- The specification of a trace filter. -/
  trace : Option String := none
  /-- Where to start; a negative offset counts from the end. -/
  offset : Int := 0
  limit : Nat := defaultLimit
  verbose : Bool := false
deriving DecidableEq, Repr

/-- What the arguments ask for. -/
inductive Request where
  | listTokens (arguments : Arguments)
  | showVersion
deriving DecidableEq, Repr

/-- An option that takes a value. -/
inductive Setting where
  | trace
  | offset
  | limit
deriving DecidableEq, Repr

/-- What an option name stands for. -/
inductive Switch where
  | setting (setting : Setting)
  | verbose
  | version
deriving DecidableEq, Repr

def Switch.ofLong? (name : String) : Option Switch :=
  [("debug", .setting .trace), ("offset", .setting .offset), ("max-depth", .setting .limit),
    ("verbose", .verbose), ("version", .version)].lookup name

def Switch.ofShort? (letter : Char) : Option Switch :=
  [('d', .setting .trace), ('o', .setting .offset), ('v', .verbose), ('V', .version)].lookup letter

/-- The value of decimal digits. There is at least one. -/
def decimal? (digits : List Char) : Option Nat :=
  if digits.isEmpty || !digits.all Char.isDigit then none
  else some (digits.foldl (fun value digit => value * 10 + (digit.toNat - '0'.toNat)) 0)

/-- A number that is not negative and has at most 64 bits. -/
def count? (text : String) : Option Nat :=
  let digits := match text.toList with
    | '+' :: digits => digits
    | digits => digits
  (decimal? digits).filter (· < Nat.pow 2 64)

/-- A signed number of at most 64 bits. -/
def signed? (text : String) : Option Int :=
  match text.toList with
  | '-' :: digits => ((decimal? digits).filter (· ≤ Nat.pow 2 63)).map fun value => -(value : Int)
  | '+' :: digits => ((decimal? digits).filter (· < Nat.pow 2 63)).map fun value => (value : Int)
  | digits => ((decimal? digits).filter (· < Nat.pow 2 63)).map fun value => (value : Int)

/-- Arguments that the command cannot be run with. -/
structure UsageError where
  message : String
deriving DecidableEq, Repr

def UsageError.ofArgument (argument : String) : UsageError :=
  ⟨"error: unexpected argument '" ++ argument ++ "'"⟩

def UsageError.ofValue (value : String) : UsageError :=
  ⟨"error: invalid value '" ++ value ++ "'"⟩

namespace Arguments

/-- Give a setting its value. -/
def assign (arguments : Arguments) (setting : Setting) (value : String) :
    Except UsageError Arguments :=
  match setting with
  | .trace => .ok { arguments with trace := some value }
  | .offset =>
      match signed? value with
      | some offset => .ok { arguments with offset }
      | none => .error (.ofValue value)
  | .limit =>
      match count? value with
      | some limit => .ok { arguments with limit }
      | none => .error (.ofValue value)

/-- A setting may take an argument as its value. Only offsets may start with a dash. -/
def mayBeValue (setting : Setting) (argument : String) : Bool :=
  setting == .offset || argument == "-" || !argument.startsWith "-"

/-- What is left to do after an option. -/
inductive Pending where
  | complete (arguments : Arguments)
  /-- The next argument is the value of a setting. -/
  | value (arguments : Arguments) (setting : Setting)
  | version

/-- Read the letters of a group of short options. A setting takes the rest of the group as its
value, without an equals sign in front of it. -/
def parseLetters (argument : String) : Arguments → List Char → Except UsageError Pending
  | arguments, [] => .ok (.complete arguments)
  | arguments, letter :: rest =>
      match Switch.ofShort? letter with
      | some .version => .ok .version
      | some .verbose => parseLetters argument { arguments with verbose := true } rest
      | some (.setting setting) =>
          match rest with
          | [] => .ok (.value arguments setting)
          | '=' :: value => (arguments.assign setting (String.ofList value)).map .complete
          | value => (arguments.assign setting (String.ofList value)).map .complete
      | none => .error (.ofArgument argument)

/-- Read a long option, given without its dashes. A value may follow an equals sign. -/
def parseLong (argument : String) (arguments : Arguments) (option : List Char) :
    Except UsageError Pending :=
  let name := String.ofList (option.takeWhile (· != '='))
  match Switch.ofLong? name, option.dropWhile (· != '=') with
  | some .version, [] => .ok .version
  | some .verbose, [] => .ok (.complete { arguments with verbose := true })
  | some (.setting setting), [] => .ok (.value arguments setting)
  | some (.setting setting), _ :: value =>
      (arguments.assign setting (String.ofList value)).map .complete
  | _, _ => .error (.ofArgument argument)

/-- Read one option. -/
def parseOption (arguments : Arguments) (argument : String) : Except UsageError Pending :=
  match argument.toList with
  | '-' :: '-' :: option => parseLong argument arguments option
  | '-' :: letter :: rest => parseLetters argument arguments (letter :: rest)
  | _ => .error (.ofArgument argument)

/-- Read the arguments. When a setting waits for its value, the next argument is it. Two dashes
alone end the options, and nothing may follow them. -/
def parseFrom (arguments : Arguments) (waiting : Option Setting) :
    List String → Except UsageError Request
  | [] =>
      match waiting with
      | none => .ok (.listTokens arguments)
      | some _ => .error ⟨"error: a value is required"⟩
  | argument :: rest =>
      match waiting with
      | some setting =>
          if mayBeValue setting argument then
            match arguments.assign setting argument with
            | .ok arguments => parseFrom arguments none rest
            | .error error => .error error
          else
            .error (.ofArgument argument)
      | none =>
          if argument == "--" && rest.isEmpty then
            .ok (.listTokens arguments)
          else match arguments.parseOption argument with
          | .ok (.complete arguments) => parseFrom arguments none rest
          | .ok (.value arguments setting) => parseFrom arguments (some setting) rest
          | .ok .version => .ok .showVersion
          | .error error => .error error

/-- Read the arguments of the command. -/
def parse (arguments : List String) : Except UsageError Request :=
  parseFrom {} none arguments

end Arguments

/-- What a run of the command writes, and its exit code. -/
structure Output where
  code : Nat := 0
  stdout : String := ""
  stderr : String := ""
deriving DecidableEq, Repr

def Output.fail (message : String) : Output :=
  { code := 1, stderr := "Error: " ++ message ++ "\n" }

/-- The output with text in front of both channels. -/
def Output.after (stdout stderr : String) (output : Output) : Output :=
  { output with stdout := stdout ++ output.stdout, stderr := stderr ++ output.stderr }

/-- The place of a position: its line and its column. -/
def place (text : Text) (index : Nat) : String :=
  toString (text.lineNumber index) ++ ":" ++ toString (text.columnNumber index)

/-- The line of a token. -/
def tokenLine (text : Text) (token : Token) : String :=
  place text token.result.start ++ " " ++ token.name ++ " " ++ quotedText token.result.value
    ++ (if token.result.hasCaptures then
          " [" ++ Capture.displayList token.result.captures ++ "]"
        else "")
    ++ "\n"

/-- The log lines of trace entries, if they are wanted. Events are not written. -/
def logText (wanted : Bool) (trace : List TraceEntry) : String :=
  if wanted then
    String.join <| trace.map fun
      | .line text => "[DEBUG] " ++ text ++ "\n"
      | .event _ => ""
  else ""

/-- List the tokens of a stream, at most `most` of them. -/
def listTokens (graph : Graph) (tokenizer : Tokenizer) (logging : Bool) :
    (most : Nat) → TokenStream → Output
  | 0, _ => {}
  | most + 1, stream =>
      let reading := stream.next graph tokenizer
      let log := logText logging reading.trace
      let text := stream.input.text
      match reading.answer with
      | .error error => (Output.fail error.message).after "" log
      | .ok (some token) =>
          (listTokens graph tokenizer logging most reading.stream).after (tokenLine text token) log
      | .ok none =>
          if reading.stream.atEnd then
            { stderr := log }
          else
            (Output.fail ("No token matches at " ++ place text reading.stream.index
              ++ " in grammar '" ++ (reading.stream.grammarName?.getD "<none>") ++ "'")).after
              "" log

/-- List the tokens of a text. Every token of the lexer takes a character, so one request more
than there are characters finds the end. -/
def listText (arguments : Arguments) (text : Text) : Output :=
  let logging := arguments.verbose || arguments.trace.isSome
  let options : Except PatternError (Option TraceOptions) :=
    match arguments.trace with
    | none => .ok none
    | some spec => (TraceOptions.parse spec).map some
  match options with
  | .error error => .fail error.message
  | .ok trace =>
      let (lexer, graph) := Lexer.tokenizer.run {}
      let tokenizer := { lexer with config := { limit := arguments.limit, trace } }
      match tokenizer.tokens text arguments.offset with
      | .error error => .fail error.message
      | .ok (stream, trace) =>
          (listTokens graph tokenizer logging (text.length + 1) stream).after ""
            (logText logging trace)

/-- Run the command. -/
def run (arguments : List String) (stdin : String) : Output :=
  match Arguments.parse arguments with
  | .error error => { code := 2, stderr := error.message ++ "\n" }
  | .ok .showVersion => { stdout := "pegmatch 0.1.0\n" }
  | .ok (.listTokens arguments) => listText arguments (Text.ofString stdin)

end CommandLine

end PegEngine
