import PegEngine.Text.Quoted

/-!
Contract: the errors of building patterns and of matching, one constructor a cause, and one
`message` for each.

A pattern that does not match is no error. A `PatternError` is a mistake in a pattern, a
grammar or a trace filter. A `MatchError` is a grammar or a callback that misuses its state.
`MatchError.inPattern` records the innermost named pattern around three of them: the first
name stays.
-/

namespace PegEngine

/-- Mistakes found while patterns, grammars and trace options are built. -/
inductive PatternError where
  | invertedRange (low high : Char)
  /-- A token or switch rule whose pattern has no name. -/
  | unnamedToken (grammar : String)
  | unnamedEndPattern (grammar : String)
  | duplicateGrammar (name : String)
  | unknownGrammar (name : String)
  /-- A reference that is bound to another pattern already. -/
  | referenceRebound (name : String)
  /-- A pattern without a name offered as a rule. -/
  | unnamedRule
  /-- A filter specification that breaks off or goes wrong at the given byte. -/
  | invalidFilter (spec : String) (byte : Nat)
  | unknownFilter (name : String)
deriving DecidableEq, Repr

def PatternError.message : PatternError → String
  | .invertedRange low high =>
      "Lower range value must not exceed upper value: " ++ quotedChar low ++ ".." ++ quotedChar high
  | .unnamedToken grammar => "Token patterns in grammar '" ++ grammar ++ "' must have a name"
  | .unnamedEndPattern grammar => "End pattern for grammar '" ++ grammar ++ "' must have a name"
  | .duplicateGrammar name => "Grammar '" ++ name ++ "' is defined twice"
  | .unknownGrammar name => "No grammar named '" ++ name ++ "' has been registered"
  | .referenceRebound name => "Reference '" ++ name ++ "' is already bound to a different pattern"
  | .unnamedRule => "Reference bindings must be named patterns"
  | .invalidFilter spec byte =>
      "Invalid debug filter " ++ quotedText spec ++ " at offset " ++ toString byte
  | .unknownFilter name => "Unknown debug filter '" ++ name ++ "'"

/-- Misuse of matching state found while a pattern is matched. The three constructors with a
`pattern` carry the name of the innermost named pattern around the place. -/
inductive MatchError where
  /-- The start offset of a match lies outside the text. -/
  | indexOutOfRange (index : Int) (length : Nat)
  | unboundBackCapture (name : String) (position : Nat) (pattern : Option String)
  /-- More entries asked of a stack than it holds. -/
  | stackUnderflow (stack : String) (requested available position : Nat) (pattern : Option String)
  /-- A capture index beyond the captures of a match. -/
  | captureIndexOutOfRange (index : Int) (available position : Nat) (pattern : Option String)
  /-- A callback's match that does not lie in the rest of the text. -/
  | invalidSpan (start stop position : Nat)
  /-- Pattern calls nested deeper than the limit. -/
  | recursionLimit (limit position : Nat)
  /-- The bindings were restored to a number that they do not reach. -/
  | backCaptureUnderflow (expected actual : Nat)
deriving DecidableEq, Repr

namespace MatchError

/-- Where an error arose: its position, and the named pattern around it if there is one. -/
def locationText (position : Nat) : Option String → String
  | some name => " (in <" ++ name ++ "> at " ++ toString position ++ ")"
  | none => " (at " ++ toString position ++ ")"

def message : MatchError → String
  | .indexOutOfRange index length =>
      "Invalid index " ++ toString index ++ " for input of length " ++ toString length
  | .unboundBackCapture name position pattern =>
      "No back-capture was found for '" ++ name ++ "'" ++ locationText position pattern
  | .stackUnderflow stack requested available position pattern =>
      "Cannot pop " ++ toString requested ++ " from stack '" ++ stack ++ "' holding "
        ++ toString available ++ locationText position pattern
  | .captureIndexOutOfRange index available position pattern =>
      "Capture index " ++ toString index ++ " is invalid for " ++ toString available ++ " captures"
        ++ locationText position pattern
  | .invalidSpan start stop position =>
      "Callback returned invalid span " ++ toString start ++ ".." ++ toString stop
        ++ " (at " ++ toString position ++ ")"
  | .recursionLimit limit position =>
      "Pattern nesting exceeded " ++ toString limit ++ " levels (at " ++ toString position ++ ")"
  | .backCaptureUnderflow expected actual =>
      "The back-capture list is shorter than expected (" ++ toString actual ++ " < "
        ++ toString expected ++ ")"

/-- Attribute an error to the pattern `name`, unless an inner named pattern has claimed it. -/
def inPattern (name : Option String) : MatchError → MatchError
  | .unboundBackCapture bound position pattern =>
      .unboundBackCapture bound position (pattern <|> name)
  | .stackUnderflow stack requested available position pattern =>
      .stackUnderflow stack requested available position (pattern <|> name)
  | .captureIndexOutOfRange index available position pattern =>
      .captureIndexOutOfRange index available position (pattern <|> name)
  | error => error

/-- The innermost named pattern that the error arose in. -/
def pattern? : MatchError → Option String
  | .unboundBackCapture _ _ pattern => pattern
  | .stackUnderflow _ _ _ _ pattern => pattern
  | .captureIndexOutOfRange _ _ _ pattern => pattern
  | _ => none

/-- The first name given to an error stays. -/
theorem inPattern_inPattern (inner : String) (outer : Option String) (error : MatchError) :
    (error.inPattern (some inner)).inPattern outer = error.inPattern (some inner) := by
  cases error <;> simp [inPattern]

end MatchError

end PegEngine
