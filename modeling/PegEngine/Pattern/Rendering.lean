import PegEngine.Graph.Basic

/-!
Contract: the written form of patterns.

Operators are written as in parsing expression grammars, other patterns like calls. A named
sub-pattern is written as its name in angle brackets, and so is a reference, which keeps
recursive grammars finite. A sub-pattern of an operator stands in parentheses when its own
operator binds less tightly, or equally tightly and is another one.

`Graph.display` needs no bound on the graph: sub-patterns have smaller numbers, so a pattern's
own number bounds the depth of its written form.
-/

namespace PegEngine

inductive Operator where
  | atom
  | repetition
  | negative
  | positive
  | sequence
  | select
  | transform
  | choice
deriving DecidableEq, Repr

namespace Operator

/-- The tighter an operator binds, the lower its level. -/
def level : Operator → Nat
  | .atom => 1
  | .repetition => 4
  | .negative | .positive => 5
  | .sequence | .select | .transform => 6
  | .choice => 7

/-- A pattern of operator `child` needs parentheses below `parent`. -/
def needsParentheses (parent child : Operator) : Bool :=
  parent.level < child.level || (parent.level == child.level && parent != child)

end Operator

namespace Kind

def operator : Kind → Operator
  | .repetition _ _ => .repetition
  | .negative _ => .negative
  | .positive _ => .positive
  | .sequence _ => .sequence
  | .select _ _ _ => .select
  | .transform _ _ => .transform
  | .choice _ => .choice
  | _ => .atom

end Kind

/-- The mark of a count behind the body of a repetition. -/
def RepeatCount.display : RepeatCount → String
  | .atLeast 0 => "*"
  | .atLeast 1 => "+"
  | .atMost 1 => "?"
  | .atLeast minimum => "\x7b" ++ toString minimum ++ ",\x7d"
  | .atMost maximum => "\x7b," ++ toString maximum ++ "\x7d"
  | .exactly count => "\x7b" ++ toString count ++ "\x7d"

def bracketed (name : String) : String :=
  "<" ++ name ++ ">"

def callText (head : String) (arguments : List String) : String :=
  head ++ "(" ++ String.intercalate ", " arguments ++ ")"

namespace Graph

/-- The written form of a sub-pattern below an operator: its name, or else that of its kind. -/
def displayOperand (graph : Graph) (written : PatternId → String) (parent : Operator)
    (child : PatternId) : String :=
  match graph.name? child with
  | some name => bracketed name
  | none =>
      if parent.needsParentheses (graph.kind child).operator then "(" ++ written child ++ ")"
      else written child

/-- The written form of a sub-pattern in a call: its name, or else that of its kind. -/
def displayArgument (graph : Graph) (written : PatternId → String) (child : PatternId) :
    String :=
  match graph.name? child with
  | some name => bracketed name
  | none => written child

/-- The written form of a kind, given that of its sub-patterns' kinds. -/
def displayKind (graph : Graph) (written : PatternId → String) (kind : Kind) : String :=
  let operand := graph.displayOperand written kind.operator
  let argument := graph.displayArgument written
  match kind with
  | .literal chars => quotedText (String.ofList chars)
  | .charSet set => set.display
  | .chars 1 => "."
  | .chars count => ".\x7b" ++ toString count ++ "\x7d"
  | .rest count => "P(-" ++ toString count ++ ")"
  | .constant accepts => if accepts then "true" else "false"
  | .function _ => "P(<fn>)"
  | .startOfLine => "SOL()"
  | .endOfLine => "EOL()"
  | .capture body => callText "C" [argument body]
  | .value value => callText "Cc" [value.display]
  | .group body _ => callText "Cg" [argument body]
  | .position => "Cp()"
  | .line => "Cl()"
  | .column => "Col()"
  | .backReference name => callText "Cb" [name]
  | .backCapture name body none => callText "Cb" [name, argument body]
  | .backCapture name body (some index) => callText "Cb" [name, toString index, argument body]
  | .stackCapture stack body => callText "Sc" [stack, argument body]
  | .stackPop stack count => callText "Sp" [stack, toString count]
  | .stackMatch stack index none => callText "Sm" [stack, toString index]
  | .stackMatch stack index (some expected) =>
      callText "Sm" [stack, toString index, expected.display]
  | .stackSize stack none => callText "Ssz" [stack]
  | .stackSize stack (some size) => callText "Ssz" [stack, toString size]
  | .sequence items => String.intercalate " " (items.map operand)
  | .choice items => String.intercalate " / " (items.map operand)
  | .negative body => "!" ++ operand body
  | .positive body => "&" ++ operand body
  | .repetition body count => operand body ++ count.display
  | .reference name _ => bracketed name
  | .select body index none => "(" ++ written body ++ ")/" ++ toString index
  | .select body index (some default) =>
      "(" ++ written body ++ ")/(" ++ toString index ++ ", " ++ default.display ++ ")"
  | .transform body _ => "(" ++ written body ++ ")/<fn>"

/-- The written form of the kind of a pattern, down to `depth` levels. -/
def displayTo (graph : Graph) : (depth : Nat) → PatternId → String
  | 0, _ => ""
  | depth + 1, pattern => graph.displayKind (graph.displayTo depth) (graph.kind pattern)

/-- The written form of a pattern. Its own name is not part of it. -/
def display (graph : Graph) (pattern : PatternId) : String :=
  graph.displayTo (pattern + 1) pattern

/-- The written form of a pattern with its own name, marked as a pattern. -/
def describe (graph : Graph) (pattern : PatternId) : String :=
  match graph.name? pattern with
  | some name => "Pattern(" ++ bracketed name ++ " = " ++ graph.display pattern ++ ")"
  | none => "Pattern(" ++ graph.display pattern ++ ")"

end Graph

end PegEngine
