import PegEngine.Pattern.Idiom
import PegEngine.Tokenizer.Stream

/-!
Contract: the built-in lexer for source text.

It knows comments, strings, numbers, identifiers, punctuation and line ends, and three kinds of
brackets. Each bracket switches to a grammar of its own, with the same rules, until its partner
closes it, so brackets nest properly.
-/

namespace PegEngine

namespace Lexer

open Pattern

/-- A pair of brackets, and the grammar that is active between them. -/
structure Bracket where
  opener : String
  closer : String
  grammar : String
deriving DecidableEq, Repr

def brackets : List Bracket :=
  [⟨"(", ")", "paren"⟩, ⟨"[", "]", "bracket"⟩, ⟨"\x7b", "\x7d", "brace"⟩]

/-- The grammar outside of all brackets. -/
def outermost : String := "code"

def punctuation : String := "+-*/%=<>!&|^~.,;:?@$"

/-- A letter or an underscore, then any number of them and of digits. -/
def identifier : Build PatternId := do
  let start ← choice [← alpha, ← literal "_"]
  sequence [start, ← zeroOrMore (← choice [start, ← digit])]

/-- Digits, and perhaps a point and digits again. -/
def number : Build PatternId := do
  let digits ← oneOrMore (← digit)
  sequence [digits, ← optional (← sequence [← literal ".", digits])]

/-- A string on one line, closed by the quote that opened it. A backslash takes the next
character with it. What stands between the quotes is captured. -/
def string : Build PatternId := do
  let escaped ← sequence [← literal "\\", ← chars 1]
  let plain ← except (← chars 1)
    (← choice [← backReference "q", ← literal "\\", ← newline])
  sequence [← backCapture "q" (← quote) none,
    ← capture (← zeroOrMore (← choice [escaped, plain])),
    ← backReference "q"]

/-- From a comment mark to the end of the line. -/
def comment : Build PatternId := do
  sequence [← choice [← literal "#", ← literal "//"], ← upTo (← newline) false]

def bracketRule (bracket : Bracket) : Build Rule := do
  return .switch (← named (← literal bracket.opener) "open") bracket.grammar
    (← named (← literal bracket.closer) "close")

def rules : Build (List Rule) := do
  let start := [
    Rule.skip (← someBlanks),
    .token (← named (← newline) "newline"),
    .token (← named (← comment) "comment"),
    .token (← named (← string) "string"),
    .token (← named (← number) "number"),
    .token (← named (← identifier) "ident")]
  let switches ← brackets.mapM bracketRule
  return start ++ switches ++ [.token (← named (← oneOf punctuation) "punct")]

def grammar (name : String) : Build Grammar := do
  return { name, rules := ← rules }

/-- The lexer. Its rules and grammars have all the names that they need. -/
def tokenizer : Build Tokenizer := do
  return { grammars := ← (outermost :: brackets.map (·.grammar)).mapM grammar,
           initial := outermost }

end Lexer

end PegEngine
