import PegEngine.Pattern.Build

/-!
Contract: frequently used patterns.

The character classes are those of ASCII. `until` scans for a pattern; the scan itself is
hidden from traces.
-/

namespace PegEngine

namespace Pattern

def alpha : Build PatternId :=
  charSet ⟨[.range 'A' 'Z', .range 'a' 'z']⟩

def digit : Build PatternId :=
  charSet ⟨[.range '0' '9']⟩

def quote : Build PatternId :=
  oneOf "\"'"

def blank : Build PatternId :=
  oneOf " \t"

def blanks : Build PatternId := do
  zeroOrMore (← blank)

def someBlanks : Build PatternId := do
  oneOrMore (← blank)

/-- One line end: a carriage return with a line feed, or one of them. -/
def newline : Build PatternId := do
  choice [← literal "\r\n", ← literal "\r", ← literal "\n"]

/-- Everything up to the first place where `stop` matches, and with `through` also what it
matches there. -/
def upTo (stop : PatternId) (through : Bool) : Build PatternId := do
  let step ← except (← chars 1) stop
  let before ← zeroOrMore (← traced step .hidden)
  if through then sequence [before, stop] else pure before

end Pattern

end PegEngine
