import PegEngine.Capture
import PegEngine.Text.Basic

/-!
Contract: a successful match of a pattern.

A match remembers the text it was made on, the positions it spans and what it captured. Its
value is cut out of its own text, clamped to it, so a match can be shown whatever its span.
-/

namespace PegEngine

/-- A match over `start` to `stop` of `source`. -/
structure Match where
  source : Text
  start : Nat
  stop : Nat
  captures : List Capture := []
deriving DecidableEq, Repr, Inhabited

namespace Match

def value (m : Match) : String :=
  m.source.slice m.start m.stop

def isZeroWidth (m : Match) : Bool :=
  m.start == m.stop

def hasCaptures (m : Match) : Bool :=
  !m.captures.isEmpty

/-- The capture at `index`, counted from the end when negative. -/
def capture? (m : Match) (index : Int) : Option Capture :=
  Capture.pick? m.captures index

def addCapture (m : Match) (capture : Capture) : Match :=
  { m with captures := m.captures ++ [capture] }

/-- The match extended by the part that follows it: it ends where the part ends and takes on
the captures of the part. -/
def append (m part : Match) : Match :=
  { m with stop := part.stop, captures := m.captures ++ part.captures }

/-- Two matches count as equal when they matched the same text, wherever it stood. -/
def sameText (a b : Match) : Bool :=
  a.value == b.value

/-- One line that shows the value, the span and the captures. -/
def describe (m : Match) : String :=
  "MatchResult \x7b value: " ++ quotedText m.value ++ ", start: " ++ toString m.start
    ++ ", end: " ++ toString m.stop ++ ", captures: ["
    ++ String.intercalate ", " (m.captures.map Capture.describe) ++ "] \x7d"

end Match

/-- The match over `start` to `stop` of a text, without captures. -/
def Text.matchOver (text : Text) (start stop : Nat) : Match :=
  { source := text, start, stop }

end PegEngine
