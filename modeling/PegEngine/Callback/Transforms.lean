import PegEngine.Callback.Program

/-!
Contract: transforms of matches for wrapping patterns.

Some change what a match captured, some its span, and some only decide whether it counts.
Spans are shifted by signed distances and do not go below zero.
-/

namespace PegEngine

/-- A position moved by a signed distance, zero when it would go below. -/
def shiftPosition (position : Nat) (distance : Int) : Nat :=
  (position + distance).toNat

namespace Transform

/-- The match as it is. -/
def keep : Transform :=
  some

def refuse : Transform :=
  fun _ => none

/-- One text capture in place of all: their texts with a separator between them. -/
def joinCaptures (separator : String) : Transform := fun m =>
  some { m with captures := [.text (String.intercalate separator (m.captures.map Capture.display))] }

def shiftSpan (startBy stopBy : Int) : Transform := fun m =>
  some { m with start := shiftPosition m.start startBy, stop := shiftPosition m.stop stopBy }

def replaceCaptures (captures : List Capture) : Transform := fun m =>
  some { m with captures }

def addCapture (capture : Capture) : Transform := fun m =>
  some (m.addCapture capture)

def reverseCaptures : Transform := fun m =>
  some { m with captures := m.captures.reverse }

/-- The matched text as the only capture. -/
def captureValue : Transform := fun m =>
  some { m with captures := [.text m.value] }

/-- The capture at `index` as the only one, or no capture when there is none there. -/
def keepCapture (index : Int) : Transform := fun m =>
  some { m with captures := (m.capture? index).toList }

/-- Every capture once more, after the last. -/
def repeatCaptures : Transform := fun m =>
  some { m with captures := m.captures ++ m.captures }

def ifCaptures : Transform := fun m =>
  if m.hasCaptures then some m else none

def ifZeroWidth : Transform := fun m =>
  if m.isZeroWidth then some m else none

def ifValue (text : String) : Transform := fun m =>
  if m.value = text then some m else none

/-- A span of another text in place of the match. -/
def spanOf (text : Text) (start stop : Nat) : Transform := fun _ =>
  some (text.matchOver start stop)

end Transform

end PegEngine
