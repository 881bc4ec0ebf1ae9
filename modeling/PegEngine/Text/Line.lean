import PegEngine.Text.Basic

/-!
Contract: lines and columns of a text.

A carriage return, a line feed, or the two in this order end a line. The position between the
two characters of the pair still lies on the line that the pair ends.

Owns:
- `lineStarts`, the positions at which lines begin;
- `lineNumber` and `columnNumber`, both counted from one;
- `startsLine` and `endsLine`, the line anchors of patterns, which look at the neighbouring
  characters only.
-/

namespace PegEngine

namespace Text

/-- The positions just after each line end, for characters that begin at position `i`. -/
def lineEnds (i : Nat) : List Char → List Nat
  | [] => []
  | '\r' :: '\n' :: rest => (i + 2) :: lineEnds (i + 2) rest
  | c :: rest =>
      if c = '\r' ∨ c = '\n' then (i + 1) :: lineEnds (i + 1) rest else lineEnds (i + 1) rest

/-- The positions at which lines begin, ascending. The first line begins at zero. -/
def lineStarts (text : Text) : List Nat :=
  0 :: lineEnds 0 text.chars.toList

/-- The line starts up to position `i`, which is clamped to the text. -/
def lineStartsUpTo (text : Text) (i : Nat) : List Nat :=
  text.lineStarts.filter (· ≤ min i text.length)

/-- The line of position `i`: how many lines have begun there. -/
def lineNumber (text : Text) (i : Nat) : Nat :=
  (text.lineStartsUpTo i).length

def lineStart (text : Text) (i : Nat) : Nat :=
  (text.lineStartsUpTo i).getLastD 0

def columnNumber (text : Text) (i : Nat) : Nat :=
  min i text.length - text.lineStart i + 1

/-- Position `i` begins a line: it is the start of the text or follows a line end that it does
not split. -/
def startsLine (text : Text) : Nat → Bool
  | 0 => true
  | i + 1 =>
      match text.charAt? i with
      | none => true
      | some '\n' => true
      | some '\r' => text.charAt? (i + 1) != some '\n'
      | some _ => false

/-- Position `i` ends a line: it is the end of the text or stands before a line end that it
does not split. -/
def endsLine (text : Text) (i : Nat) : Bool :=
  match text.charAt? i with
  | none => true
  | some '\r' => true
  | some '\n' => i == 0 || text.charAt? (i - 1) != some '\r'
  | some _ => false

end Text

end PegEngine
