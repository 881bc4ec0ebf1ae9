import PegEngine.Text.Ranges

/-!
Contract: the characters that count as blank between the words of a specification.

`isBlank` is the `White_Space` property of the character standard.
-/

namespace PegEngine

/-- Ranges of the `White_Space` property, ascending. -/
def blankRanges : List (Nat × Nat) :=
  [(0x9, 0xD), (0x20, 0x20), (0x85, 0x85), (0xA0, 0xA0), (0x1680, 0x1680), (0x2000, 0x200A),
   (0x2028, 0x2029), (0x202F, 0x202F), (0x205F, 0x205F), (0x3000, 0x3000)]

/-- White space: the ASCII blanks and line controls, and the wider spaces and separators. -/
def isBlank (c : Char) : Bool :=
  inRanges blankRanges c

end PegEngine
