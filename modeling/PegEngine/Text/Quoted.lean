import PegEngine.Text.Invisible

/-!
Contract: text and characters quoted for display.

The quote mark, the backslash and the common controls are written behind a backslash, a
character without a visible form of its own by its code point, and every other character as
itself. The mark that does not delimit is not escaped.
-/

namespace PegEngine

namespace Quoted

/-- The code point of `c` in braces, in lower-case hexadecimal digits. -/
def codePoint (c : Char) : List Char :=
  ['\\', 'u', '\x7b'] ++ Nat.toDigits 16 c.toNat ++ ['\x7d']

/-- The written form of one character between two `mark`s. -/
def escape (mark c : Char) : List Char :=
  if c = '\x00' then ['\\', '0']
  else if c = '\t' then ['\\', 't']
  else if c = '\r' then ['\\', 'r']
  else if c = '\n' then ['\\', 'n']
  else if c = '\\' ∨ c = mark then ['\\', c]
  else if isInvisible c then codePoint c
  else [c]

/-- Characters between two `mark`s. -/
def encode (mark : Char) (chars : List Char) : List Char :=
  mark :: chars.flatMap (escape mark) ++ [mark]

end Quoted

def quotedText (text : String) : String :=
  String.ofList (Quoted.encode '"' text.toList)

def quotedChar (c : Char) : String :=
  String.ofList (Quoted.encode '\'' [c])

end PegEngine
