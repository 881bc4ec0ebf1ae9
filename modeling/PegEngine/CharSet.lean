import PegEngine.Error

/-!
Contract: sets of characters given by single characters and inclusive ranges.

The parts keep their order and their repetitions, because the written form of a set shows
them.
-/

namespace PegEngine

inductive CharClass where
  | single (char : Char)
  /-- Every character from `low` to `high`, both included. -/
  | range (low high : Char)
deriving DecidableEq, Repr

def CharClass.contains (c : Char) : CharClass → Bool
  | .single char => char == c
  | .range low high => low ≤ c && c ≤ high

/-- A set of characters: the union of its parts. -/
structure CharSet where
  classes : List CharClass
deriving DecidableEq, Repr, Inhabited

namespace CharSet

def ofString (chars : String) : CharSet :=
  ⟨chars.toList.map .single⟩

/-- The union of ranges. The first range whose ends are the wrong way round is an error. -/
def ofRanges : List (Char × Char) → Except PatternError CharSet
  | [] => .ok ⟨[]⟩
  | (low, high) :: rest =>
      if high < low then
        .error (.invertedRange low high)
      else
        match ofRanges rest with
        | .ok set => .ok ⟨.range low high :: set.classes⟩
        | .error error => .error error

def contains (set : CharSet) (c : Char) : Bool :=
  set.classes.any (·.contains c)

/-- A character inside brackets. Line controls, the tab and the characters with a meaning in
brackets stand behind a backslash. -/
def escape (c : Char) : List Char :=
  if c = '\n' then ['\\', 'n']
  else if c = '\r' then ['\\', 'r']
  else if c = '\t' then ['\\', 't']
  else if c = ']' ∨ c = '\\' ∨ c = '-' ∨ c = '^' then ['\\', c]
  else [c]

/-- The written form of one part: the character, or the two ends of a range around a dash. -/
def encodeClass : CharClass → List Char
  | .single c => escape c
  | .range low high => escape low ++ '-' :: escape high

/-- The written form of a set: its parts in brackets, nothing between them. -/
def encode (set : CharSet) : List Char :=
  '[' :: set.classes.flatMap encodeClass ++ [']']

def display (set : CharSet) : String :=
  String.ofList set.encode

end CharSet

end PegEngine
