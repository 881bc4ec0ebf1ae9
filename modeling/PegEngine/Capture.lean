import PegEngine.Text.Quoted

/-!
Contract: the values that a match captures.

Captures form a tree: a list capture holds the captures that a group collected.

Owns:
- the plain text of a capture (`display`) and its text with the kind of each value (`describe`);
- `pick?`, which looks up a capture from either end of a list.
-/

namespace PegEngine

inductive Capture where
  /-- Matched text, or a text constant. -/
  | text (value : String)
  /-- An integer constant, or the size of a stack. -/
  | int (value : Int)
  | bool (value : Bool)
  | position (value : Nat)
  /-- A line number, counted from one. -/
  | line (value : Nat)
  /-- A column number, counted from one. -/
  | column (value : Nat)
  | list (items : List Capture)
deriving Repr, Inhabited

namespace Capture

mutual

/-- Equality of captures is decided by kind and value. -/
def decEq : (a b : Capture) → Decidable (a = b)
  | .text a, .text b => decidable_of_iff (a = b) (by simp)
  | .int a, .int b => decidable_of_iff (a = b) (by simp)
  | .bool a, .bool b => decidable_of_iff (a = b) (by simp)
  | .position a, .position b => decidable_of_iff (a = b) (by simp)
  | .line a, .line b => decidable_of_iff (a = b) (by simp)
  | .column a, .column b => decidable_of_iff (a = b) (by simp)
  | .list a, .list b =>
      match decEqAll a b with
      | isTrue same => isTrue (by rw [same])
      | isFalse different => isFalse (by simpa using different)
  | .text _, .int _ | .text _, .bool _ | .text _, .position _ | .text _, .line _
  | .text _, .column _ | .text _, .list _ => isFalse (by simp)
  | .int _, .text _ | .int _, .bool _ | .int _, .position _ | .int _, .line _
  | .int _, .column _ | .int _, .list _ => isFalse (by simp)
  | .bool _, .text _ | .bool _, .int _ | .bool _, .position _ | .bool _, .line _
  | .bool _, .column _ | .bool _, .list _ => isFalse (by simp)
  | .position _, .text _ | .position _, .int _ | .position _, .bool _ | .position _, .line _
  | .position _, .column _ | .position _, .list _ => isFalse (by simp)
  | .line _, .text _ | .line _, .int _ | .line _, .bool _ | .line _, .position _
  | .line _, .column _ | .line _, .list _ => isFalse (by simp)
  | .column _, .text _ | .column _, .int _ | .column _, .bool _ | .column _, .position _
  | .column _, .line _ | .column _, .list _ => isFalse (by simp)
  | .list _, .text _ | .list _, .int _ | .list _, .bool _ | .list _, .position _
  | .list _, .line _ | .list _, .column _ => isFalse (by simp)

/-- Two lists of captures are equal when they are so item by item. -/
def decEqAll : (a b : List Capture) → Decidable (a = b)
  | [], [] => isTrue rfl
  | [], _ :: _ => isFalse (by simp)
  | _ :: _, [] => isFalse (by simp)
  | a :: as, b :: bs =>
      match decEq a b, decEqAll as bs with
      | isTrue head, isTrue tail => isTrue (by rw [head, tail])
      | isFalse different, _ => isFalse (by simp [different])
      | _, isFalse different => isFalse (by simp [different])

end

instance : DecidableEq Capture := decEq

/-- The text of a matched or constant text capture. -/
def asText? : Capture → Option String
  | .text value => some value
  | _ => none

def asList? : Capture → Option (List Capture)
  | .list items => some items
  | _ => none

mutual

/-- The plain text of a capture. List items stand in brackets, separated by a comma. -/
def display : Capture → String
  | .text value => value
  | .int value => toString value
  | .bool value => if value then "true" else "false"
  | .position value | .line value | .column value => toString value
  | .list items => "[" ++ String.intercalate ", " (displayAll items) ++ "]"

def displayAll : List Capture → List String
  | [] => []
  | item :: rest => item.display :: displayAll rest

end

mutual

/-- A capture with the kind of each value, its texts quoted. -/
def describe : Capture → String
  | .text value => "Text(" ++ quotedText value ++ ")"
  | .int value => "Int(" ++ toString value ++ ")"
  | .bool value => "Bool(" ++ (if value then "true" else "false") ++ ")"
  | .position value => "Position(" ++ toString value ++ ")"
  | .line value => "Line(" ++ toString value ++ ")"
  | .column value => "Column(" ++ toString value ++ ")"
  | .list items => "List([" ++ String.intercalate ", " (describeAll items) ++ "])"

def describeAll : List Capture → List String
  | [] => []
  | item :: rest => item.describe :: describeAll rest

end

/-- Captures as one line of plain text, without brackets. -/
def displayList (captures : List Capture) : String :=
  String.intercalate ", " (captures.map display)

/-- The capture at `index`, counted from the end when negative. -/
def pick? (captures : List Capture) (index : Int) : Option Capture :=
  if index < 0 then
    if index.natAbs ≤ captures.length then captures[captures.length - index.natAbs]? else none
  else
    captures[index.toNat]?

theorem displayAll_eq_map (captures : List Capture) : displayAll captures = captures.map display := by
  induction captures with
  | nil => simp [displayAll]
  | cons head tail inductionHypothesis => simp [displayAll, inductionHypothesis]

theorem describeAll_eq_map (captures : List Capture) :
    describeAll captures = captures.map describe := by
  induction captures with
  | nil => simp [describeAll]
  | cons head tail inductionHypothesis => simp [describeAll, inductionHypothesis]

end Capture

end PegEngine
