/-!
Contract: the text that patterns are matched against, addressed by character position.

Owns:
- position `i` stands before character `i`, so a text of length `n` has positions `0` to `n`;
- `span` cuts characters out and clamps to the text;
- `occursAt` tests for a literal;
- `position?` resolves an offset that may count back from the end.

Does not own: lines and columns, which are in `PegEngine.Text.Line`.
-/

namespace PegEngine

structure Text where
  chars : Array Char
deriving DecidableEq, Repr, Inhabited

namespace Text

def ofString (text : String) : Text :=
  ⟨text.toList.toArray⟩

def toString (text : Text) : String :=
  String.ofList text.chars.toList

def length (text : Text) : Nat :=
  text.chars.size

def charAt? (text : Text) (i : Nat) : Option Char :=
  text.chars[i]?

/-- The characters from `start` up to `stop`. Both ends are clamped to the text, so the result
is empty when `stop` does not lie after `start`. -/
def span (text : Text) (start stop : Nat) : List Char :=
  (text.chars.extract start stop).toList

/-- The text between two positions, clamped like `span`. -/
def slice (text : Text) (start stop : Nat) : String :=
  String.ofList (text.span start stop)

/-- The characters of `literal` stand at position `i`. -/
def occursAt (text : Text) (literal : List Char) (i : Nat) : Bool :=
  i + literal.length ≤ text.length && text.span i (i + literal.length) == literal

/-- Resolve an offset: one that is not negative counts from the start, a negative one counts
back from the end. There is no position outside the text. -/
def position? (text : Text) (offset : Int) : Option Nat :=
  if offset < 0 then
    if offset.natAbs ≤ text.length then some (text.length - offset.natAbs) else none
  else
    if offset.toNat ≤ text.length then some offset.toNat else none

/-! ## The view as a list of characters -/

theorem span_eq_take_drop (text : Text) (start stop : Nat) :
    text.span start stop = (text.chars.toList.take stop).drop start := by
  simp [span, List.extract_eq_take_drop, List.drop_take]

theorem length_span (text : Text) (start stop : Nat) :
    (text.span start stop).length = min stop text.length - start := by
  simp only [span, length, Array.length_toList, Array.size_extract]

@[simp] theorem length_ofString (text : String) : (ofString text).length = text.length := by
  simp [ofString, length, String.length_toList]

@[simp] theorem toString_ofString (text : String) : (ofString text).toString = text := by
  simp [ofString, toString]

theorem position?_le {text : Text} {offset : Int} {i : Nat}
    (resolved : text.position? offset = some i) : i ≤ text.length := by
  unfold position? at resolved
  split at resolved <;> split at resolved <;> simp_all <;> omega

/-- A position is the offset that it has from the start. -/
theorem position?_natCast {text : Text} {i : Nat} (inside : i ≤ text.length) :
    text.position? (i : Int) = some i := by
  unfold position?
  rw [if_neg (by omega), Int.toNat_natCast, if_pos inside]

end Text

end PegEngine
