/-!
Contract: membership of a character in a list of inclusive code point ranges.

The character properties of this library are data: each is one list of ranges, and
`inRanges` is the only reader of those lists.
-/

namespace PegEngine

/-- The code point of `c` lies in one of the inclusive `ranges`. -/
def inRanges (ranges : List (Nat × Nat)) (c : Char) : Bool :=
  ranges.any fun range => range.1 ≤ c.toNat && c.toNat ≤ range.2

theorem inRanges_iff {ranges : List (Nat × Nat)} {c : Char} :
    inRanges ranges c = true ↔
      ∃ range ∈ ranges, range.1 ≤ c.toNat ∧ c.toNat ≤ range.2 := by
  simp [inRanges]

end PegEngine
