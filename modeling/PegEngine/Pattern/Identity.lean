/-!
Contract: the identity of pattern nodes and of reference cells.

Patterns share sub-patterns and refer to each other, so a node is known by a number. A number
is given out once: the node of a number can go, but no other node ever takes its place.
-/

namespace PegEngine

abbrev PatternId := Nat

/-- The identity of the cell that holds what a reference is bound to. -/
abbrev CellId := Nat

end PegEngine
