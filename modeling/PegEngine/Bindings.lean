import PegEngine.Capture
import PegEngine.Error

/-!
Contract: the names bound by back captures.

Bindings are a list that grows at one end and is cut back to an earlier number. A later binding
of a name hides an earlier one, and cutting back uncovers it again.
-/

namespace PegEngine

/-- Names with the values bound to them, the newest binding first. -/
structure Bindings where
  newestFirst : List (String × Capture) := []
deriving DecidableEq, Repr, Inhabited

namespace Bindings

/-- The number of bindings, hidden ones included. -/
def count (bindings : Bindings) : Nat :=
  bindings.newestFirst.length

def bind (bindings : Bindings) (name : String) (value : Capture) : Bindings :=
  ⟨(name, value) :: bindings.newestFirst⟩

/-- The newest value bound to `name`. -/
def lookup? (bindings : Bindings) (name : String) : Option Capture :=
  bindings.newestFirst.lookup name

/-- Cut the list back to its oldest `number` bindings. There is no way to cut it back to more
bindings than it has. -/
def restore (bindings : Bindings) (number : Nat) : Except MatchError Bindings :=
  if bindings.count < number then
    .error (.backCaptureUnderflow number bindings.count)
  else
    .ok ⟨bindings.newestFirst.drop (bindings.count - number)⟩

@[simp] theorem count_bind (bindings : Bindings) (name : String) (value : Capture) :
    (bindings.bind name value).count = bindings.count + 1 := rfl

theorem lookup?_bind (bindings : Bindings) (name other : String) (value : Capture) :
    (bindings.bind name value).lookup? other =
      if other = name then some value else bindings.lookup? other := by
  by_cases same : other = name
  · simp [lookup?, bind, same]
  · have differs : (other == name) = false := by simpa using same
    simp [lookup?, bind, List.lookup_cons, same, differs]

theorem restore_count (bindings : Bindings) : bindings.restore bindings.count = .ok bindings := by
  simp [restore]

/-- Cutting back takes off what was bound since. -/
theorem restore_bind (bindings : Bindings) (name : String) (value : Capture) :
    (bindings.bind name value).restore bindings.count = .ok bindings := by
  simp [restore, bind, count]

end Bindings

end PegEngine
