/-!
Contract: values by name.

A list of names with their values, in the order in which the names were first given. Giving a
name a new value keeps its place.
-/

namespace PegEngine

/-- Values by name. Only the first value of a name counts. -/
abbrev Named (α : Type) := List (String × α)

namespace Named

variable {α : Type}

/-- Give a name a value. A new name goes to the end. -/
def set (name : String) (value : α) : Named α → Named α
  | [] => [(name, value)]
  | (other, old) :: rest =>
      if other = name then (other, value) :: rest else (other, old) :: set name value rest

def erase (name : String) (named : Named α) : Named α :=
  named.filter (·.1 ≠ name)

/-- Names and values in order, where a later value of a name replaces an earlier one. -/
def ofList (entries : List (String × α)) : Named α :=
  entries.foldl (fun named entry => set entry.1 entry.2 named) []

def values (named : Named α) : List α :=
  named.map Prod.snd

theorem lookup_cons (name other : String) (value : α) (rest : Named α) :
    List.lookup other ((name, value) :: rest) =
      if other = name then some value else rest.lookup other := by
  by_cases same : other = name
  · simp [same]
  · have differs : (other == name) = false := by simpa using same
    simp [List.lookup_cons, same, differs]

theorem lookup_set (named : Named α) (name other : String) (value : α) :
    (set name value named).lookup other =
      if other = name then some value else named.lookup other := by
  induction named with
  | nil => simp [set, lookup_cons]
  | cons head tail inductionHypothesis =>
      obtain ⟨first, old⟩ := head
      by_cases here : first = name
      · subst here
        by_cases same : other = first <;> simp [set, lookup_cons, same]
      · by_cases same : other = first
        · subst same
          simp [set, here]
        · simp [set, lookup_cons, here, same, inductionHypothesis]

end Named

end PegEngine
