import PegEngine.Proofs.Trace.Faults

/-!
Contract: a filter is read back from its written form.

In the written form of a filter every operand that is a combination stands in parentheses, on the
left as well as on the right. The grammar of specifications groups operands to the right and knows
no precedence, so it has no choice but to group them as they were. A test that a client brings along
has no name, and no specification has a filter with such a test.

Owns:
- `isPlain`, that a filter is made of named filters only;
- `isExpr_encode`, which filter the grammar gives to a written form;
- `IsExpr.isPlain`, that the grammar gives plain filters only;
- `parse_display_iff`, for all filters.
-/

namespace PegEngine

namespace TraceFilter

/-- The filter is made of the filters that have a name. -/
def isPlain : TraceFilter → Bool
  | .hide | .show | .named | .onlySuccess => true
  | .both left right | .either left right => left.isPlain && right.isPlain
  | .custom _ => false

namespace Specification

/-! ## Written forms -/

theorem isPlain_apply (operator : Connective) {left right : TraceFilter} :
    (operator.apply left right).isPlain ↔ left.isPlain ∧ right.isPlain := by
  cases operator <;> simp [Connective.apply, isPlain]

theorem encode_apply (operator : Connective) (left right : TraceFilter) :
    (operator.apply left right).encode =
      left.operand left.encode ++ ' ' :: operator.mark :: ' ' :: right.operand right.encode := by
  cases operator <;> rw [Connective.apply, encode.eq_def] <;> simp [Connective.mark]

theorem operand_apply (operator : Connective) (left right : TraceFilter) (written : List Char) :
    (operator.apply left right).operand written = '(' :: written ++ [')'] := by
  cases operator <;> simp [Connective.apply, operand, isCombination]

theorem isTerm_of_name {name : List Char} {filter : TraceFilter}
    (starts : name.head?.any startsName) (continues : name.all continuesName)
    (known : filterOf? name = some filter) : IsTerm name filter := by
  have isName : IsName name :=
    { starts, continues := List.all_eq_true.mp continues }
  simpa using IsTerm.name .nil isName known .nil

theorem isTerm_group {chars : List Char} {filter : TraceFilter} (isExpr : IsExpr chars filter) :
    IsTerm ('(' :: chars ++ [')']) filter := by
  simpa using IsTerm.group .nil isExpr .nil

theorem isTerm_blank {chars : List Char} {filter : TraceFilter} {c : Char} (blank : isBlank c)
    (isTerm : IsTerm chars filter) : IsTerm (c :: chars) filter := by
  cases isTerm with
  | group before isExpr after => exact .group (List.forall_mem_cons.mpr ⟨blank, before⟩) isExpr after
  | name before isName known after =>
      exact .name (List.forall_mem_cons.mpr ⟨blank, before⟩) isName known after

/-- The operator of a combination has a blank on both sides. As an operand the combination stands in
parentheses. -/
theorem isExpr_apply (operator : Connective) {left right : TraceFilter}
    (isLeft : IsTerm (left.operand left.encode) left)
    (isRight : IsTerm (right.operand right.encode) right) :
    let both := operator.apply left right
    IsExpr both.encode both ∧ IsTerm (both.operand both.encode) both := by
  intro both
  have blank : isBlank ' ' := by decide
  have isExpr : IsExpr both.encode both := by
    rw [encode_apply]
    simpa using IsExpr.combined (isLeft.concat blank) operator (.term (isTerm_blank blank isRight))
  refine ⟨isExpr, ?_⟩
  rw [operand_apply]
  exact isTerm_group isExpr

/-- The written form of a filter is an expression, and that of an operand is a term. -/
theorem isExpr_encode {filter : TraceFilter} (plain : filter.isPlain) :
    IsExpr filter.encode filter ∧ IsTerm (filter.operand filter.encode) filter := by
  induction filter with
  | hide | «show» | named | onlySuccess =>
      refine (and_iff_right_of_imp IsExpr.term).mpr ?_
      exact isTerm_of_name (by decide +kernel) (by decide +kernel) rfl
  | both left right leftHypothesis rightHypothesis =>
      obtain ⟨plainLeft, plainRight⟩ := (isPlain_apply .and).mp plain
      exact isExpr_apply .and (leftHypothesis plainLeft).2 (rightHypothesis plainRight).2
  | either left right leftHypothesis rightHypothesis =>
      obtain ⟨plainLeft, plainRight⟩ := (isPlain_apply .or).mp plain
      exact isExpr_apply .or (leftHypothesis plainLeft).2 (rightHypothesis plainRight).2
  | custom => cases plain

/-! ## Filters of specifications -/

theorem isPlain_of_filterOf? {name : List Char} {filter : TraceFilter}
    (known : filterOf? name = some filter) : filter.isPlain := by
  obtain ⟨before, after, same, -⟩ := List.lookup_eq_some_iff.mp known
  have allPlain : (before ++ (String.ofList name, filter) :: after).all (·.2.isPlain) := by
    rw [← same]
    rfl
  rw [List.all_append, List.all_cons, Bool.and_eq_true, Bool.and_eq_true] at allPlain
  exact allPlain.2.1

mutual

theorem IsExpr.isPlain : ∀ {chars : List Char} {filter : TraceFilter}, IsExpr chars filter →
    filter.isPlain
  | _, _, .term isTerm => isTerm.isPlain
  | _, _, .combined isLeft operator isRight =>
      (isPlain_apply operator).mpr ⟨isLeft.isPlain, isRight.isPlain⟩

theorem IsTerm.isPlain : ∀ {chars : List Char} {filter : TraceFilter}, IsTerm chars filter →
    filter.isPlain
  | _, _, .group _ isExpr _ => isExpr.isPlain
  | _, _, .name _ _ known _ => isPlain_of_filterOf? known

end

end Specification

open Specification in
/-- A filter comes back from its written form, however its combinations are nested, unless it has a
test of a client's own. -/
theorem parse_display_iff (filter : TraceFilter) :
    parse filter.display = .ok filter ↔ filter.isPlain := by
  rw [parse_eq_ok_iff, display, String.toList_ofList]
  exact ⟨IsExpr.isPlain, fun plain => (isExpr_encode plain).1⟩

end TraceFilter

end PegEngine
