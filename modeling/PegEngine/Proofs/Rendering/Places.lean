import PegEngine.Pattern.Rendering
import PegEngine.Proofs.Graph.Built

/-!
Contract: what the written form of a pattern shows at the places of its sub-patterns.

A place is a path of numbers of sub-patterns. Around a place below unnamed patterns the written form
has a fixed text before and a fixed text after it, whatever stands there. Between the two stands the
name of the sub-pattern, if it has one. Only selections and transformations write the kind of their
body even if it has a name.

Owns:
- `Graph.display_eq`, the written form by that of the direct sub-patterns;
- `Kind.setChild`, `Graph.Place` and `Graph.Replaced`, another pattern at a place;
- `Graph.displayBelow`, what a kind writes for a direct sub-pattern;
- `Graph.display_place`, for the places of all patterns.
-/

namespace PegEngine

/-! ## Texts around a part -/

/-- A separated list has a fixed text before and after each of its items. -/
theorem intercalate_around (separator : String) (front back : List String) :
    ∃ before after, ∀ item,
      separator.intercalate (front ++ item :: back) = before ++ item ++ after := by
  induction front with
  | nil =>
      cases back with
      | nil => exact ⟨"", "", fun item => by simp⟩
      | cons next back =>
          refine ⟨"", separator ++ separator.intercalate (next :: back), fun item => ?_⟩
          simp [String.intercalate_cons_cons, String.append_assoc]
  | cons first front inductionHypothesis =>
      obtain ⟨before, after, around⟩ := inductionHypothesis
      refine ⟨first ++ separator ++ before, after, fun item => ?_⟩
      rw [List.cons_append, String.intercalate_cons_of_ne_nil (by simp), around]
      simp only [String.append_assoc]

theorem intercalate_set_around {α : Type} (separator : String) (written : α → String)
    {items : List α} {i : Nat} (inside : i < items.length) :
    ∃ before after, ∀ item,
      separator.intercalate ((items.set i item).map written) = before ++ written item ++ after := by
  obtain ⟨before, after, around⟩ := intercalate_around separator
    ((items.take i).map written) ((items.drop (i + 1)).map written)
  refine ⟨before, after, fun item => ?_⟩
  rw [List.set_eq_take_append_cons_drop, if_pos inside, List.map_append, List.map_cons, around]

/-- The last argument of a call has a fixed text before and after it. -/
theorem callText_around (head : String) (front : List String) :
    ∃ before after, ∀ argument, callText head (front ++ [argument]) = before ++ argument ++ after := by
  obtain ⟨before, after, around⟩ := intercalate_around ", " front []
  refine ⟨head ++ "(" ++ before, after ++ ")", fun argument => ?_⟩
  simp only [callText, around, String.append_assoc]

/-! ## Another sub-pattern at a place -/

namespace Kind

/-- The kind with `child` as its direct sub-pattern number `i`. -/
def setChild (i : Nat) (child : PatternId) : Kind → Kind
  | .sequence items => .sequence (items.set i child)
  | .choice items => .choice (items.set i child)
  | .capture _ => .capture child
  | .group _ dropEmpty => .group child dropEmpty
  | .backCapture name _ index => .backCapture name child index
  | .stackCapture stack _ => .stackCapture stack child
  | .negative _ => .negative child
  | .positive _ => .positive child
  | .repetition _ count => .repetition child count
  | .select _ index default => .select child index default
  | .transform _ change => .transform child change
  | kind => kind

theorem setChild_self {kind : Kind} {i : Nat} {child : PatternId}
    (there : kind.children[i]? = some child) : kind.setChild i child = kind := by
  cases kind with
  | sequence items | choice items =>
      obtain ⟨inside, rfl⟩ := List.getElem?_eq_some_iff.mp there
      simp [setChild, children]
  | _ => simp_all [setChild, children, List.getElem?_singleton]

theorem operator_setChild (kind : Kind) (i : Nat) (child : PatternId) :
    (kind.setChild i child).operator = kind.operator := by
  cases kind <;> rfl

/-- The kind writes its direct sub-patterns by name. Selections and transformations do not. -/
def writesNames : Kind → Bool
  | .select _ _ _ | .transform _ _ => false
  | _ => true

end Kind

namespace Graph

variable {graph : Graph} {path : List Nat} {pattern changed parent child replacement : PatternId}

/-- At the end of the path below `pattern` stands `child`, a direct sub-pattern of `parent`. There is
no named pattern on the way to it. -/
inductive Place (graph : Graph) : (path : List Nat) → (pattern parent child : PatternId) → Prop
  | direct {i : Nat} {pattern child : PatternId}
      (there : (graph.kind pattern).children[i]? = some child) : graph.Place [i] pattern pattern child
  | within {i : Nat} {path : List Nat} {pattern body parent child : PatternId}
      (there : (graph.kind pattern).children[i]? = some body) (unnamed : graph.name? body = none)
      (place : graph.Place path body parent child) : graph.Place (i :: path) pattern parent child

/-- `changed` is `pattern` with `replacement` at the end of the path. -/
inductive Replaced (graph : Graph) (replacement : PatternId) :
    (path : List Nat) → (pattern changed : PatternId) → Prop
  | here (pattern : PatternId) : graph.Replaced replacement [] pattern replacement
  | within {i : Nat} {path : List Nat} {pattern body changed changedBody : PatternId}
      (there : (graph.kind pattern).children[i]? = some body)
      (replaced : graph.Replaced replacement path body changedBody)
      (kind : graph.kind changed = (graph.kind pattern).setChild i changedBody)
      (name : graph.name? changed = graph.name? pattern) :
      graph.Replaced replacement (i :: path) pattern changed

/-- A pattern is what it is, with the sub-pattern that stands at a place. -/
theorem Place.replaced (place : graph.Place path pattern parent child) :
    graph.Replaced child path pattern pattern := by
  induction place with
  | direct there => exact .within there (.here _) (Kind.setChild_self there).symm rfl
  | within there _ _ inductionHypothesis =>
      exact .within there inductionHypothesis (Kind.setChild_self there).symm rfl

/-- On the way to a place the patterns keep their names and operators. -/
theorem Replaced.outline (replaced : graph.Replaced replacement path pattern changed)
    (place : graph.Place path pattern parent child) :
    graph.name? changed = graph.name? pattern ∧
      (graph.kind changed).operator = (graph.kind pattern).operator := by
  cases replaced with
  | here => cases place
  | within _ _ kind name => exact ⟨name, by rw [kind, Kind.operator_setChild]⟩

/-! ## Written forms by those of the sub-patterns -/

theorem displayKind_congr {written other : PatternId → String} {kind : Kind}
    (same : ∀ child ∈ kind.children, written child = other child) :
    graph.displayKind written kind = graph.displayKind other kind := by
  have operands {operator : Operator} {items : List PatternId}
      (same : ∀ child ∈ items, written child = other child) :
      items.map (graph.displayOperand written operator) =
        items.map (graph.displayOperand other operator) :=
    List.map_congr_left fun child member => by simp only [displayOperand, same child member]
  cases kind with
  | sequence items => exact congrArg (String.intercalate " ") (operands same)
  | choice items => exact congrArg (String.intercalate " / ") (operands same)
  | negative body | positive body | repetition body =>
      simp only [displayKind, displayOperand, same body List.mem_cons_self]
  | capture body | group body | stackCapture _ body =>
      simp only [displayKind, displayArgument, same body List.mem_cons_self]
  | backCapture _ body index =>
      cases index <;> simp only [displayKind, displayArgument, same body List.mem_cons_self]
  | select body _ default =>
      cases default <;> simp only [displayKind, same body List.mem_cons_self]
  | transform body => simp only [displayKind, same body List.mem_cons_self]
  | chars count => rcases count with _ | _ | count <;> rfl
  | stackMatch _ _ expected => cases expected <;> rfl
  | stackSize _ expected => cases expected <;> rfl
  | _ => rfl

theorem displayTo_eq (wellFormed : graph.WellFormed) {depth other : Nat} (deep : pattern < depth)
    (alsoDeep : pattern < other) : graph.displayTo depth pattern = graph.displayTo other pattern := by
  induction pattern using Nat.strongRecOn generalizing depth other with
  | ind pattern inductionHypothesis =>
      obtain ⟨depth, rfl⟩ := Nat.exists_eq_add_one_of_ne_zero (Nat.ne_zero_of_lt deep)
      obtain ⟨other, rfl⟩ := Nat.exists_eq_add_one_of_ne_zero (Nat.ne_zero_of_lt alsoDeep)
      refine displayKind_congr fun child member => ?_
      have smaller : child < pattern := wellFormed.lt_of_child member
      exact inductionHypothesis child smaller (Nat.lt_of_lt_of_le smaller (Nat.le_of_lt_succ deep))
        (Nat.lt_of_lt_of_le smaller (Nat.le_of_lt_succ alsoDeep))

/-- The written form of a pattern is put together from those of its direct sub-patterns. -/
theorem display_eq (wellFormed : graph.WellFormed) (pattern : PatternId) :
    graph.display pattern = graph.displayKind graph.display (graph.kind pattern) :=
  displayKind_congr fun child member =>
    displayTo_eq wellFormed (wellFormed.lt_of_child member) (Nat.lt_succ_self child)

/-- What a kind writes for a direct sub-pattern. -/
def displayBelow (graph : Graph) (kind : Kind) (child : PatternId) : String :=
  match kind with
  | .select _ _ _ | .transform _ _ => graph.display child
  | .sequence _ | .choice _ | .negative _ | .positive _ | .repetition _ _ =>
      graph.displayOperand graph.display kind.operator child
  | _ => graph.displayArgument graph.display child

theorem displayBelow_named {kind : Kind} {name : String} (writes : kind.writesNames)
    (named : graph.name? child = some name) : graph.displayBelow kind child = bracketed name := by
  cases kind <;> simp_all [displayBelow, displayOperand, displayArgument, Kind.writesNames]

theorem displayBelow_of_not_writesNames {kind : Kind} (writes : kind.writesNames = false) :
    graph.displayBelow kind child = graph.display child := by
  cases kind <;> simp_all [displayBelow, Kind.writesNames]

/-- Around the written form of an unnamed operand stand parentheses or nothing, as its operator
says. -/
theorem displayOperand_around (graph : Graph) (parent operator : Operator) :
    ∃ before after, ∀ child, graph.name? child = none → (graph.kind child).operator = operator →
      graph.displayOperand graph.display parent child = before ++ graph.display child ++ after := by
  cases parenthesized : parent.needsParentheses operator with
  | true =>
      refine ⟨"(", ")", fun child unnamed same => ?_⟩
      simp [displayOperand, unnamed, same, parenthesized]
  | false =>
      refine ⟨"", "", fun child unnamed same => ?_⟩
      simp [displayOperand, unnamed, same, parenthesized]

theorem displayBelow_around (graph : Graph) (kind : Kind) (operator : Operator) :
    ∃ before after, ∀ child, graph.name? child = none → (graph.kind child).operator = operator →
      graph.displayBelow kind child = before ++ graph.display child ++ after := by
  cases kind with
  | sequence | choice | negative | positive | repetition =>
      exact graph.displayOperand_around _ operator
  | _ => exact ⟨"", "", fun child unnamed _ => by simp [displayBelow, displayArgument, unnamed]⟩

/-- Around what a kind writes for a sub-pattern stands the same, whatever the sub-pattern is. -/
theorem displayKind_around (graph : Graph) {kind : Kind} {i : Nat}
    (inside : i < kind.children.length) :
    ∃ before after, ∀ child, graph.displayKind graph.display (kind.setChild i child) =
      before ++ graph.displayBelow kind child ++ after := by
  have called (head : String) (front : List String) :
      ∃ before after, ∀ child, callText head (front ++ [graph.displayArgument graph.display child]) =
        before ++ graph.displayArgument graph.display child ++ after := by
    obtain ⟨before, after, around⟩ := callText_around head front
    exact ⟨before, after, fun child => around _⟩
  cases kind with
  | sequence =>
      exact intercalate_set_around " " (graph.displayOperand graph.display .sequence) inside
  | choice =>
      exact intercalate_set_around " / " (graph.displayOperand graph.display .choice) inside
  | negative => exact ⟨"!", "", fun child => String.append_empty.symm⟩
  | positive => exact ⟨"&", "", fun child => String.append_empty.symm⟩
  | repetition _ count =>
      refine ⟨"", count.display, fun child => ?_⟩
      rw [String.empty_append]
      rfl
  | capture => exact called "C" []
  | group => exact called "Cg" []
  | stackCapture stack => exact called "Sc" [stack]
  | backCapture name _ index =>
      cases index with
      | none => exact called "Cb" [name]
      | some index => exact called "Cb" [name, toString index]
  | select _ index default =>
      cases default with
      | none =>
          exact ⟨"(", ")/" ++ toString index, fun child => String.append_assoc ..⟩
      | some default =>
          refine ⟨"(", ")/(" ++ toString index ++ ", " ++ default.display ++ ")", fun child => ?_⟩
          simp only [displayKind, displayBelow, Kind.setChild, String.append_assoc]
  | transform => exact ⟨"(", ")/<fn>", fun child => rfl⟩
  | _ => exact absurd inside (Nat.not_lt_zero i)

/-! ## The written form around a place -/

/-- Around a place stands the same, whatever pattern stands there. The induction is on the place:
what stands around it in the body gets the parent's text around the body, and the parentheses that
the body's operator needs. -/
theorem Place.display_around (wellFormed : graph.WellFormed)
    (place : graph.Place path pattern parent child) :
    ∃ before after, ∀ replacement changed, graph.Replaced replacement path pattern changed →
      graph.display changed =
        before ++ graph.displayBelow (graph.kind parent) replacement ++ after := by
  induction place with
  | direct there =>
      obtain ⟨inside, -⟩ := List.getElem?_eq_some_iff.mp there
      obtain ⟨before, after, around⟩ := graph.displayKind_around inside
      refine ⟨before, after, fun replacement changed replaced => ?_⟩
      cases replaced with
      | within _ body kind _ =>
          cases body
          rw [display_eq wellFormed, kind, around]
  | @within i path pattern body parent child there unnamed place inductionHypothesis =>
      obtain ⟨inside, -⟩ := List.getElem?_eq_some_iff.mp there
      obtain ⟨outerBefore, outerAfter, outer⟩ := graph.displayKind_around inside
      obtain ⟨opening, closing, operand⟩ :=
        graph.displayBelow_around (graph.kind pattern) (graph.kind body).operator
      obtain ⟨before, after, inner⟩ := inductionHypothesis
      refine ⟨outerBefore ++ opening ++ before, after ++ closing ++ outerAfter,
        fun replacement changed replaced => ?_⟩
      cases replaced with
      | within thereToo bodyReplaced kind _ =>
          cases Option.some.inj (there.symm.trans thereToo)
          obtain ⟨name, operator⟩ := bodyReplaced.outline place
          rw [display_eq wellFormed, kind, outer, operand _ (name.trans unnamed) operator,
            inner _ _ bodyReplaced]
          simp only [String.append_assoc]

/-- The written form of a pattern around a named sub-pattern below unnamed ones. If its parent is
neither a selection nor a transformation, its name stands there and nothing else of it, so that
another pattern of that name changes nothing. A selection or transformation writes the kind of its
body in spite of the name, so that the written form shows which pattern of that name is there. -/
theorem display_place (wellFormed : graph.WellFormed)
    (place : graph.Place path pattern parent child) {name : String}
    (named : graph.name? child = some name) :
    ((graph.kind parent).writesNames = true → ∃ before after,
      graph.display pattern = before ++ bracketed name ++ after ∧
        ∀ replacement other changed, graph.name? replacement = some other →
          graph.Replaced replacement path pattern changed →
          graph.display changed = before ++ bracketed other ++ after) ∧
    ((graph.kind parent).writesNames = false → ∃ before after,
      graph.display pattern = before ++ graph.display child ++ after ∧
        ∀ replacement changed, graph.Replaced replacement path pattern changed →
          graph.display changed = before ++ graph.display replacement ++ after) := by
  obtain ⟨before, after, around⟩ := place.display_around wellFormed
  refine ⟨fun writes => ⟨before, after, ?_, ?_⟩, fun writes => ⟨before, after, ?_, ?_⟩⟩
  · rw [around _ _ place.replaced, displayBelow_named writes named]
  · intro replacement other changed alsoNamed replaced
    rw [around _ _ replaced, displayBelow_named writes alsoNamed]
  · rw [around _ _ place.replaced, displayBelow_of_not_writesNames writes]
  · intro replacement changed replaced
    rw [around _ _ replaced, displayBelow_of_not_writesNames writes]

/-- Two literals of one name, a sequence and a selection around the first, and the same with the
second in its place. -/
def namesakes : Graph where
  slots := #[
    some { kind := .literal ['a'], name := some "A" },
    some { kind := .literal ['b'], name := some "A" },
    some { kind := .negative 0 },
    some { kind := .negative 1 },
    some { kind := .sequence [0, 2] },
    some { kind := .sequence [0, 3] },
    some { kind := .select 0 0 none },
    some { kind := .select 1 0 none }]

theorem namesakes_wellFormed : namesakes.WellFormed := by
  intro pattern node found
  match pattern with
  | 0 | 1 | 2 | 3 | 4 | 5 | 6 | 7 =>
      cases found
      simp [Kind.children]
  | pattern + 8 => cases found

theorem display_place_namesakes :
    namesakes.WellFormed ∧ namesakes.Place [1, 0] 4 2 0 ∧ namesakes.name? 0 = some "A" ∧
      namesakes.name? 1 = some "A" ∧ namesakes.Replaced 1 [1, 0] 4 5 ∧
      namesakes.display 5 = namesakes.display 4 := by
  have place : namesakes.Place [1, 0] 4 2 0 := .within rfl rfl (.direct rfl)
  have negated : namesakes.Replaced 1 [0] 2 3 := .within rfl (.here 0) rfl rfl
  have replaced : namesakes.Replaced 1 [1, 0] 4 5 := .within rfl negated rfl rfl
  obtain ⟨before, after, shown, others⟩ := (display_place namesakes_wellFormed place rfl).1 rfl
  exact ⟨namesakes_wellFormed, place, rfl, rfl, replaced,
    (others 1 "A" 5 rfl replaced).trans shown.symm⟩

/-- Another pattern of the same name can change what a selection writes. -/
theorem display_place_select :
    ¬ ∀ (graph : Graph) (path : List Nat) (pattern parent child replacement changed : PatternId)
        (name : String), graph.WellFormed → graph.Place path pattern parent child →
        graph.name? child = some name → graph.name? replacement = some name →
        graph.Replaced replacement path pattern changed →
        graph.display changed = graph.display pattern := by
  intro sameText
  have same := sameText namesakes [0] 6 6 0 1 7 "A" namesakes_wellFormed (.direct rfl) rfl rfl
    (.within rfl (.here 0) rfl rfl)
  exact absurd same (by decide +kernel)

end Graph

end PegEngine
