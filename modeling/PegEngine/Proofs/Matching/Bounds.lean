import PegEngine.Proofs.Matching.Spans

/-!
Contract: nodes are matched inside the text.

A pattern call asks its node for a match at a position that the text has, whatever position it was
asked for itself. So what node matching would do beyond the text is never seen, and no difference of
positions that it takes lies below zero. A match lies in the rest of the text, and it begins at the
very position unless a function from outside has made it.

Owns:
- `callBy`, pattern calls that leave the matching of nodes open;
- `checkedKind`, the matching of nodes with every difference checked;
- `Graph.SelfContained`, for patterns that come to no function from outside;
- `Graph.matchIn_bounded`.
-/

namespace PegEngine

/-- The line of a position begins no later than the position, and inside the text. -/
theorem Text.lineStart_le (text : Text) (i : Nat) : text.lineStart i ≤ min i text.length := by
  unfold lineStart
  rw [List.getLastD_eq_getLast?]
  cases last : (text.lineStartsUpTo i).getLast? with
  | none => exact Nat.zero_le _
  | some start =>
      have member := List.mem_of_getLast? last
      exact of_decide_eq_true (List.mem_filter.mp member).2

namespace Matching

/-! ## Positions at which nodes are matched -/

/-- What matches a kind of node at a position, given how patterns are called. -/
abbrev Matcher := Caller → Nat → Kind → MatchM (Option Match)

/-- Pattern calls that have their nodes matched by `matcher`. -/
def callBy (setup : Setup) (matcher : Matcher) : (room : Nat) → Caller
  | 0, _, index => refuse setup index
  | room + 1, pattern, index => fun entry =>
      if setup.limit ≤ entry.depth then
        refuse setup index entry
      else
        let i := min index setup.text.length
        guarded setup pattern i
          (matcher (callBy setup matcher room) i (setup.graph.kind pattern)) entry

/-- The matcher does as the engine at the positions of the text. -/
def AgreesInside (setup : Setup) (matcher : Matcher) : Prop :=
  ∀ call i kind, i ≤ setup.text.length → matcher call i kind = matchKind setup call i kind

/-- Only positions of the text come up. -/
theorem callBy_of_agreesInside {setup : Setup} {matcher : Matcher}
    (agrees : AgreesInside setup matcher) : callBy setup matcher = call setup := by
  funext room
  induction room with
  | zero => rfl
  | succ room inductionHypothesis =>
      funext pattern index entry
      simp only [callBy, call, inductionHypothesis, agrees _ _ _ (Nat.min_le_right ..)]

/-- Node matching that refuses to work beyond the text. -/
def insideOnly (setup : Setup) : Matcher := fun call i kind =>
  if i ≤ setup.text.length then
    matchKind setup call i kind
  else
    throw (.indexOutOfRange i setup.text.length)

theorem insideOnly_agreesInside (setup : Setup) : AgreesInside setup (insideOnly setup) :=
  fun _ _ _ inside => if_pos inside

/-! ## Differences of positions -/

/-- A difference that must not lie below zero. -/
def difference (a b : Nat) : MatchM Nat :=
  if b ≤ a then pure (a - b) else throw (.indexOutOfRange b a)

theorem difference_of_le {a b : Nat} (notBelow : b ≤ a) : difference a b = pure (a - b) :=
  if_pos notBelow

/-- Whether a position ends a line. Only before a line feed does it matter what stands before the
position. -/
def checkedEndsLine (text : Text) (i : Nat) : MatchM Bool :=
  if text.charAt? i = some '\n' ∧ i ≠ 0 then do
    let before ← difference i 1
    pure (text.charAt? before != some '\r')
  else
    pure (text.endsLine i)

theorem checkedEndsLine_eq (text : Text) (i : Nat) :
    checkedEndsLine text i = pure (text.endsLine i) := by
  unfold checkedEndsLine
  split
  · next inner =>
      have notFirst : (i == 0) = false := beq_eq_false_iff_ne.mpr inner.2
      rw [difference_of_le (Nat.pos_of_ne_zero inner.2), pure_bind]
      simp only [Text.endsLine, inner.1, notFirst, Bool.false_or]
  · rfl

/-- The matching of nodes with every difference of positions checked. -/
def checkedKind (setup : Setup) : Matcher := fun call i kind =>
  match kind with
  | .chars count => do
      let left ← difference setup.text.length i
      pure (if count ≤ left then some (setup.text.matchOver i (i + count)) else none)
  | .rest count => do
      let left ← difference setup.text.length i
      pure (if left < count then some (setup.text.matchOver i setup.text.length) else none)
  | .endOfLine => do
      let ends ← checkedEndsLine setup.text i
      pure (zeroWidthIf setup.text i ends)
  | .column => do
      let before ← difference (min i setup.text.length) (setup.text.lineStart i)
      pure (zeroWidthValue setup.text i (.column (before + 1)))
  | .repetition body (.atLeast minimum) => do
      let left ← difference setup.text.length i
      matchAtLeast call body minimum left 0 (setup.text.matchOver i i)
  | kind => matchKind setup call i kind

/-- Inside the text no difference fails. -/
theorem checkedKind_agreesInside (setup : Setup) : AgreesInside setup (checkedKind setup) := by
  intro call i kind inside
  -- Differences from the length need the position inside the text. Those of the line kinds do not.
  unfold checkedKind
  split
  · rw [difference_of_le inside, pure_bind]
    rfl
  · rw [difference_of_le inside, pure_bind]
    rfl
  · rw [checkedEndsLine_eq, pure_bind]
    rfl
  · rw [difference_of_le (setup.text.lineStart_le i), pure_bind]
    rfl
  · rw [difference_of_le inside, pure_bind]
    rfl
  · rfl

end Matching

/-! ## Where matches begin -/

/-- No function from outside can come up in a match of `pattern`. -/
def Graph.SelfContained (graph : Graph) (pattern : PatternId) : Prop :=
  ∀ origin, graph.Reaches pattern origin → (graph.kind origin).isForeign = false

theorem Graph.SelfContained.of_calls {graph : Graph} {pattern next : PatternId}
    (selfContained : graph.SelfContained pattern) (step : graph.Calls pattern next) :
    graph.SelfContained next :=
  fun origin reaches => selfContained origin (.of_calls step reaches)

/-- What does not come up keeps to any law. -/
theorem Matching.ForeignAnswers.of_selfContained {setup : Setup} {pattern : PatternId}
    (selfContained : setup.graph.SelfContained pattern) (law : Nat → Match → Prop) :
    ForeignAnswers setup law pattern := by
  intro origin reaches foreign
  rw [selfContained origin reaches] at foreign
  cases foreign

namespace Graph

open Matching

/-- Nodes are matched inside the text only: a matcher that does as the engine there takes its place,
and so does the one that checks all differences of positions. A match lies in the rest of the text,
and without functions from outside it begins at the position itself. -/
theorem matchIn_bounded (graph : Graph) (pattern : PatternId) (input : Input) (index : Nat)
    (context : Context) :
    let setup := context.setup graph input.text
    (∀ matcher, AgreesInside setup matcher → callBy setup matcher = call setup) ∧
      callBy setup (checkedKind setup) = call setup ∧
      ∀ m, (graph.matchIn pattern input index context).result = .ok (some m) →
        min index input.text.length ≤ m.start ∧ m.start ≤ m.stop ∧ m.stop ≤ input.text.length ∧
          (graph.SelfContained pattern → m.start = min index input.text.length) := by
  intro setup
  refine ⟨fun matcher agrees => callBy_of_agreesInside agrees,
    callBy_of_agreesInside (checkedKind_agreesInside setup), fun m found => ?_⟩
  have within := matchIn_within found
  refine ⟨within.start, within.order, within.stop, fun selfContained => ?_⟩
  exact matchIn_answers (spanLaw_start input.text) (.of_selfContained selfContained _) found

/-- One character, and after it the rest of the text if it is short. -/
def shortRest : Graph where
  slots := #[
    some { kind := .chars 1 },
    some { kind := .rest 3 },
    some { kind := .sequence [0, 1] },
    some { kind := .choice [2, 1] }]

/-- A position beyond the text counts as its end. -/
theorem matchIn_bounded_beyond :
    let setup := ({} : Context).setup shortRest (.ofString "abc")
    callBy setup (insideOnly setup) = call setup ∧
      ∃ m, (shortRest.matchIn 3 (.ofString "abc") 7 {}).result = .ok (some m) ∧
        shortRest.SelfContained 3 ∧ m.start = 3 := by
  intro setup
  obtain ⟨inside, _, spans⟩ := matchIn_bounded shortRest 3 (.ofString "abc") 7 {}
  have selfContained : shortRest.SelfContained 3 := by
    intro origin _
    match origin with
    | 0 | 1 | 2 | 3 => rfl
    | origin + 4 => rfl
  have found : (shortRest.matchIn 3 (.ofString "abc") 7 {}).result =
      .ok (some ((Text.ofString "abc").matchOver 3 3)) := by rfl
  exact ⟨inside _ (insideOnly_agreesInside setup), _, found, selfContained,
    (spans _ found).2.2.2 selfContained⟩

end Graph

end PegEngine
