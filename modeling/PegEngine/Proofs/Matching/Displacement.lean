import PegEngine.Matching.Nodes

/-!
Contract: a text, and the rest of it from some position on.

A position of the rest stands for the position that lies as far behind the one that the rest begins
at. What nodes find at the two positions without calling others is the same but for that.

Owns:
- `Text.drop`, the rest of a text;
- `Match.later` and `MatchError.later`, which lead from the rest to the text;
- `Match.Moved`, for a match on the rest and the same match on the text, with one lemma for each
  thing that a node finds.

Does not own: what looks at lines or at the position itself.
-/

namespace PegEngine

/-! ## The rest of a text -/

namespace Text

/-- The text from position `i` on. -/
def drop (text : Text) (i : Nat) : Text :=
  ⟨(text.chars.toList.drop i).toArray⟩

variable (text : Text) (i : Nat)

@[simp] theorem length_drop : (text.drop i).length = text.length - i := by
  simp [drop, length]

theorem charAt?_drop (k : Nat) : (text.drop i).charAt? k = text.charAt? (i + k) := by
  simp [charAt?, drop]

theorem span_drop (start stop : Nat) :
    (text.drop i).span start stop = text.span (i + start) (i + stop) := by
  rw [span_eq_take_drop, span_eq_take_drop]
  simp only [drop, List.take_drop, List.drop_drop]

theorem slice_drop (start stop : Nat) :
    (text.drop i).slice start stop = text.slice (i + start) (i + stop) := by
  unfold slice
  rw [span_drop]

variable {text i}

theorem occursAt_drop (inside : i ≤ text.length) (literal : List Char) (k : Nat) :
    (text.drop i).occursAt literal k = text.occursAt literal (i + k) := by
  have fits : k + literal.length ≤ text.length - i ↔ i + k + literal.length ≤ text.length := by
    omega
  simp only [occursAt, length_drop, span_drop, fits, Nat.add_assoc]

/-- Positions are clamped to the rest as they are to the whole text. -/
theorem min_length_drop (inside : i ≤ text.length) (index : Nat) :
    min (i + index) text.length = i + min index (text.drop i).length := by
  rw [length_drop]
  omega

end Text

/-- The match that lies on the text as `m` lies on the rest from position `i` on. -/
def Match.later (text : Text) (i : Nat) (m : Match) : Match :=
  { m with source := text, start := i + m.start, stop := i + m.stop }

/-- The same characters are cut out. -/
theorem Match.value_later {text : Text} {i : Nat} {m : Match} (source : m.source = text.drop i) :
    (m.later text i).value = m.value := by
  unfold value
  rw [source, Text.slice_drop]
  rfl

/-- The error for a position that lies `i` behind. -/
def MatchError.later (i : Nat) : MatchError → MatchError
  | .unboundBackCapture name position pattern => .unboundBackCapture name (i + position) pattern
  | .stackUnderflow stack requested available position pattern =>
      .stackUnderflow stack requested available (i + position) pattern
  | .captureIndexOutOfRange index available position pattern =>
      .captureIndexOutOfRange index available (i + position) pattern
  | .invalidSpan start stop position => .invalidSpan (i + start) (i + stop) (i + position)
  | .recursionLimit limit position => .recursionLimit limit (i + position)
  | error => error

theorem MatchError.inPattern_later (error : MatchError) (i : Nat) (name : Option String) :
    (error.later i).inPattern name = (error.inPattern name).later i := by
  cases error <;> rfl

/-- An error of taking back bindings is about no position. -/
theorem Bindings.later_of_restore {bindings : Bindings} {number : Nat} {error : MatchError}
    (refused : bindings.restore number = .error error) (i : Nat) : error.later i = error := by
  unfold restore at refused
  split at refused
  · cases refused
    rfl
  · cases refused

/-- The match on the rest of the text from position `i` on, and the same match on the text. -/
structure Match.Moved (text : Text) (i : Nat) (m moved : Match) : Prop where
  source : m.source = text.drop i
  later : moved = m.later text i

namespace Match.Moved

variable {text : Text} {i : Nat} {m moved part movedPart : Match}

theorem value (same : m.Moved text i moved) : moved.value = m.value := by
  rw [same.later, Match.value_later same.source]

theorem captures (same : m.Moved text i moved) : moved.captures = m.captures := by
  rw [same.later]
  rfl

theorem stop (same : m.Moved text i moved) : moved.stop = i + m.stop := by
  rw [same.later]
  rfl

/-- What goes by the captures only has the same effect on both. -/
theorem recapture (same : m.Moved text i moved) (captures : List Capture) :
    ({ m with captures } : Match).Moved text i { moved with captures } := by
  refine ⟨same.source, ?_⟩
  rw [same.later]
  rfl

theorem matchOver (text : Text) (i start stop : Nat) :
    ((text.drop i).matchOver start stop).Moved text i (text.matchOver (i + start) (i + stop)) :=
  ⟨rfl, rfl⟩

theorem append (first : m.Moved text i moved) (next : part.Moved text i movedPart) :
    (m.append part).Moved text i (moved.append movedPart) := by
  refine ⟨first.source, ?_⟩
  rw [first.later, next.later]
  rfl

end Match.Moved

namespace Matching

/-! ## Outcomes -/

/-- No match, or a match on the rest of the text and the same match on the text. -/
abbrev OutcomeMoved (text : Text) (i : Nat) : Option Match → Option Match → Prop :=
  Option.Rel (Match.Moved text i)

section Outcomes

variable {text : Text} {i k : Nat}

theorem OutcomeMoved.ite {condition moved : Prop} [Decidable condition] [Decidable moved]
    {outcome movedOutcome : Option Match} (same : condition ↔ moved)
    (outcomes : OutcomeMoved text i outcome movedOutcome) :
    OutcomeMoved text i (if condition then outcome else none)
      (if moved then movedOutcome else none) := by
  by_cases holds : condition
  · rw [if_pos holds, if_pos (same.mp holds)]
    exact outcomes
  · rw [if_neg holds, if_neg (holds ∘ same.mpr)]
    exact .none

theorem OutcomeMoved.map {outcome movedOutcome : Option Match} {change movedChange : Match → Match}
    (outcomes : OutcomeMoved text i outcome movedOutcome)
    (keeps : ∀ m moved, m.Moved text i moved → (change m).Moved text i (movedChange moved)) :
    OutcomeMoved text i (outcome.map change) (movedOutcome.map movedChange) := by
  cases outcomes with
  | none => exact .none
  | some same => exact .some (keeps _ _ same)

theorem OutcomeMoved.isNone {outcome movedOutcome : Option Match}
    (outcomes : OutcomeMoved text i outcome movedOutcome) :
    movedOutcome.isNone = outcome.isNone := by
  cases outcomes <;> rfl

theorem matchOver_moved (start stop : Nat) :
    OutcomeMoved text i (some ((text.drop i).matchOver start stop))
      (some (text.matchOver (i + start) (i + stop))) :=
  .some (.matchOver text i start stop)

theorem zeroWidthIf_moved (accepts : Bool) :
    OutcomeMoved text i (zeroWidthIf (text.drop i) k accepts) (zeroWidthIf text (i + k) accepts) :=
  .ite Iff.rfl (matchOver_moved k k)

theorem zeroWidthValue_moved (value : Capture) :
    OutcomeMoved text i (zeroWidthValue (text.drop i) k value)
      (zeroWidthValue text (i + k) value) :=
  .some ⟨rfl, rfl⟩

theorem literalAt_moved (inside : i ≤ text.length) (literal : List Char) :
    OutcomeMoved text i (literalAt (text.drop i) k literal) (literalAt text (i + k) literal) := by
  unfold literalAt
  rw [Text.occursAt_drop inside, Nat.add_assoc]
  exact .ite Iff.rfl (matchOver_moved k _)

theorem charAt_moved (set : CharSet) :
    OutcomeMoved text i (charAt (text.drop i) k set) (charAt text (i + k) set) := by
  unfold charAt
  rw [Text.charAt?_drop]
  split
  · exact .ite Iff.rfl (matchOver_moved k (k + 1))
  · exact .none

theorem charsAt_moved (count : Nat) :
    OutcomeMoved text i (charsAt (text.drop i) k count) (charsAt text (i + k) count) := by
  unfold charsAt
  rw [Text.length_drop, Nat.add_assoc]
  exact .ite (by omega) (matchOver_moved k _)

theorem restAt_moved (inside : i ≤ text.length) (count : Nat) :
    OutcomeMoved text i (restAt (text.drop i) k count) (restAt text (i + k) count) := by
  have toEnd := @matchOver_moved text i k (text.length - i)
  rw [Nat.add_sub_cancel' inside] at toEnd
  unfold restAt
  rw [Text.length_drop]
  exact .ite (by omega) toEnd

theorem stackEntryAt_moved (inside : i ≤ text.length) (entry expected : Option Capture) :
    OutcomeMoved text i (stackEntryAt (text.drop i) k entry expected)
      (stackEntryAt text (i + k) entry expected) := by
  unfold stackEntryAt
  split
  · exact .none
  · exact zeroWidthIf_moved _
  · exact literalAt_moved inside _
  · exact matchOver_moved k k

theorem stackSizeAt_moved (size : Nat) (expected : Option Nat) :
    OutcomeMoved text i (stackSizeAt (text.drop i) k size expected)
      (stackSizeAt text (i + k) size expected) := by
  cases expected with
  | none => exact zeroWidthValue_moved _
  | some expected => exact zeroWidthIf_moved _

/-- What a back capture binds is the same. -/
theorem boundValue_moved {m movedMatch : Match} (same : m.Moved text i movedMatch)
    (index : Option Int) :
    boundValue (i + k) index movedMatch = (boundValue k index m).mapError (·.later i) := by
  cases index with
  | none => exact congrArg (fun value => Except.ok (Capture.text value)) same.value
  | some index =>
      simp only [boundValue, Match.capture?, same.captures]
      cases Capture.pick? m.captures index <;> rfl

/-- Only the position of an underflow differs. -/
theorem popMany_later (table : StackTable) (stack : String) (count : Nat) :
    table.popMany stack count (i + k) = (table.popMany stack count k).mapError (·.later i) := by
  unfold StackTable.popMany
  split <;> rfl

end Outcomes

end Matching

end PegEngine
