import Mathlib.Data.List.Basic
import PegEngine.Graph.Basic
import PegEngine.Text.Line

/-!
Contract: what parsing expressions match, as a judgement with one rule a case.

Owns:
- `Takes`, what a primitive takes from the text;
- `Derives`, the outcomes of patterns, of the items of sequences and choices, and of repetitions;
- that an end lies between the start and the end of the text.
-/

namespace PegEngine

namespace Peg

/-! ## Primitives -/

/-- Position `i` follows a line end that it does not split, or is the first one. -/
def BeginsLine (text : Text) (i : Nat) : Prop :=
  i = 0 ∨ text.charAt? (i - 1) = some '\n' ∨
    text.charAt? (i - 1) = some '\r' ∧ text.charAt? i ≠ some '\n'

/-- Position `i` stands before a line end that it does not split, or is the last one. -/
def EndsLine (text : Text) (i : Nat) : Prop :=
  i = text.length ∨ text.charAt? i = some '\r' ∨
    text.charAt? i = some '\n' ∧ (i = 0 ∨ text.charAt? (i - 1) ≠ some '\r')

/-- The primitive takes the text from `i` to `j`. -/
def Takes (text : Text) (i j : Nat) : Kind → Prop
  | .literal chars => chars <+: text.chars.toList.drop i ∧ j = i + chars.length
  | .charSet set => (∃ c, text.charAt? i = some c ∧ set.contains c = true) ∧ j = i + 1
  | .chars count => i + count ≤ text.length ∧ j = i + count
  | .rest count => text.length < i + count ∧ j = text.length
  | .constant accepts => accepts = true ∧ j = i
  | .startOfLine => BeginsLine text i ∧ j = i
  | .endOfLine => EndsLine text i ∧ j = i
  | _ => False

end Peg

namespace Kind

/-- The kind looks at the text only. -/
def isPrimitive : Kind → Bool
  | .literal _ | .charSet _ | .chars _ | .rest _ | .constant _ | .startOfLine | .endOfLine => true
  | _ => false

/-- The kind is an operator of parsing expressions. -/
def isPeg : Kind → Bool
  | .sequence _ | .choice _ | .negative _ | .positive _ | .repetition _ _ | .reference _ _ => true
  | kind => kind.isPrimitive

end Kind

namespace Peg

/-! ## The judgement -/

/-- What is matched: a pattern, all items in order, the first item that matches, or a body again and
again. -/
inductive Goal where
  | pattern (pattern : PatternId)
  | sequence (items : List PatternId)
  | choice (items : List PatternId)
  | repetition (body : PatternId) (count : RepeatCount)

/-- The goal ends at a position, or it fails. -/
inductive Derives (graph : Graph) (text : Text) : Goal → Nat → Option Nat → Prop where
  | takes {pattern i j} (taken : Takes text i j (graph.kind pattern)) :
      Derives graph text (.pattern pattern) i (some j)
  | takesNothing {pattern i} (primitive : (graph.kind pattern).isPrimitive = true)
      (nothing : ∀ j, ¬ Takes text i j (graph.kind pattern)) :
      Derives graph text (.pattern pattern) i none
  | sequence {pattern items i outcome} (kind : graph.kind pattern = .sequence items)
      (inner : Derives graph text (.sequence items) i outcome) :
      Derives graph text (.pattern pattern) i outcome
  | choice {pattern items i outcome} (kind : graph.kind pattern = .choice items)
      (inner : Derives graph text (.choice items) i outcome) :
      Derives graph text (.pattern pattern) i outcome
  | negative {pattern body i} (kind : graph.kind pattern = .negative body)
      (fails : Derives graph text (.pattern body) i none) :
      Derives graph text (.pattern pattern) i (some i)
  | negativeFails {pattern body i j} (kind : graph.kind pattern = .negative body)
      (ends : Derives graph text (.pattern body) i (some j)) :
      Derives graph text (.pattern pattern) i none
  | positive {pattern body i j} (kind : graph.kind pattern = .positive body)
      (ends : Derives graph text (.pattern body) i (some j)) :
      Derives graph text (.pattern pattern) i (some i)
  | positiveFails {pattern body i} (kind : graph.kind pattern = .positive body)
      (fails : Derives graph text (.pattern body) i none) :
      Derives graph text (.pattern pattern) i none
  | repetition {pattern body count i outcome}
      (kind : graph.kind pattern = .repetition body count)
      (inner : Derives graph text (.repetition body count) i outcome) :
      Derives graph text (.pattern pattern) i outcome
  | unbound {pattern name cell i} (kind : graph.kind pattern = .reference name cell)
      (target : graph.target? cell = none) : Derives graph text (.pattern pattern) i none
  | bound {pattern name cell rule i outcome} (kind : graph.kind pattern = .reference name cell)
      (target : graph.target? cell = some rule)
      (inner : Derives graph text (.pattern rule) i outcome) :
      Derives graph text (.pattern pattern) i outcome
  | noMoreItems {i} : Derives graph text (.sequence []) i (some i)
  | itemFails {item rest i} (fails : Derives graph text (.pattern item) i none) :
      Derives graph text (.sequence (item :: rest)) i none
  | item {item rest i j outcome} (ends : Derives graph text (.pattern item) i (some j))
      (later : Derives graph text (.sequence rest) j outcome) :
      Derives graph text (.sequence (item :: rest)) i outcome
  | noChoiceLeft {i} : Derives graph text (.choice []) i none
  | chosen {item rest i j} (ends : Derives graph text (.pattern item) i (some j)) :
      Derives graph text (.choice (item :: rest)) i (some j)
  | notChosen {item rest i outcome} (fails : Derives graph text (.pattern item) i none)
      (later : Derives graph text (.choice rest) i outcome) :
      Derives graph text (.choice (item :: rest)) i outcome
  | atMostReached {body i} : Derives graph text (.repetition body (.atMost 0)) i (some i)
  | atMostStops {body most i} (fails : Derives graph text (.pattern body) i none) :
      Derives graph text (.repetition body (.atMost (most + 1))) i (some i)
  | atMost {body most i j outcome} (ends : Derives graph text (.pattern body) i (some j))
      (later : Derives graph text (.repetition body (.atMost most)) j outcome) :
      Derives graph text (.repetition body (.atMost (most + 1))) i outcome
  | exactlyReached {body i} : Derives graph text (.repetition body (.exactly 0)) i (some i)
  | exactlyFails {body count i} (fails : Derives graph text (.pattern body) i none) :
      Derives graph text (.repetition body (.exactly (count + 1))) i none
  | exactly {body count i j outcome} (ends : Derives graph text (.pattern body) i (some j))
      (later : Derives graph text (.repetition body (.exactly count)) j outcome) :
      Derives graph text (.repetition body (.exactly (count + 1))) i outcome
  | atLeastStops {body i} (fails : Derives graph text (.pattern body) i none) :
      Derives graph text (.repetition body (.atLeast 0)) i (some i)
  | atLeastFails {body minimum i} (fails : Derives graph text (.pattern body) i none) :
      Derives graph text (.repetition body (.atLeast (minimum + 1))) i none
  /-- An iteration without width counts for all that are missing. -/
  | atLeastZeroWidth {body minimum i} (ends : Derives graph text (.pattern body) i (some i)) :
      Derives graph text (.repetition body (.atLeast minimum)) i (some i)
  | atLeast {body minimum i j outcome} (ends : Derives graph text (.pattern body) i (some j))
      (width : j ≠ i)
      (later : Derives graph text (.repetition body (.atLeast (minimum - 1))) j outcome) :
      Derives graph text (.repetition body (.atLeast minimum)) i outcome

/-! ## Where goals end -/

theorem Takes.bounds {text : Text} {i j : Nat} {kind : Kind} (taken : Takes text i j kind)
    (inside : i ≤ text.length) : i ≤ j ∧ j ≤ text.length := by
  cases kind with
  | literal chars =>
      obtain ⟨there, stop⟩ := taken
      have short := there.length_le
      simp only [List.length_drop, Array.length_toList] at short
      unfold Text.length at inside ⊢
      omega
  | charSet set =>
      obtain ⟨⟨c, found, _⟩, stop⟩ := taken
      obtain ⟨below, _⟩ := Array.getElem?_eq_some_iff.mp found
      unfold Text.length
      omega
  | chars count => obtain ⟨enough, stop⟩ := taken; omega
  | rest count => obtain ⟨few, stop⟩ := taken; omega
  | constant | startOfLine | endOfLine => obtain ⟨_, stop⟩ := taken; omega
  | _ => exact taken.elim

theorem Derives.bounds {graph : Graph} {text : Text} {goal : Goal} {i j : Nat}
    (derives : Derives graph text goal i (some j)) (inside : i ≤ text.length) :
    i ≤ j ∧ j ≤ text.length := by
  generalize same : some j = outcome at derives
  induction derives generalizing j with
  | takes taken =>
      cases same
      exact taken.bounds inside
  | sequence _ _ inductionHypothesis | choice _ _ inductionHypothesis
  | repetition _ _ inductionHypothesis | bound _ _ _ inductionHypothesis
  | chosen _ inductionHypothesis =>
      exact inductionHypothesis inside same
  | notChosen _ _ _ inductionHypothesis => exact inductionHypothesis inside same
  | negative | positive | noMoreItems | atMostReached | atMostStops | exactlyReached
  | atLeastStops | atLeastZeroWidth =>
      cases same
      exact ⟨Nat.le_refl _, inside⟩
  | item _ _ first later | atMost _ _ first later | exactly _ _ first later
  | atLeast _ _ _ first later =>
      have before := first inside rfl
      have after := later before.2 same
      exact ⟨Nat.le_trans before.1 after.1, after.2⟩
  | _ => cases same

end Peg

end PegEngine
