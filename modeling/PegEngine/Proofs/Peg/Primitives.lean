import PegEngine.Proofs.Matching.ByValue
import PegEngine.Proofs.Peg.Judgement

/-!
Contract: the engine's primitives take from the text what the judgement says.
-/

namespace PegEngine

namespace Peg

open Matching

theorem startsLine_iff {text : Text} {i : Nat} (inside : i ≤ text.length) :
    text.startsLine i = true ↔ BeginsLine text i := by
  cases i with
  | zero => simp [Text.startsLine, BeginsLine]
  | succ i =>
      have here : i < text.chars.size := inside
      simp only [Text.startsLine, BeginsLine, Text.charAt?, Nat.add_sub_cancel]
      rw [Array.getElem?_eq_getElem here]
      split <;> simp_all

theorem endsLine_iff {text : Text} {i : Nat} (inside : i ≤ text.length) :
    text.endsLine i = true ↔ EndsLine text i := by
  unfold Text.endsLine EndsLine
  cases here : text.charAt? i with
  | none =>
      have last := Array.getElem?_eq_none_iff.mp here
      have same : i = text.length := Nat.le_antisymm inside last
      simp [same]
  | some c =>
      obtain ⟨below, _⟩ := Array.getElem?_eq_some_iff.mp here
      have notLast : i ≠ text.length := Nat.ne_of_lt below
      split <;> simp_all

theorem occursAt_iff {text : Text} {i : Nat} (inside : i ≤ text.length) (chars : List Char) :
    text.occursAt chars i = true ↔ chars <+: text.chars.toList.drop i := by
  unfold Text.occursAt
  rw [Text.span_eq_take_drop, List.drop_take, Nat.add_sub_cancel_left, List.prefix_iff_eq_take]
  simp only [Bool.and_eq_true, decide_eq_true_eq, beq_iff_eq]
  constructor
  · rintro ⟨_, same⟩
    exact same.symm
  · intro same
    refine ⟨?_, same.symm⟩
    have short := congrArg List.length same
    simp only [List.length_take, List.length_drop, Array.length_toList] at short
    unfold Text.length at inside ⊢
    omega

/-- A primitive ends where the judgement says, or nowhere. -/
def PrimitiveEnds (text : Text) (i : Nat) (kind : Kind) (outcome : Option Nat) : Prop :=
  match outcome with
  | some j => Takes text i j kind
  | none => ∀ j, ¬ Takes text i j kind

/-- A condition decides whether a primitive takes the text to a fixed end. -/
theorem primitiveEnds_ite {text : Text} {i stop : Nat} {kind : Kind} {accepts condition : Prop}
    [Decidable accepts] (decides : accepts ↔ condition)
    (takes : ∀ j, Takes text i j kind ↔ condition ∧ j = stop) :
    PrimitiveEnds text i kind (if accepts then some stop else none) := by
  by_cases holds : accepts
  · rw [if_pos holds]
    exact (takes stop).mpr ⟨decides.mp holds, rfl⟩
  · rw [if_neg holds]
    exact fun j taken => holds (decides.mpr ((takes j).mp taken).1)

theorem still_ite (text : Text) (i stop : Nat) (accepts : Prop) [Decidable accepts]
    (store : ByValue.Store) :
    ByValue.still (if accepts then some (text.matchOver i stop) else none) store =
      .ok ((if accepts then some stop else none).map fun j => (text.matchOver i j, store)) := by
  split <;> rfl

/-- A primitive matches by value as the judgement says. -/
theorem kind_primitive {setup : Setup} {eval : ByValue.Evaluator} {within : Option String}
    {i : Nat} (inside : i ≤ setup.text.length) {kind : Kind} (primitive : kind.isPrimitive = true)
    (store : ByValue.Store) :
    ∃ outcome, PrimitiveEnds setup.text i kind outcome ∧
      ByValue.kind setup eval within i kind store =
        .ok (outcome.map fun j => (setup.text.matchOver i j, store)) := by
  cases kind with
  | literal chars =>
      exact ⟨_, primitiveEnds_ite (occursAt_iff inside chars) fun _ => Iff.rfl,
        still_ite _ _ _ _ store⟩
  | charSet set =>
      cases here : setup.text.charAt? i with
      | none =>
          refine ⟨none, ?_, ?_⟩
          · rintro j ⟨⟨c, found, _⟩, _⟩
            rw [here] at found
            cases found
          · simp only [ByValue.kind, charAt, here]
            rfl
      | some c =>
          have decides : set.contains c = true ↔
              ∃ c, setup.text.charAt? i = some c ∧ set.contains c = true := by simp [here]
          refine ⟨_, primitiveEnds_ite decides fun _ => Iff.rfl, ?_⟩
          simp only [ByValue.kind, charAt, here]
          exact still_ite _ _ _ _ store
  | chars count =>
      have decides : count ≤ setup.text.length - i ↔ i + count ≤ setup.text.length := by omega
      exact ⟨_, primitiveEnds_ite decides fun _ => Iff.rfl, still_ite _ _ _ _ store⟩
  | rest count =>
      have decides : setup.text.length - i < count ↔ setup.text.length < i + count := by omega
      exact ⟨_, primitiveEnds_ite decides fun _ => Iff.rfl, still_ite _ _ _ _ store⟩
  | constant accepts =>
      exact ⟨_, primitiveEnds_ite Iff.rfl fun _ => Iff.rfl, still_ite _ _ _ _ store⟩
  | startOfLine =>
      exact ⟨_, primitiveEnds_ite (startsLine_iff inside) fun _ => Iff.rfl,
        still_ite _ _ _ _ store⟩
  | endOfLine =>
      exact ⟨_, primitiveEnds_ite (endsLine_iff inside) fun _ => Iff.rfl,
        still_ite _ _ _ _ store⟩
  | _ => cases primitive

end Peg

end PegEngine
