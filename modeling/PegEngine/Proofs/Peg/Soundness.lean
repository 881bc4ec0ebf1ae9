import PegEngine.Proofs.Peg.Primitives
import PegEngine.Proofs.Reachability

/-!
Contract: what the match of a parsing expression finds is derivable, unless it ends at the recursion
limit.

`Sound` is stated for an evaluator of the patterns below. One lemma for each operator carries it
from the calls to the operator, and the induction over the room for calls closes it.
-/

namespace PegEngine

namespace Peg

/-- Matching has ended at the recursion limit. -/
def Limited {α : Type} (limit : Nat) (answer : Except MatchError α) : Prop :=
  ∃ position, answer = .error (.recursionLimit limit position)

/-- The match from `start` to where a goal ends, with the store as it was. -/
def found (text : Text) (start : Nat) (store : ByValue.Store) (outcome : Option Nat) :
    ByValue.Outcome :=
  .ok (outcome.map fun j => (text.matchOver start j, store))

/-- An answer that stands for a derivable outcome of a goal, or for the limit. -/
def Answers (setup : Setup) (goal : Goal) (start i : Nat) (store : ByValue.Store)
    (answer : ByValue.Outcome) : Prop :=
  Limited setup.limit answer ∨
    ∃ outcome, Derives setup.graph setup.text goal i outcome ∧
      answer = found setup.text start store outcome

/-- The evaluator finds derivable outcomes of the pattern only. -/
def Sound (setup : Setup) (eval : ByValue.Evaluator) (pattern : PatternId) : Prop :=
  ∀ i ≤ setup.text.length, ∀ store,
    Answers setup (.pattern pattern) i i store (eval pattern i store)

section Operators

variable {setup : Setup} {eval : ByValue.Evaluator} {start i : Nat} {store : ByValue.Store}

/-- An answer goes on as an answer after a sound call: at the limit, after a failure, or from where
the call ends. -/
theorem Sound.after {body : PatternId} (sound : Sound setup eval body)
    (inside : i ≤ setup.text.length) {goal : Goal}
    {next : Option Match → ByValue.Store → ByValue.Outcome}
    (fails : Derives setup.graph setup.text (.pattern body) i none →
      Answers setup goal start i store (next none store))
    (ends : ∀ j, Derives setup.graph setup.text (.pattern body) i (some j) →
      i ≤ j ∧ j ≤ setup.text.length →
      Answers setup goal start i store (next (some (setup.text.matchOver i j)) store)) :
    Answers setup goal start i store (ByValue.after (eval body i store) store next) := by
  rcases sound i inside store with ⟨position, limited⟩ | ⟨outcome, derives, answer⟩
  · rw [limited]
    exact Or.inl ⟨position, rfl⟩
  · rw [answer]
    cases outcome with
    | none => exact fails derives
    | some j => exact ends j derives (derives.bounds inside)

/-- An answer stands for another goal if every derivation of the first gives one of the other. -/
theorem Answers.mono {goal other : Goal} {i' : Nat} {answer : ByValue.Outcome}
    (answers : Answers setup goal start i store answer)
    (derives : ∀ outcome, Derives setup.graph setup.text goal i outcome →
      Derives setup.graph setup.text other i' outcome) :
    Answers setup other start i' store answer := by
  rcases answers with limited | ⟨outcome, derived, same⟩
  · exact Or.inl limited
  · exact Or.inr ⟨outcome, derives outcome derived, same⟩

theorem Answers.of_derives {goal : Goal} {outcome : Option Nat}
    (derives : Derives setup.graph setup.text goal i outcome) :
    Answers setup goal start i store (found setup.text start store outcome) :=
  Or.inr ⟨outcome, derives, rfl⟩

theorem sequence_answers {items : List PatternId} (sound : ∀ item ∈ items, Sound setup eval item)
    (inside : i ≤ setup.text.length) :
    Answers setup (.sequence items) start i store
      (ByValue.sequence eval items (setup.text.matchOver start i) store) := by
  induction items generalizing i with
  | nil => exact .of_derives .noMoreItems
  | cons item rest inductionHypothesis =>
      refine (sound item (by simp)).after inside ?_ ?_
      · exact fun fails => .of_derives (.itemFails fails)
      · intro j ends bounds
        have later := inductionHypothesis (fun other member => sound other (by simp [member]))
          bounds.2
        exact later.mono fun outcome derives => .item ends derives

theorem choice_answers {items : List PatternId} (sound : ∀ item ∈ items, Sound setup eval item)
    (inside : i ≤ setup.text.length) :
    Answers setup (.choice items) i i store (ByValue.choice eval i items store) := by
  induction items with
  | nil => exact .of_derives .noChoiceLeft
  | cons item rest inductionHypothesis =>
      refine (sound item (by simp)).after inside ?_ ?_
      · intro fails
        have later := inductionHypothesis fun other member => sound other (by simp [member])
        exact later.mono fun outcome derives => .notChosen fails derives
      · exact fun j ends _ => .of_derives (.chosen ends)

/-- A greedy repetition ends at the limit, or it counts its iterations. If it has done as many as it
may, it is exact. -/
theorem upTo_answers {body : PatternId} (sound : Sound setup eval body)
    (inside : i ≤ setup.text.length) (most done start : Nat) (store : ByValue.Store) :
    Limited setup.limit (ByValue.upTo eval body most done (setup.text.matchOver start i) store) ∨
      ∃ count j, ByValue.upTo eval body most done (setup.text.matchOver start i) store =
          .ok (done + count, setup.text.matchOver start j, store) ∧
        Derives setup.graph setup.text (.repetition body (.atMost most)) i (some j) ∧
        Derives setup.graph setup.text (.repetition body (.exactly most)) i
          (if count = most then some j else none) := by
  induction most generalizing done i with
  | zero => exact Or.inr ⟨0, i, rfl, .atMostReached, .exactlyReached⟩
  | succ most inductionHypothesis =>
      rcases sound i inside store with ⟨position, limited⟩ | ⟨outcome, derives, answer⟩
      · refine Or.inl ⟨position, ?_⟩
        simp only [ByValue.upTo, Text.matchOver, limited]
        rfl
      · cases outcome with
        | none =>
            refine Or.inr ⟨0, i, ?_, .atMostStops derives, .exactlyFails derives⟩
            simp only [ByValue.upTo, Text.matchOver, answer]
            rfl
        | some j =>
            have bounds := derives.bounds inside
            have unfolded : ByValue.upTo eval body (most + 1) done
                  (setup.text.matchOver start i) store =
                ByValue.upTo eval body most (done + 1) (setup.text.matchOver start j) store := by
              simp only [ByValue.upTo, Text.matchOver, answer]
              rfl
            rw [unfolded]
            rcases inductionHypothesis bounds.2 (done + 1) with
              limited | ⟨count, last, ends, atMost, exactly⟩
            · exact Or.inl limited
            · refine Or.inr ⟨count + 1, last, ?_, .atMost derives atMost, ?_⟩
              · rw [ends, Nat.add_assoc, Nat.add_comm 1]
              · have same : (count + 1 = most + 1) = (count = most) := by simp
                simp only [same]
                exact .exactly derives exactly

theorem atLeast_stops {body : PatternId} (minimum done : Nat)
    (fails : Derives setup.graph setup.text (.pattern body) i none) :
    Answers setup (.repetition body (.atLeast (minimum - done))) start i store
      (ByValue.still (if minimum ≤ done then some (setup.text.matchOver start i) else none)
        store) := by
  by_cases reached : minimum ≤ done
  · rw [if_pos reached, Nat.sub_eq_zero_of_le reached]
    exact .of_derives (.atLeastStops fails)
  · have positive : minimum - done ≠ 0 := by omega
    obtain ⟨missing, more⟩ := Nat.exists_eq_succ_of_ne_zero positive
    rw [if_neg reached, more]
    exact .of_derives (.atLeastFails fails)

/-- One iteration of an unbounded repetition, given the answers of the iterations after it. -/
theorem atLeast_goesOn {body : PatternId} (sound : Sound setup eval body)
    (inside : i ≤ setup.text.length) {minimum left done : Nat}
    (rest : ∀ j, i < j → j ≤ setup.text.length → ∃ fewer, left = fewer + 1 ∧
      Answers setup (.repetition body (.atLeast (minimum - (done + 1)))) start j store
        (ByValue.atLeast eval body minimum fewer (done + 1) (setup.text.matchOver start j) store)) :
    Answers setup (.repetition body (.atLeast (minimum - done))) start i store
      (ByValue.atLeast eval body minimum left done (setup.text.matchOver start i) store) := by
  unfold ByValue.atLeast
  refine sound.after inside (atLeast_stops minimum done) fun j ends bounds => ?_
  dsimp only
  by_cases width : (setup.text.matchOver i j).stop = (setup.text.matchOver start i).stop
  · rw [if_pos width]
    cases width
    exact .of_derives (.atLeastZeroWidth ends)
  · rw [if_neg width]
    change j ≠ i at width
    obtain ⟨fewer, more, later⟩ := rest j (by omega) bounds.2
    subst more
    exact later.mono fun outcome derives => .atLeast ends width (by rwa [Nat.sub_sub])

/-- Every iteration with width takes one of the characters that are left, so the bound on their
number is not reached. -/
theorem atLeast_answers {body : PatternId} (sound : Sound setup eval body)
    (inside : i ≤ setup.text.length) (minimum done : Nat) {left : Nat}
    (enough : setup.text.length - i ≤ left) :
    Answers setup (.repetition body (.atLeast (minimum - done))) start i store
      (ByValue.atLeast eval body minimum left done (setup.text.matchOver start i) store) := by
  induction left generalizing done i with
  | zero =>
      refine atLeast_goesOn sound inside fun j more within => ?_
      omega
  | succ left inductionHypothesis =>
      refine atLeast_goesOn sound inside fun j more within => ⟨left, rfl, ?_⟩
      exact inductionHypothesis within (done + 1) (by omega)

theorem repetition_answers {body : PatternId} (sound : Sound setup eval body)
    (inside : i ≤ setup.text.length) (count : RepeatCount) :
    Answers setup (.repetition body count) i i store
      (ByValue.repetition eval i setup.text body store count) := by
  cases count with
  | atLeast minimum => exact atLeast_answers sound inside minimum 0 (Nat.le_refl _)
  | atMost most =>
      simp only [ByValue.repetition]
      rcases upTo_answers sound inside most 0 i store with
        ⟨position, limited⟩ | ⟨count, j, ends, atMost, _⟩
      · rw [limited]
        exact Or.inl ⟨position, rfl⟩
      · rw [ends]
        exact .of_derives atMost
  | exactly most =>
      simp only [ByValue.repetition]
      rcases upTo_answers sound inside most 0 i store with
        ⟨position, limited⟩ | ⟨count, j, ends, _, exactly⟩
      · rw [limited]
        exact Or.inl ⟨position, rfl⟩
      · rw [ends]
        refine Or.inr ⟨_, exactly, ?_⟩
        change Except.ok (if 0 + count = most then _ else _) = _
        rw [Nat.zero_add]
        split <;> rfl

/-- Every operator finds derivable outcomes only, if the calls that it makes do. -/
theorem kind_answers {within : Option String} {pattern : PatternId}
    (peg : (setup.graph.kind pattern).isPeg = true)
    (sound : ∀ next, setup.graph.Leads pattern next → Sound setup eval next)
    (inside : i ≤ setup.text.length) :
    Answers setup (.pattern pattern) i i store
      (ByValue.kind setup eval within i (setup.graph.kind pattern) store) := by
  have children : ∀ child ∈ (setup.graph.kind pattern).children, Sound setup eval child :=
    fun child member => sound child (Or.inl member)
  by_cases primitive : (setup.graph.kind pattern).isPrimitive = true
  · obtain ⟨outcome, ends, answer⟩ := kind_primitive inside primitive store
    rw [answer]
    cases outcome with
    | some j => exact .of_derives (.takes ends)
    | none => exact .of_derives (.takesNothing primitive ends)
  cases kind : setup.graph.kind pattern with
  | sequence items =>
      rw [kind] at children
      exact (sequence_answers children inside).mono fun _ => .sequence kind
  | choice items =>
      rw [kind] at children
      exact (choice_answers children inside).mono fun _ => .choice kind
  | negative body =>
      rw [kind] at children
      simp only [ByValue.kind]
      refine (children body (by simp [Kind.children])).after inside ?_ ?_
      · exact fun fails => .of_derives (.negative kind fails)
      · exact fun j ends _ => .of_derives (.negativeFails kind ends)
  | positive body =>
      rw [kind] at children
      simp only [ByValue.kind]
      refine (children body (by simp [Kind.children])).after inside ?_ ?_
      · exact fun fails => .of_derives (.positiveFails kind fails)
      · exact fun j ends _ => .of_derives (.positive kind ends)
  | repetition body count =>
      rw [kind] at children
      have sound := children body (by simp [Kind.children])
      exact (repetition_answers sound inside count).mono fun _ => .repetition kind
  | reference name cell =>
      simp only [ByValue.kind, ByValue.reference]
      cases target : setup.graph.target? cell with
      | none => exact .of_derives (.unbound kind target)
      | some rule =>
          have leads := Graph.leads_of_target? kind target
          exact (sound rule leads i inside store).mono fun _ => .bound kind target
  | literal | charSet | chars | rest | constant | startOfLine | endOfLine =>
      rw [kind] at primitive
      exact absurd rfl primitive
  | _ =>
      rw [kind] at peg
      cases peg

end Operators

end Peg

/-- All that a match of `pattern` can come to is a parsing expression. -/
def Graph.IsPeg (graph : Graph) (pattern : PatternId) : Prop :=
  ∀ origin, graph.Reaches pattern origin → (graph.kind origin).isPeg = true

theorem Graph.IsPeg.of_leads {graph : Graph} {pattern next : PatternId}
    (peg : graph.IsPeg pattern) (step : graph.Leads pattern next) : graph.IsPeg next :=
  fun origin reaches => peg origin (.of_calls (Or.inl step) reaches)

namespace Peg

/-- At any depth that is left, evaluation finds derivable outcomes only. -/
theorem eval_sound (setup : Setup) (room : Nat) {pattern : PatternId}
    (peg : setup.graph.IsPeg pattern) (within : Option String) :
    Sound setup (ByValue.eval setup room within) pattern := by
  induction room generalizing pattern within with
  | zero => exact fun i inside store => Or.inl ⟨_, rfl⟩
  | succ room inductionHypothesis =>
      intro i inside store
      unfold ByValue.eval
      rw [Nat.min_eq_left inside]
      refine kind_answers (peg pattern .refl) (fun next leads => ?_) inside
      exact inductionHypothesis (peg.of_leads leads) _

end Peg

end PegEngine
