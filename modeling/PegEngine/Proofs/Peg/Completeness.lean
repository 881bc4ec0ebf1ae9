import PegEngine.Proofs.Matching.Limit
import PegEngine.Proofs.Matching.Refinement
import PegEngine.Proofs.Peg.Soundness

/-!
Contract: what is derivable is found, once the recursion limit leaves enough room.

Owns:
- `Finds` and `Computes`, what evaluators make of a goal at some depth and at every larger one;
- `Derives.computes`, by induction on derivations, and from it that outcomes are unique;
- the match of parsing expressions from the outside.
-/

namespace PegEngine

namespace Peg

/-- An evaluator of the patterns below makes this outcome of a goal. -/
def Finds (text : Text) (eval : ByValue.Evaluator) : Goal → Nat → Option Nat → Prop
  | .pattern pattern, i, outcome => ∀ store, eval pattern i store = found text i store outcome
  | .sequence items, i, outcome => ∀ start store,
      ByValue.sequence eval items (text.matchOver start i) store = found text start store outcome
  | .choice items, i, outcome => ∀ store,
      ByValue.choice eval i items store = found text i store outcome
  | .repetition body (.atMost most), i, outcome => ∀ start done store, ∃ count j,
      ByValue.upTo eval body most done (text.matchOver start i) store =
          .ok (done + count, text.matchOver start j, store) ∧
        outcome = some j
  | .repetition body (.exactly most), i, outcome => ∀ start done store, ∃ count j,
      ByValue.upTo eval body most done (text.matchOver start i) store =
          .ok (done + count, text.matchOver start j, store) ∧
        outcome = if count = most then some j else none
  | .repetition body (.atLeast missing), i, outcome => ∀ start done left minimum store,
      minimum - done = missing → text.length - i ≤ left →
        ByValue.atLeast eval body minimum left done (text.matchOver start i) store =
          found text start store outcome

/-- With enough room for calls, evaluation makes this outcome of a goal. -/
def Computes (graph : Graph) (text : Text) (goal : Goal) (i : Nat) (outcome : Option Nat) : Prop :=
  ∃ enough, ∀ room, enough ≤ room → ∀ limit within,
    Finds text (ByValue.eval ⟨graph, text, limit⟩ room within) goal i outcome

namespace Computes

variable {graph : Graph} {text : Text} {goal first second : Goal} {pattern : PatternId}
  {i i' j : Nat} {outcome outcome' outcome'' : Option Nat}

theorem of_finds (finds : ∀ eval, Finds text eval goal i outcome) :
    Computes graph text goal i outcome :=
  ⟨0, fun _ _ _ _ => finds _⟩

theorem mono (computes : Computes graph text first i outcome)
    (finds : ∀ eval, Finds text eval first i outcome → Finds text eval goal i' outcome') :
    Computes graph text goal i' outcome' := by
  obtain ⟨enough, computes⟩ := computes
  exact ⟨enough, fun room more limit within => finds _ (computes room more limit within)⟩

theorem mono₂ (computes : Computes graph text first i outcome)
    (later : Computes graph text second j outcome')
    (finds : ∀ eval, Finds text eval first i outcome → Finds text eval second j outcome' →
      Finds text eval goal i' outcome'') :
    Computes graph text goal i' outcome'' := by
  obtain ⟨enough, computes⟩ := computes
  obtain ⟨enough', later⟩ := later
  refine ⟨max enough enough', fun room more limit within => ?_⟩
  have enoughFirst : enough ≤ room := by omega
  have enoughSecond : enough' ≤ room := by omega
  exact finds _ (computes room enoughFirst limit within) (later room enoughSecond limit within)

/-- A call needs one more than what its kind needs. -/
theorem call (computes : Computes graph text goal i outcome) (inside : i ≤ text.length)
    (kind : ∀ limit eval within, Finds text eval goal i outcome → ∀ store,
      ByValue.kind ⟨graph, text, limit⟩ eval within i (graph.kind pattern) store =
        found text i store outcome') :
    Computes graph text (.pattern pattern) i outcome' := by
  obtain ⟨enough, computes⟩ := computes
  refine ⟨enough + 1, fun room more limit within store => ?_⟩
  obtain ⟨rest, deeper⟩ := Nat.exists_eq_add_of_le' more
  subst deeper
  change ByValue.kind _ _ _ (min i text.length) (graph.kind pattern) store = _
  rw [Nat.min_eq_left inside]
  exact kind limit _ _ (computes _ (Nat.le_add_left ..) limit _) store

theorem call_of_kind (inside : i ≤ text.length)
    (kind : ∀ limit eval within store,
      ByValue.kind ⟨graph, text, limit⟩ eval within i (graph.kind pattern) store =
        found text i store outcome) :
    Computes graph text (.pattern pattern) i outcome := by
  have nothing : Computes graph text (.choice []) i none := .of_finds fun _ _ => rfl
  exact nothing.call inside fun limit eval within _ => kind limit eval within

end Computes

/-! ## One iteration -/

section Iterations

variable {text : Text} {eval : ByValue.Evaluator} {body : PatternId} {i j : Nat}

theorem upTo_of_fails (fails : Finds text eval (.pattern body) i none) (most done start : Nat)
    (store : ByValue.Store) :
    ByValue.upTo eval body (most + 1) done (text.matchOver start i) store =
      .ok (done + 0, text.matchOver start i, store) := by
  simp only [ByValue.upTo, Text.matchOver, fails store]
  rfl

theorem upTo_of_ends (ends : Finds text eval (.pattern body) i (some j)) (most done start : Nat)
    (store : ByValue.Store) :
    ByValue.upTo eval body (most + 1) done (text.matchOver start i) store =
      ByValue.upTo eval body most (done + 1) (text.matchOver start j) store := by
  simp only [ByValue.upTo, Text.matchOver, ends store]
  rfl

theorem atLeast_of_fails (fails : Finds text eval (.pattern body) i none)
    (minimum left done start : Nat) (store : ByValue.Store) :
    ByValue.atLeast eval body minimum left done (text.matchOver start i) store =
      found text start store (if minimum ≤ done then some i else none) := by
  unfold ByValue.atLeast
  simp only [Text.matchOver, fails store]
  change ByValue.still (if minimum ≤ done then some _ else none) store = _
  split <;> rfl

theorem atLeast_of_zeroWidth (ends : Finds text eval (.pattern body) i (some i))
    (minimum left done start : Nat) (store : ByValue.Store) :
    ByValue.atLeast eval body minimum left done (text.matchOver start i) store =
      found text start store (some i) := by
  unfold ByValue.atLeast
  simp only [Text.matchOver, ends store]
  change (if i = i then _ else _) = _
  rw [if_pos rfl]
  rfl

theorem atLeast_of_width (ends : Finds text eval (.pattern body) i (some j)) (width : j ≠ i)
    (minimum left done start : Nat) (store : ByValue.Store) :
    ByValue.atLeast eval body minimum (left + 1) done (text.matchOver start i) store =
      ByValue.atLeast eval body minimum left (done + 1) (text.matchOver start j) store := by
  rw [ByValue.atLeast]
  simp only [Text.matchOver, ends store]
  change (if j = i then _ else _) = _
  rw [if_neg width]
  rfl

end Iterations

theorem Takes.isPrimitive {text : Text} {i j : Nat} {kind : Kind} (taken : Takes text i j kind) :
    kind.isPrimitive = true := by
  cases kind <;> first | rfl | exact taken.elim

theorem Takes.unique {text : Text} {i j j' : Nat} {kind : Kind} (taken : Takes text i j kind)
    (other : Takes text i j' kind) : j = j' := by
  cases kind with
  | literal | charSet | chars | rest | constant | startOfLine | endOfLine =>
      exact taken.2.trans other.2.symm
  | _ => exact taken.elim

/-- A primitive makes the outcome that the judgement gives it. -/
theorem computes_primitive {graph : Graph} {text : Text} {pattern : PatternId} {i : Nat}
    {outcome : Option Nat} (inside : i ≤ text.length)
    (primitive : (graph.kind pattern).isPrimitive = true)
    (ends : PrimitiveEnds text i (graph.kind pattern) outcome) :
    Computes graph text (.pattern pattern) i outcome := by
  refine .call_of_kind inside fun limit eval within store => ?_
  obtain ⟨other, otherEnds, answer⟩ :=
    @kind_primitive ⟨graph, text, limit⟩ eval within i inside _ primitive store
  have same : other = outcome := by
    cases outcome with
    | none =>
        cases other with
        | none => rfl
        | some j => exact absurd otherEnds (ends j)
    | some j =>
        cases other with
        | none => exact absurd ends (otherEnds j)
        | some j' => rw [Takes.unique ends otherEnds]
  rw [answer, same]
  rfl

/-- What is derivable is found with enough room. -/
theorem Derives.computes {graph : Graph} {text : Text} {goal : Goal} {i : Nat}
    {outcome : Option Nat} (derives : Derives graph text goal i outcome)
    (inside : i ≤ text.length) : Computes graph text goal i outcome := by
  induction derives with
  | takes taken => exact computes_primitive inside taken.isPrimitive taken
  | takesNothing primitive nothing => exact computes_primitive inside primitive nothing
  | sequence kind _ inductionHypothesis | choice kind _ inductionHypothesis =>
      refine (inductionHypothesis inside).call inside fun limit eval within finds store => ?_
      rw [kind]
      apply finds
  | negative kind _ inductionHypothesis | negativeFails kind _ inductionHypothesis
  | positive kind _ inductionHypothesis | positiveFails kind _ inductionHypothesis =>
      refine (inductionHypothesis inside).call inside fun limit eval within finds store => ?_
      rw [kind]
      simp only [ByValue.kind, finds store]
      rfl
  | @repetition pattern body count i outcome kind _ inductionHypothesis =>
      refine (inductionHypothesis inside).call inside fun limit eval within finds store => ?_
      rw [kind]
      cases count with
      | atLeast minimum => exact finds i 0 _ minimum store rfl (Nat.le_refl _)
      | atMost most =>
          obtain ⟨count, j, ends, same⟩ := finds i 0 store
          simp only [ByValue.kind, ByValue.repetition, ends, same]
          rfl
      | exactly most =>
          obtain ⟨count, j, ends, same⟩ := finds i 0 store
          simp only [ByValue.kind, ByValue.repetition, ends, same, Nat.zero_add]
          change Except.ok (if count = most then _ else _) = _
          split <;> rfl
  | unbound kind target =>
      refine .call_of_kind inside fun limit eval within store => ?_
      rw [kind]
      simp only [ByValue.kind, ByValue.reference, target]
      rfl
  | bound kind target _ inductionHypothesis =>
      refine (inductionHypothesis inside).call inside fun limit eval within finds store => ?_
      rw [kind]
      simp only [ByValue.kind, ByValue.reference, target]
      exact finds store
  | noMoreItems => exact .of_finds fun eval start store => rfl
  | itemFails _ inductionHypothesis =>
      refine (inductionHypothesis inside).mono fun eval finds start store => ?_
      simp only [ByValue.sequence, Text.matchOver, finds store]
      rfl
  | item first _ inductionHypothesis laterHypothesis =>
      have bounds := first.bounds inside
      refine (inductionHypothesis inside).mono₂ (laterHypothesis bounds.2)
        fun eval finds later start store => ?_
      rw [← later start store]
      simp only [ByValue.sequence, Text.matchOver, finds store]
      rfl
  | noChoiceLeft => exact .of_finds fun eval store => rfl
  | chosen _ inductionHypothesis =>
      refine (inductionHypothesis inside).mono fun eval finds store => ?_
      simp only [ByValue.choice, finds store]
      rfl
  | notChosen _ _ inductionHypothesis laterHypothesis =>
      refine (inductionHypothesis inside).mono₂ (laterHypothesis inside)
        fun eval finds later store => ?_
      rw [← later store]
      simp only [ByValue.choice, finds store]
      rfl
  | atMostReached => exact .of_finds fun eval start done store => ⟨0, _, rfl, rfl⟩
  | exactlyReached => exact .of_finds fun eval start done store => ⟨0, _, rfl, rfl⟩
  | atMostStops _ inductionHypothesis =>
      refine (inductionHypothesis inside).mono fun eval finds start done store => ?_
      exact ⟨0, _, upTo_of_fails finds _ _ _ _, rfl⟩
  | exactlyFails _ inductionHypothesis =>
      refine (inductionHypothesis inside).mono fun eval finds start done store => ?_
      exact ⟨0, _, upTo_of_fails finds _ _ _ _, by simp⟩
  | atMost first _ inductionHypothesis laterHypothesis =>
      have bounds := first.bounds inside
      refine (inductionHypothesis inside).mono₂ (laterHypothesis bounds.2)
        fun eval finds later start done store => ?_
      obtain ⟨count, last, ends, same⟩ := later start (done + 1) store
      refine ⟨count + 1, last, ?_, same⟩
      rw [upTo_of_ends finds, ends, Nat.add_assoc, Nat.add_comm 1]
  | exactly first _ inductionHypothesis laterHypothesis =>
      have bounds := first.bounds inside
      refine (inductionHypothesis inside).mono₂ (laterHypothesis bounds.2)
        fun eval finds later start done store => ?_
      obtain ⟨count, last, ends, same⟩ := later start (done + 1) store
      refine ⟨count + 1, last, ?_, ?_⟩
      · rw [upTo_of_ends finds, ends, Nat.add_assoc, Nat.add_comm 1]
      · simpa using same
  | atLeastStops _ inductionHypothesis =>
      refine (inductionHypothesis inside).mono fun eval finds start done left minimum store => ?_
      intro missing _
      rw [atLeast_of_fails finds, if_pos (by omega)]
  | atLeastFails _ inductionHypothesis =>
      refine (inductionHypothesis inside).mono fun eval finds start done left minimum store => ?_
      intro missing _
      rw [atLeast_of_fails finds, if_neg (by omega)]
  | atLeastZeroWidth _ inductionHypothesis =>
      refine (inductionHypothesis inside).mono fun eval finds start done left minimum store => ?_
      intro _ _
      exact atLeast_of_zeroWidth finds _ _ _ _ _
  | atLeast first width _ inductionHypothesis laterHypothesis =>
      have bounds := first.bounds inside
      refine (inductionHypothesis inside).mono₂ (laterHypothesis bounds.2)
        fun eval finds later start done left minimum store => ?_
      intro missing enough
      obtain ⟨fewer, more⟩ : ∃ fewer, left = fewer + 1 := ⟨left - 1, by omega⟩
      subst more
      rw [atLeast_of_width finds width]
      exact later start (done + 1) fewer minimum store (by omega) (by omega)

/-- A pattern has one outcome at most. -/
theorem Derives.unique {graph : Graph} {text : Text} {pattern : PatternId} {i : Nat}
    {outcome other : Option Nat} (derives : Derives graph text (.pattern pattern) i outcome)
    (derivesOther : Derives graph text (.pattern pattern) i other) (inside : i ≤ text.length) :
    outcome = other := by
  obtain ⟨enough, finds⟩ := derives.computes inside
  obtain ⟨enough', findsOther⟩ := derivesOther.computes inside
  have room := finds (max enough enough') (Nat.le_max_left ..) 0 none ⟨{}, fun _ => []⟩
  have roomOther := findsOther (max enough enough') (Nat.le_max_right ..) 0 none ⟨{}, fun _ => []⟩
  have same := room.symm.trans roomOther
  cases outcome <;> cases other <;> simp_all [found, Text.matchOver]

end Peg

/-! ## Matches from the outside -/

namespace Graph

variable {graph : Graph} {pattern : PatternId}

theorem IsPeg.functionFree (peg : graph.IsPeg pattern) : graph.FunctionFree pattern := by
  intro origin reaches callback found
  have isPeg := peg origin reaches
  rw [found] at isPeg
  cases isPeg

theorem result_of_limited {input : Input} {context : Context} {index : Nat} {limit : Nat}
    (peg : graph.IsPeg pattern)
    (limited : Peg.Limited limit (graph.matchByValue pattern input index context)) :
    Peg.Limited limit (graph.matchIn pattern input index context).result := by
  obtain ⟨position, same⟩ := limited
  refine ⟨position, ?_⟩
  rw [result_matchIn peg.functionFree, same]
  rfl

theorem result_of_found {input : Input} {context : Context} {i : Nat} {outcome : Option Nat}
    {store : ByValue.Store} (peg : graph.IsPeg pattern)
    (found : graph.matchByValue pattern input i context = Peg.found input.text i store outcome) :
    (graph.matchIn pattern input i context).result =
      .ok (outcome.map (input.text.matchOver i)) := by
  rw [result_matchIn peg.functionFree, found]
  cases outcome <;> rfl

/-- A match of a parsing expression is sound and complete for the judgement, up to the recursion
limit: whatever the limit, it ends at the limit or with the derivable outcome, and it ends with that
outcome for every limit that is large enough. -/
theorem matchIn_adequate (peg : graph.IsPeg pattern) (input : Input) {i : Nat}
    (inside : i ≤ input.text.length) (context : Context) :
    let result := fun limit => (graph.matchIn pattern input i (context.withLimit limit)).result
    let ends := Peg.Derives graph input.text (.pattern pattern) i
    let answer := fun outcome : Option Nat => Except.ok (outcome.map (input.text.matchOver i))
    (∀ limit, Peg.Limited limit (result limit) ∨
      ∃ outcome, ends outcome ∧ result limit = answer outcome) ∧
    (∀ outcome, ends outcome →
      ∃ enough, ∀ limit, enough ≤ limit → result limit = answer outcome) ∧
    ((∀ outcome, ¬ ends outcome) → ∀ limit, Peg.Limited limit (result limit)) ∧
    ∀ outcome other, ends outcome → ends other → outcome = other := by
  intro result ends answer
  have sound : ∀ limit, Peg.Limited limit (result limit) ∨
      ∃ outcome, ends outcome ∧ result limit = answer outcome := by
    intro limit
    rcases Peg.eval_sound ((context.withLimit limit).setup graph input.text)
      (limit - context.depth) peg none i inside ((context.withLimit limit).state input).store with
      limited | ⟨outcome, derives, found⟩
    · exact Or.inl (result_of_limited peg limited)
    · exact Or.inr ⟨outcome, derives, result_of_found peg found⟩
  refine ⟨sound, fun outcome derives => ?_, fun underivable limit => ?_, fun outcome other => ?_⟩
  · obtain ⟨enough, finds⟩ := derives.computes inside
    refine ⟨enough + context.depth, fun limit more => ?_⟩
    have found := finds (limit - context.depth) (by omega) limit none
    exact result_of_found peg (found ((context.withLimit limit).state input).store)
  · rcases sound limit with limited | ⟨outcome, derives, _⟩
    · exact limited
    · exact absurd derives (underivable outcome)
  · exact fun derives derivesOther => derives.unique derivesOther inside

/-- A rule for brackets that nest, and a rule that refers to itself before it takes anything. -/
def brackets : Graph where
  slots := #[
    some { kind := .literal ['('] },
    some { kind := .literal [')'] },
    some { kind := .reference "nested" 0 },
    some { kind := .repetition 2 (.atLeast 0) },
    some { kind := .sequence [0, 3, 1], name := some "nested" },
    some { kind := .reference "endless" 1, name := some "endless" },
    some { kind := .choice [4, 5] }]
  cells := #[.weak 4, .weak 5]

theorem matchIn_adequate_brackets :
    brackets.IsPeg 6 ∧
      ∀ limit,
        let run := brackets.matchIn 6 (.ofString "(())") 0 (Context.withLimit {} limit)
        Peg.Limited limit run.result ∨
          ∃ outcome, Peg.Derives brackets (Text.ofString "(())") (.pattern 6) 0 outcome ∧
            run.result = .ok (outcome.map ((Text.ofString "(())").matchOver 0)) := by
  have peg : brackets.IsPeg 6 := by
    intro origin _
    match origin with
    | 0 | 1 | 2 | 3 | 4 | 5 | 6 => rfl
    | origin + 7 => rfl
  exact ⟨peg, (matchIn_adequate peg (.ofString "(())") (Nat.zero_le _) {}).1⟩

end Graph

end PegEngine
