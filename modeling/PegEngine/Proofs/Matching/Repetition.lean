import Mathlib.Order.Bounds.Defs
import PegEngine.Proofs.Matching.Iteration

/-!
Contract: the three ways to count a repetition agree.

A repetition up to a count and one from a count on end as the one that counts exactly to the last
match. They have made one call more than that, the one that does not match, and it leaves the state
as it was if the callbacks are lawful.

Owns:
- `Graph.matchOf`, a match of a new node without a name, and `Graph.repeated`, one that repeats a
  pattern;
- `Graph.MatchesTimes`, `Graph.FailsTimes` and `Graph.StandsAfter`, by which the laws are stated;
- `Graph.repeated_exactly_of_le`, that counts above one that does not match end as it does;
- `Graph.matchOf_repetition`, the laws of the three counts.
-/

namespace PegEngine

namespace MatchState.Restores

variable {state other : MatchState}

theorem refl (state : MatchState) : state.Restores state :=
  ⟨rfl, .refl _, rfl, rfl⟩

theorem report (restored : state.Restores other) (setup : Setup) (pattern : PatternId) (i : Nat)
    (phase : Phase) :
    (state.report setup pattern i phase).Restores (other.report setup pattern i phase) := by
  obtain ⟨trace, reported⟩ := Matching.report_eq setup pattern i phase state
  obtain ⟨otherTrace, otherReported⟩ := Matching.report_eq setup pattern i phase other
  rw [reported, otherReported]
  exact ⟨restored.bindings, restored.stackTable, restored.depth, restored.options⟩

theorem leave (restored : state.Restores other) (node : Node) (entry : MatchState) :
    (entry.leave node state).Restores (entry.leave node other) := by
  refine ⟨restored.bindings, restored.stackTable, congrArg (· - 1) restored.depth, ?_⟩
  simp only [MatchState.leave, restored.options]

theorem settle (restored : state.Restores other) : state.settle.Restores other.settle := by
  unfold MatchState.settle
  by_cases outermost : other.depth = 0
  · rw [if_pos outermost, if_pos (restored.depth.trans outermost)]
    exact ⟨restored.bindings, ⟨restored.stackTable.entries, rfl⟩, restored.depth,
      restored.options⟩
  · rw [if_neg outermost, if_neg fun same => outermost (restored.depth.symm.trans same)]
    exact restored

end MatchState.Restores

namespace Matching

section Protocol

variable {setup : Setup} {pattern : PatternId} {i : Nat} {body other : MatchM (Option Match)}
  {entry reached : MatchState}

theorem guarded_congr
    (same : body (started setup pattern i entry) = other (started setup pattern i entry)) :
    guarded setup pattern i body entry = guarded setup pattern i other entry := by
  unfold started at same
  unfold guarded
  dsimp only
  rw [same]

theorem guarded_ne_found
    (none : ∀ m reached, body (started setup pattern i entry) ≠ .ok (some m) reached) (m : Match) :
    answerOf (guarded setup pattern i body entry) ≠ .ok (some m) := by
  unfold started at none
  unfold guarded
  dsimp only
  split
  · next outcome reached ended =>
      cases outcome with
      | some found => exact absurd ended (none found reached)
      | none =>
          dsimp only
          split <;> exact fun found => nomatch found
  · exact fun found => nomatch found

end Protocol

/-! ## Where the counts stop -/

/-- Both end with the same answer, and the first one leaves what the other one does if the callbacks
are lawful. -/
structure EndsAlike (lawful : Prop)
    (ended other : EStateM.Result MatchError MatchState (Option Match)) : Prop where
  answer : answerOf ended = answerOf other
  state (holds : lawful) : (stateOf ended).Restores (stateOf other)

theorem EndsAlike.of_eq {lawful : Prop}
    {ended other : EStateM.Result MatchError MatchState (Option Match)} (same : ended = other) :
    EndsAlike lawful ended other := by
  subst same
  exact ⟨rfl, fun _ => .refl _⟩

/-- The end of a call of a new node that repeats the body. -/
def repeating (setup : Setup) (room : Nat) (body : PatternId) (index : Nat) (entry : MatchState)
    (count : RepeatCount) : EStateM.Result MatchError MatchState (Option Match) :=
  callKind setup room (.repetition body count) index entry

section Counts

variable {setup : Setup} {room : Nat} {body : PatternId} {index : Nat} {entry : MatchState}
  {count : Nat} {last : Match} {middle : MatchState}

/-- The iterations that all counts of the body come by in the call. -/
abbrev CallIterations (setup : Setup) (room : Nat) (body : PatternId) (index : Nat)
    (entry : MatchState) : Nat → Match → MatchState → Prop :=
  let i := min index setup.text.length
  Iterations (call setup room) body (setup.text.matchOver i i)
    (started setup setup.graph.slots.size i entry)

/-- Iterations stay inside the call if the callbacks are lawful. -/
theorem Iterations.under {begun : MatchState} {first : Match}
    (iterations : Iterations (call setup room) body first begun count last middle)
    (lawful : setup.graph.Lawful setup.text body) (under : 0 < begun.depth) : 0 < middle.depth := by
  induction iterations with
  | start => exact under
  | @more count last m middle reached before next inductionHypothesis =>
      have isolated := (call_isolated setup room lawful last.stop inductionHypothesis).1
      rw [next] at isolated
      exact isolated.extends.depth.symm ▸ inductionHypothesis

/-- A call that has missed after the last iteration makes no difference. -/
theorem guarded_alike {pattern : PatternId} {i : Nat} {action other : MatchM (Option Match)}
    {lawful : Prop} {missed : MatchState}
    (ended : action (started setup pattern i entry) = .ok (some last) missed)
    (otherEnded : other (started setup pattern i entry) = .ok (some last) middle)
    (restored : lawful → missed.Restores middle) :
    EndsAlike lawful (guarded setup pattern i action entry)
      (guarded setup pattern i other entry) := by
  rw [guarded_of_found ended, guarded_of_found otherEnded]
  exact ⟨rfl, fun holds => (((restored holds).report ..).leave ..).settle⟩

/-- With lawful callbacks a call that misses leaves what the iterations before have left. -/
theorem restores_of_missed
    (iterations : CallIterations setup room body index entry count last middle)
    {missed : MatchState} (next : call setup room body last.stop middle = .ok none missed)
    (lawful : setup.graph.Lawful setup.text body) : missed.Restores middle := by
  have under : 0 < middle.depth := by
    refine iterations.under lawful ?_
    rw [depth_started]
    exact Nat.succ_pos _
  have isolated := (call_isolated setup room lawful last.stop under).1
  rw [next] at isolated
  cases isolated with
  | missed restored => exact restored

variable (roomLeft : setup.limit - entry.depth = room + 1)

include roomLeft

theorem repeating_eq (count : RepeatCount) :
    repeating setup (room + 1) body index entry count =
      guarded setup setup.graph.slots.size (min index setup.text.length)
        (matchRepetition setup.text (call setup room) (min index setup.text.length) body count)
        entry := by
  have shallow : ¬ setup.limit ≤ entry.depth := by omega
  simp only [repeating, callKind, if_neg shallow, matchKind]

/-- An exact count matches if the body does so often. -/
theorem exactly_found_iff {m : Match} :
    answerOf (repeating setup (room + 1) body index entry (.exactly count)) = .ok (some m) ↔
      ∃ reached, CallIterations setup room body index entry count m reached := by
  rw [repeating_eq roomLeft]
  constructor
  · intro found
    rcases Iterations.total (call setup room) body
        (setup.text.matchOver (min index setup.text.length) (min index setup.text.length))
        (started setup setup.graph.slots.size (min index setup.text.length) entry) count with
      ⟨last, reached, iterations⟩ | ⟨fewer, before, last, middle, iterations, stops⟩
    · have ended := guarded_of_found (exactly_of_iterations iterations)
      rw [ended] at found
      cases found
      exact ⟨reached, iterations⟩
    · cases next : call setup room body last.stop middle with
      | ok outcome missed =>
          cases outcome with
          | some m => exact absurd next (stops m missed)
          | none =>
              refine absurd found (guarded_ne_found (fun m reached ended => ?_) m)
              cases (exactly_of_missed iterations before next).symm.trans ended
      | error error failed =>
          have failed := guarded_of_failed (exactly_of_failed iterations before next)
          cases found.symm.trans failed
  · rintro ⟨reached, iterations⟩
    rw [guarded_of_found (exactly_of_iterations iterations)]
    rfl

theorem exactly_found (iterations : CallIterations setup room body index entry count last middle) :
    answerOf (repeating setup (room + 1) body index entry (.exactly count)) = .ok (some last) :=
  (exactly_found_iff roomLeft).mpr ⟨middle, iterations⟩

/-- What does not match so often ends in the same way for every greater count. -/
theorem exactly_eq_of_le {more : Nat} (notLess : count ≤ more)
    (stops : ∀ m,
      answerOf (repeating setup (room + 1) body index entry (.exactly count)) ≠ .ok (some m)) :
    repeating setup (room + 1) body index entry (.exactly more) =
      repeating setup (room + 1) body index entry (.exactly count) := by
  rcases Iterations.total (call setup room) body
      (setup.text.matchOver (min index setup.text.length) (min index setup.text.length))
      (started setup setup.graph.slots.size (min index setup.text.length) entry) count with
    ⟨last, reached, iterations⟩ | ⟨fewer, before, last, middle, iterations, ends⟩
  · exact absurd (exactly_found roomLeft iterations) (stops last)
  · have beforeMore : fewer < more := Nat.lt_of_lt_of_le before notLess
    rw [repeating_eq roomLeft, repeating_eq roomLeft]
    apply guarded_congr
    cases next : call setup room body last.stop middle with
    | ok outcome missed =>
        cases outcome with
        | some m => exact absurd next (ends m missed)
        | none =>
            exact (exactly_of_missed iterations beforeMore next).trans
              (exactly_of_missed iterations before next).symm
    | error error failed =>
        exact (exactly_of_failed iterations beforeMore next).trans
          (exactly_of_failed iterations before next).symm

/-- Where the iterations stop without an error, the body does not match. -/
theorem missed_of_noError
    (iterations : CallIterations setup room body index entry count last middle)
    (stops : ∀ m reached, call setup room body last.stop middle ≠ .ok (some m) reached)
    (noError : ∀ error,
      answerOf (repeating setup (room + 1) body index entry (.exactly (count + 1))) ≠
        .error error) :
    ∃ missed, call setup room body last.stop middle = .ok none missed := by
  cases next : call setup room body last.stop middle with
  | ok outcome missed =>
      cases outcome with
      | some m => exact absurd next (stops m missed)
      | none => exact ⟨missed, rfl⟩
  | error error failed =>
      have fails := guarded_of_failed
        (exactly_of_failed iterations (Nat.lt_succ_self count) next)
      rw [← repeating_eq roomLeft] at fails
      exact absurd fails (noError _)

/-- One more than the last iteration does not match. -/
theorem exactly_succ_ne_found
    (iterations : CallIterations setup room body index entry count last middle)
    {missed : MatchState} (next : call setup room body last.stop middle = .ok none missed)
    (m : Match) :
    answerOf (repeating setup (room + 1) body index entry (.exactly (count + 1))) ≠
      .ok (some m) := by
  rw [repeating_eq roomLeft]
  refine guarded_ne_found (fun m reached ended => ?_) m
  cases (exactly_of_missed iterations (Nat.lt_succ_self count) next).symm.trans ended

/-- A repetition up to a count ends as the greatest exact count up to it that matches. -/
theorem atMost_ends {most : Nat}
    (noError : ∀ count ≤ most, ∀ error,
      answerOf (repeating setup (room + 1) body index entry (.exactly count)) ≠ .error error) :
    ∃ count ≤ most,
      (∃ m, answerOf (repeating setup (room + 1) body index entry (.exactly count)) =
        .ok (some m)) ∧
      (count < most → ∀ m,
        answerOf (repeating setup (room + 1) body index entry (.exactly (count + 1))) ≠
          .ok (some m)) ∧
      EndsAlike (setup.graph.Lawful setup.text body)
        (repeating setup (room + 1) body index entry (.atMost most))
        (repeating setup (room + 1) body index entry (.exactly count)) := by
  rcases Iterations.total (call setup room) body
      (setup.text.matchOver (min index setup.text.length) (min index setup.text.length))
      (started setup setup.graph.slots.size (min index setup.text.length) entry) most with
    ⟨last, reached, iterations⟩ | ⟨count, fewer, last, middle, iterations, stops⟩
  · refine ⟨most, Nat.le_refl _, ⟨last, exactly_found roomLeft iterations⟩,
      fun less => absurd less (Nat.lt_irrefl most), .of_eq ?_⟩
    rw [repeating_eq roomLeft, repeating_eq roomLeft]
    apply guarded_congr
    exact (atMost_of_iterations iterations).trans (exactly_of_iterations iterations).symm
  · obtain ⟨missed, next⟩ := missed_of_noError roomLeft iterations stops (noError _ fewer)
    refine ⟨count, Nat.le_of_lt fewer, ⟨last, exactly_found roomLeft iterations⟩,
      fun _ => exactly_succ_ne_found roomLeft iterations next, ?_⟩
    rw [repeating_eq roomLeft, repeating_eq roomLeft]
    exact guarded_alike (atMost_of_missed iterations fewer next) (exactly_of_iterations iterations)
      (restores_of_missed iterations next)

/-- If the exact counts have some width from each to the next, so have the iterations. -/
theorem wide_of_exactly {most : Nat}
    (width : ∀ count < most, ∀ m next,
      answerOf (repeating setup (room + 1) body index entry (.exactly count)) = .ok (some m) →
      answerOf (repeating setup (room + 1) body index entry (.exactly (count + 1))) =
        .ok (some next) → next.stop ≠ m.stop) :
    Wide (call setup room) body
      (setup.text.matchOver (min index setup.text.length) (min index setup.text.length))
      (started setup setup.graph.slots.size (min index setup.text.length) entry) most := by
  intro count fewer last middle m reached iterations next
  exact width count fewer last (last.append m) (exactly_found roomLeft iterations)
    (exactly_found roomLeft (.more iterations next))

/-- A repetition from a count on ends as the greatest exact count that matches, or else as the
smallest one that does not. -/
theorem atLeast_ends
    (noError : ∀ count error,
      answerOf (repeating setup (room + 1) body index entry (.exactly count)) ≠ .error error)
    (width : ∀ count m next,
      answerOf (repeating setup (room + 1) body index entry (.exactly count)) = .ok (some m) →
      answerOf (repeating setup (room + 1) body index entry (.exactly (count + 1))) =
        .ok (some next) → next.stop ≠ m.stop) :
    ∃ count,
      (∃ m, answerOf (repeating setup (room + 1) body index entry (.exactly count)) =
        .ok (some m)) ∧
      (∀ m, answerOf (repeating setup (room + 1) body index entry (.exactly (count + 1))) ≠
        .ok (some m)) ∧
      ∀ least,
        (least ≤ count → EndsAlike (setup.graph.Lawful setup.text body)
          (repeating setup (room + 1) body index entry (.atLeast least))
          (repeating setup (room + 1) body index entry (.exactly count))) ∧
        (count < least → repeating setup (room + 1) body index entry (.atLeast least) =
          repeating setup (room + 1) body index entry (.exactly (count + 1))) := by
  let i := min index setup.text.length
  have inside : i ≤ setup.text.length := Nat.min_le_right ..
  have answers := call_within setup room body
  have wide (most : Nat) : Wide (call setup room) body (setup.text.matchOver i i)
      (started setup setup.graph.slots.size i entry) most :=
    wide_of_exactly roomLeft fun count _ => width count
  rcases Iterations.total (call setup room) body (setup.text.matchOver i i)
      (started setup setup.graph.slots.size i entry) (setup.text.length + 1) with
    ⟨last, reached, iterations⟩ | ⟨count, -, last, middle, iterations, stops⟩
  · -- There are not that many characters to take.
    obtain ⟨far, within⟩ := iterations.advance (wide _) answers inside
    omega
  · obtain ⟨missed, next⟩ := missed_of_noError roomLeft iterations stops (noError (count + 1))
    have counted (least : Nat) := atLeast_of_iterations least iterations (wide _)
      answers inside
    refine ⟨count, ⟨last, exactly_found roomLeft iterations⟩,
      exactly_succ_ne_found roomLeft iterations next, fun least => ⟨fun enough => ?_, fun few => ?_⟩⟩
    · have ended := (counted least).trans (matchAtLeast_of_missed next)
      rw [if_pos enough] at ended
      rw [repeating_eq roomLeft, repeating_eq roomLeft]
      exact guarded_alike ended (exactly_of_iterations iterations)
        (restores_of_missed iterations next)
    · have ended := (counted least).trans (matchAtLeast_of_missed next)
      rw [if_neg (by omega)] at ended
      rw [repeating_eq roomLeft, repeating_eq roomLeft]
      apply guarded_congr
      exact ended.trans (exactly_of_missed iterations (Nat.lt_succ_self count) next).symm

/-- The first iteration without width is the last one of a repetition from any count on. -/
theorem atLeast_of_still {m next : Match}
    (found : answerOf (repeating setup (room + 1) body index entry (.exactly count)) =
      .ok (some m))
    (foundNext : answerOf (repeating setup (room + 1) body index entry (.exactly (count + 1))) =
      .ok (some next))
    (still : next.stop = m.stop)
    (width : ∀ earlier < count, ∀ m next,
      answerOf (repeating setup (room + 1) body index entry (.exactly earlier)) = .ok (some m) →
      answerOf (repeating setup (room + 1) body index entry (.exactly (earlier + 1))) =
        .ok (some next) → next.stop ≠ m.stop) (least : Nat) :
    repeating setup (room + 1) body index entry (.atLeast least) =
      repeating setup (room + 1) body index entry (.exactly (count + 1)) := by
  have answers := call_within setup room body
  obtain ⟨reached, iterations⟩ := (exactly_found_iff roomLeft).mp foundNext
  have all := iterations
  cases iterations with
  | @more _ last part middle _ before called =>
      cases found.symm.trans (exactly_found roomLeft before)
      have counted := atLeast_of_iterations least before
        (wide_of_exactly roomLeft width) answers (Nat.min_le_right ..)
      rw [repeating_eq roomLeft, repeating_eq roomLeft]
      apply guarded_congr
      exact (counted.trans (matchAtLeast_of_zeroWidth called still)).trans
        (exactly_of_iterations all).symm

end Counts

end Matching

/-! ## Matches from the outside -/

/-- What a match may leave behind does not depend on its trace. -/
theorem MatchRun.EndsAs.isolates {run other : MatchRun} (ends : run.EndsAs other) {input : Input}
    {context : Context} (isolates : other.Isolates input context) :
    run.Isolates input context := by
  obtain ⟨result, left, leftContext, trace⟩ := run
  obtain ⟨otherResult, otherLeft, otherContext, otherTrace⟩ := other
  obtain ⟨sameResult, sameInput, sameContext⟩ := ends
  cases sameResult
  cases sameInput
  cases sameContext
  exact ⟨isolates.text, isolates.depth, isolates.config, isolates.bindings, isolates.entries,
    isolates.journal, isolates.addedBindings, isolates.addedChanges, isolates.settled⟩

namespace Graph

variable {graph : Graph} {body : PatternId} {kind : Kind}

/-- All that the pattern comes to lies in the graph. -/
def Encloses (graph : Graph) (pattern : PatternId) : Prop :=
  ∀ origin, graph.Reaches pattern origin → origin < graph.slots.size

theorem Encloses.of_calls {pattern : PatternId} (inside : pattern < graph.slots.size)
    (closed : ∀ origin next, graph.Calls origin next → next < graph.slots.size) :
    graph.Encloses pattern := by
  intro origin reaches
  cases reaches with
  | refl => exact inside
  | tail _ last => exact closed _ origin last

/-- A graph to which nodes were added has the older patterns as they were. -/
theorem Grown.sameBelow {later : Graph} (grown : graph.Grown later)
    (encloses : graph.Encloses body) : graph.SameBelow later body := by
  intro origin reaches
  have sameNode : later.node origin = graph.node origin := by
    unfold Graph.node
    rw [grown.nodes origin (encloses origin reaches)]
  refine ⟨sameNode, fun name cell reference => ?_⟩
  unfold target?
  rw [grown.cell cell]
  cases bound : graph.cell cell with
  | unbound | strong => rfl
  | weak rule =>
      have leads : graph.Leads origin rule := Or.inr ⟨name, cell, reference, by rw [bound]; rfl⟩
      have inside := encloses rule (reaches.tail (Or.inl leads))
      dsimp only
      rw [isLive_congr (grown.nodes rule inside)]

/-- A match of a new node of this kind, without a name and without trace options. -/
def matchOf (graph : Graph) (kind : Kind) (input : Input) (index : Nat) (context : Context) :
    MatchRun :=
  let made := Pattern.ofKind kind graph
  made.2.matchIn made.1 input index context

/-- A match of a new node that repeats a pattern is its call, in the graph of the pattern. -/
theorem matchOf_endsAs (encloses : graph.Encloses body) (repeats : Matching.Repeats body kind)
    (input : Input) (index : Nat) (context : Context) :
    let ended := Matching.callKind (context.setup graph input.text)
      (context.config.limit - context.depth) kind index (context.state input)
    (graph.matchOf kind input index context).EndsAs
      (.ofState (Matching.answerOf ended) input context (Matching.stateOf ended)) := by
  intro ended
  have same : graph.SameBelow (graph.add { kind }).2 body := (Grown.add graph _).sameBelow encloses
  have ends := Matching.callKind_sameDeeper (context.setup graph input.text) repeats same
    (context.config.limit - context.depth) context.depth index (context.state input)
    (context.state input) ⟨rfl, rfl, rfl, rfl, rfl⟩
  unfold matchOf
  rw [matchIn_eq]
  exact (MatchRun.endsAs_of_endsDeeper input context ends).symm

/-- With lawful callbacks such a match takes back all that did not lead to it. -/
theorem matchOf_isolates (encloses : graph.Encloses body) (repeats : Matching.Repeats body kind)
    {input : Input} (lawful : graph.Lawful input.text body) (index : Nat) (context : Context) :
    (graph.matchOf kind input index context).Isolates input context := by
  refine (matchOf_endsAs encloses repeats input index context).isolates ?_
  cases free : context.config.limit - context.depth with
  | zero => exact MatchRun.isolates_of_refused (Nat.sub_eq_zero_iff_le.mp free)
  | succ room =>
      obtain ⟨left, settled, isolated⟩ := Matching.callKind_isolated
        (context.setup graph input.text) repeats lawful index (context.state input) free
      rw [settled]
      exact MatchRun.isolates_of_isolated isolated

section Repetition

variable (graph : Graph) (body : PatternId) (input : Input) (index : Nat) (context : Context)

/-- A match of a new node that repeats the body. -/
def repeated (count : RepeatCount) : MatchRun :=
  graph.matchOf (.repetition body count) input index context

/-- Repeated exactly so often the body matches, and so it does less often. -/
def MatchesTimes (count : Nat) : Prop :=
  ∀ fewer ≤ count, ∃ m,
    (graph.repeated body input index context (.exactly fewer)).result = .ok (some m)

/-- Repeated exactly so often the match is an error. -/
def FailsTimes (count : Nat) : Prop :=
  ∃ error, (graph.repeated body input index context (.exactly count)).result = .error error

instance (count : Nat) : Decidable (graph.MatchesTimes body input index context count) :=
  decidable_of_iff
    (∀ fewer ≤ count,
      (graph.repeated body input index context (.exactly fewer)).result.toOption.join.isSome) <| by
    refine forall₂_congr fun fewer _ => ?_
    cases (graph.repeated body input index context (.exactly fewer)).result with
    | ok outcome => cases outcome <;> simp [Except.toOption]
    | error error => simp [Except.toOption]

instance (count : Nat) : Decidable (graph.FailsTimes body input index context count) :=
  decidable_of_iff
    ((graph.repeated body input index context (.exactly count)).result.toOption.isNone) <| by
    unfold FailsTimes
    cases (graph.repeated body input index context (.exactly count)).result <;>
      simp [Except.toOption]

/-- The iteration after the first `count` has no width. -/
def StandsAfter (count : Nat) : Prop :=
  ∃ m next, (graph.repeated body input index context (.exactly count)).result = .ok (some m) ∧
    (graph.repeated body input index context (.exactly (count + 1))).result = .ok (some next) ∧
      next.stop = m.stop

instance (count : Nat) : Decidable (graph.StandsAfter body input index context count) :=
  let found (count : Nat) : Option Match :=
    (graph.repeated body input index context (.exactly count)).result.toOption.join
  decidable_of_iff
    ((found count).isSome ∧ (found (count + 1)).map Match.stop = (found count).map Match.stop) <| by
    unfold StandsAfter found
    rcases (graph.repeated body input index context (.exactly count)).result with _ | _ | m <;>
      rcases (graph.repeated body input index context (.exactly (count + 1))).result with
        _ | _ | next <;>
      simp [Except.toOption]

end Repetition

section Laws

variable {input : Input} {index : Nat} {context : Context} {room : Nat}
  (encloses : graph.Encloses body) (free : context.config.limit - context.depth = room)

include encloses free

/-- Repeating a body is a call in the graph of the body. -/
theorem repeated_endsAs (count : RepeatCount) :
    let ended := Matching.repeating (context.setup graph input.text) room body index
      (context.state input) count
    (graph.repeated body input index context count).EndsAs
      (.ofState (Matching.answerOf ended) input context (Matching.stateOf ended)) := by
  rw [← free]
  exact matchOf_endsAs encloses (.repetition count) input index context

theorem repeated_result (count : RepeatCount) :
    (graph.repeated body input index context count).result =
      Matching.answerOf (Matching.repeating (context.setup graph input.text) room body index
        (context.state input) count) :=
  (repeated_endsAs encloses free count).result

theorem repeated_congr {count other : RepeatCount}
    (same : Matching.repeating (context.setup graph input.text) room body index
      (context.state input) count =
        Matching.repeating (context.setup graph input.text) room body index (context.state input)
          other) :
    (graph.repeated body input index context count).EndsAs
      (graph.repeated body input index context other) := by
  refine (repeated_endsAs encloses free count).trans ?_
  rw [same]
  exact (repeated_endsAs encloses free other).symm

theorem repeated_alike {count other : RepeatCount}
    (ends : Matching.EndsAlike (graph.Lawful input.text body)
      (Matching.repeating (context.setup graph input.text) room body index (context.state input)
        count)
      (Matching.repeating (context.setup graph input.text) room body index (context.state input)
        other)) :
    (graph.repeated body input index context count).result =
        (graph.repeated body input index context other).result ∧
      (graph.Lawful input.text body →
        (graph.repeated body input index context count).EndsLike
          (graph.repeated body input index context other)) := by
  refine ⟨?_, fun lawful => ?_⟩
  · rw [repeated_result encloses free, repeated_result encloses free, ends.answer]
  · have left := MatchRun.endsLike_of_restores input context ends.answer (ends.state lawful)
    exact (repeated_endsAs encloses free count).endsLike.trans
      (left.trans (repeated_endsAs encloses free other).symm.endsLike)

end Laws

section Laws

variable {input : Input} {index : Nat} {context : Context}

/-- A repetition that is no error has had room for a call. -/
theorem room_of_not_failsTimes (encloses : graph.Encloses body) {count : Nat}
    (noError : ¬ graph.FailsTimes body input index context count) :
    ∃ room, context.config.limit - context.depth = room + 1 := by
  cases free : context.config.limit - context.depth with
  | zero => exact absurd ⟨_, repeated_result encloses free (.exactly count)⟩ noError
  | succ room => exact ⟨room, rfl⟩

/-- Counts above one that does not match end as it does. -/
theorem repeated_exactly_of_le (encloses : graph.Encloses body) {count more : Nat}
    (notLess : count ≤ more)
    (stops : ∀ m,
      (graph.repeated body input index context (.exactly count)).result ≠ .ok (some m)) :
    (graph.repeated body input index context (.exactly more)).EndsAs
      (graph.repeated body input index context (.exactly count)) := by
  cases free : context.config.limit - context.depth with
  | zero => exact repeated_congr encloses free rfl
  | succ room =>
      refine repeated_congr encloses free (Matching.exactly_eq_of_le free notLess fun m => ?_)
      rw [← repeated_result encloses free]
      exact stops m

/-- What matches so often matches less often, too. -/
theorem matchesTimes_of_found (encloses : graph.Encloses body) {count : Nat} {m : Match}
    (found : (graph.repeated body input index context (.exactly count)).result = .ok (some m)) :
    graph.MatchesTimes body input index context count := by
  intro fewer notMore
  by_contra stops
  rw [not_exists] at stops
  exact stops m ((repeated_exactly_of_le encloses notMore stops).result.symm.trans found)

theorem MatchesTimes.lt {count more : Nat}
    (times : graph.MatchesTimes body input index context more)
    (stops : ¬ graph.MatchesTimes body input index context count) : more < count := by
  by_contra notLess
  exact stops fun fewer notMore => times fewer (by omega)

theorem StandsAfter.lt (encloses : graph.Encloses body) {count more : Nat}
    (stands : graph.StandsAfter body input index context more)
    (stops : ¬ graph.MatchesTimes body input index context count) : more < count := by
  obtain ⟨m, _, found, _⟩ := stands
  exact (matchesTimes_of_found encloses found).lt stops

/-- Where the body has stopped without an error, no greater count is one. -/
theorem FailsTimes.lt (encloses : graph.Encloses body) {count more : Nat}
    (fails : graph.FailsTimes body input index context more)
    (stops : ¬ graph.MatchesTimes body input index context count)
    (noError : ¬ graph.FailsTimes body input index context count) : more < count := by
  by_contra notLess
  unfold MatchesTimes at stops
  push Not at stops
  obtain ⟨fewer, notMore, stops⟩ := stops
  have ends := (repeated_exactly_of_le encloses notMore stops).result
  have endsMore := (repeated_exactly_of_le encloses (by omega : fewer ≤ more) stops).result
  obtain ⟨error, failed⟩ := fails
  exact noError ⟨error, ends.trans (endsMore.symm.trans failed)⟩

/-- The greatest count is the one after which the body no longer matches. -/
theorem isGreatest_matchesTimes (among : Nat → Prop) {count : Nat}
    (times : graph.MatchesTimes body input index context count)
    (allowed : among count)
    (stops : ∀ more, among more → count < more → ∀ m,
      (graph.repeated body input index context (.exactly (count + 1))).result ≠ .ok (some m)) :
    IsGreatest {count | among count ∧ graph.MatchesTimes body input index context count} count := by
  refine ⟨⟨allowed, times⟩, fun more ⟨allowedMore, timesMore⟩ => ?_⟩
  by_contra beyond
  have less : count < more := Nat.lt_of_not_le beyond
  obtain ⟨m, found⟩ := timesMore (count + 1) less
  exact stops more allowedMore less m found

/-- Up to a count the body matches as often as it does exactly, at the most. -/
theorem repeated_atMost (encloses : graph.Encloses body) {most : Nat}
    (noError : ∀ count ≤ most, ¬ graph.FailsTimes body input index context count) :
    ∃ count,
      IsGreatest {count | count ≤ most ∧ graph.MatchesTimes body input index context count} count ∧
      (graph.repeated body input index context (.atMost most)).result =
        (graph.repeated body input index context (.exactly count)).result ∧
      (graph.Lawful input.text body →
        (graph.repeated body input index context (.atMost most)).EndsLike
          (graph.repeated body input index context (.exactly count))) := by
  obtain ⟨room, free⟩ := room_of_not_failsTimes encloses (noError 0 (Nat.zero_le most))
  obtain ⟨count, notMore, ⟨m, found⟩, stops, ends⟩ :=
    @Matching.atMost_ends (context.setup graph input.text) room body index (context.state input)
      free most fun count notMore error failed =>
        noError count notMore ⟨error, (repeated_result encloses free _).trans failed⟩
  refine ⟨count,
    isGreatest_matchesTimes (· ≤ most)
      (matchesTimes_of_found encloses ((repeated_result encloses free _).trans found)) notMore ?_,
    repeated_alike encloses free ends⟩
  intro more notAbove less m
  rw [repeated_result encloses free]
  exact stops (Nat.lt_of_lt_of_le less notAbove) m

/-- From a count on the body matches as often as it does at all. -/
theorem repeated_atLeast (encloses : graph.Encloses body)
    (noError : ∀ count, ¬ graph.FailsTimes body input index context count)
    (width : ∀ count, ¬ graph.StandsAfter body input index context count) :
    ∃ count, IsGreatest {count | graph.MatchesTimes body input index context count} count ∧
      ∀ least,
        (least ≤ count →
          (graph.repeated body input index context (.atLeast least)).result =
            (graph.repeated body input index context (.exactly count)).result ∧
          (graph.Lawful input.text body →
            (graph.repeated body input index context (.atLeast least)).EndsLike
              (graph.repeated body input index context (.exactly count)))) ∧
        (count < least →
          (graph.repeated body input index context (.atLeast least)).result = .ok none ∧
          (graph.Lawful input.text body →
            (graph.repeated body input index context (.atLeast least)).Isolates input context)) := by
  obtain ⟨room, free⟩ := room_of_not_failsTimes encloses (noError 0)
  obtain ⟨count, ⟨m, found⟩, stops, ends⟩ :=
    @Matching.atLeast_ends (context.setup graph input.text) room body index (context.state input)
      free
      (fun count error failed =>
        noError count ⟨error, (repeated_result encloses free _).trans failed⟩)
      fun count m next found foundNext still =>
        width count ⟨m, next, (repeated_result encloses free _).trans found,
          (repeated_result encloses free _).trans foundNext, still⟩
  have stops : ∀ m,
      (graph.repeated body input index context (.exactly (count + 1))).result ≠ .ok (some m) := by
    intro m
    rw [repeated_result encloses free]
    exact stops m
  refine ⟨count, ?_, fun least => ⟨fun enough => repeated_alike encloses free ((ends least).1 enough),
    fun few => ⟨?_, fun lawful => matchOf_isolates encloses (.repetition _) lawful index context⟩⟩⟩
  · have greatest := isGreatest_matchesTimes (fun _ => True)
      (matchesTimes_of_found encloses ((repeated_result encloses free _).trans found)) trivial
      fun _ _ _ => stops
    simpa only [true_and] using greatest
  · have same := (repeated_congr encloses free ((ends least).2 few)).result
    rw [same]
    cases ended : (graph.repeated body input index context (.exactly (count + 1))).result with
    | error error => exact absurd ⟨error, ended⟩ (noError (count + 1))
    | ok outcome =>
        cases outcome with
        | none => rfl
        | some m => exact absurd ended (stops m)

/-- The first iteration without width ends a repetition from any count on. -/
theorem repeated_atLeast_still (encloses : graph.Encloses body) {count : Nat}
    (stands : graph.StandsAfter body input index context count)
    (width : ∀ earlier < count, ¬ graph.StandsAfter body input index context earlier)
    (least : Nat) :
    (graph.repeated body input index context (.atLeast least)).EndsAs
      (graph.repeated body input index context (.exactly (count + 1))) := by
  obtain ⟨m, next, found, foundNext, still⟩ := stands
  have noError : ¬ graph.FailsTimes body input index context count := by
    rintro ⟨error, failed⟩
    cases found.symm.trans failed
  obtain ⟨room, free⟩ := room_of_not_failsTimes encloses noError
  rw [repeated_result encloses free] at found foundNext
  apply repeated_congr encloses free
  refine Matching.atLeast_of_still free found foundNext still ?_ least
  intro earlier before m next found foundNext still
  exact width earlier before ⟨m, next, (repeated_result encloses free _).trans found,
    (repeated_result encloses free _).trans foundNext, still⟩

end Laws

/-- The laws of repetitions. Exactly so often is as many copies one after the other. Up to a count is
the greatest exact count that matches, unless an error comes up on the way. From a count on is the
greatest exact count that matches, or no match if that is too small, unless an error or an iteration
without width comes up; the first iteration without width is the last one. Where one more call has
been made than the exact count makes, the state is the same if the callbacks are lawful. -/
theorem matchOf_repetition (encloses : graph.Encloses body) (input : Input) (index : Nat)
    (context : Context) :
    let ending := graph.repeated body input index context
    let times := graph.MatchesTimes body input index context
    let fails := graph.FailsTimes body input index context
    let stands := graph.StandsAfter body input index context
    (∀ count, (ending (.exactly count)).EndsAs
      (graph.matchOf (.sequence (List.replicate count body)) input index context)) ∧
    (∀ most, (∀ count ≤ most, ¬ fails count) →
      ∃ count, IsGreatest {count | count ≤ most ∧ times count} count ∧
        (ending (.atMost most)).result = (ending (.exactly count)).result ∧
        (graph.Lawful input.text body →
          (ending (.atMost most)).EndsLike (ending (.exactly count)))) ∧
    ((∀ count, ¬ fails count) → (∀ count, ¬ stands count) →
      ∃ count, IsGreatest {count | times count} count ∧ ∀ least,
        (least ≤ count →
          (ending (.atLeast least)).result = (ending (.exactly count)).result ∧
          (graph.Lawful input.text body →
            (ending (.atLeast least)).EndsLike (ending (.exactly count)))) ∧
        (count < least →
          (ending (.atLeast least)).result = .ok none ∧
          (graph.Lawful input.text body → (ending (.atLeast least)).Isolates input context))) ∧
    ∀ count, times (count + 1) → stands count → (∀ earlier < count, ¬ stands earlier) →
      ∀ least, (ending (.atLeast least)).EndsAs (ending (.exactly (count + 1))) := by
  intro ending times fails stands
  refine ⟨fun count => ?_, fun most => repeated_atMost encloses, repeated_atLeast encloses,
    fun count _ => repeated_atLeast_still encloses⟩
  have counted := matchOf_endsAs encloses (.repetition (.exactly count)) input index context
  have copies := matchOf_endsAs encloses (.copies count) input index context
  rw [Matching.callKind_copies] at counted
  exact counted.trans copies.symm

/-- A letter that is put on a stack, and the same or nothing. -/
def stackedLetters : Graph where
  slots := #[
    some { kind := .literal ['a'] },
    some { kind := .capture 0 },
    some { kind := .stackCapture "letters" 1 },
    some { kind := .repetition 2 (.atMost 1) }]

/-- The letter can be read twice, and from three times on not at all. The same or nothing has no
width the third time. -/
theorem matchOf_repetition_stackedLetters :
    let input := Input.ofString "aab"
    let ending := stackedLetters.repeated 2 input 0 {}
    let optional := stackedLetters.repeated 3 input 0 {}
    stackedLetters.Encloses 2 ∧ stackedLetters.Encloses 3 ∧
      (∀ count, ¬ stackedLetters.FailsTimes 2 input 0 {} count) ∧
      (∀ count, ¬ stackedLetters.StandsAfter 2 input 0 {} count) ∧
      (∀ most, 2 ≤ most → (ending (.atMost most)).EndsLike (ending (.exactly 2))) ∧
      (∀ least ≤ 2, (ending (.atLeast least)).EndsLike (ending (.exactly 2))) ∧
      (∀ least, 2 < least → (ending (.atLeast least)).result = .ok none ∧
        (ending (.atLeast least)).Isolates input {}) ∧
      (ending (.exactly 2)).context.stackTable.entries "letters" = [.text "a", .text "a"] ∧
      stackedLetters.MatchesTimes 3 input 0 {} 3 ∧ stackedLetters.StandsAfter 3 input 0 {} 2 ∧
      (∀ earlier < 2, ¬ stackedLetters.StandsAfter 3 input 0 {} earlier) ∧
      ∀ least, (optional (.atLeast least)).EndsAs (optional (.exactly 3)) := by
  intro input ending optional
  have closed : ∀ origin next, stackedLetters.Calls origin next → next < 4 := by
    intro origin next step
    match origin, step with
    | 1, .inl (.inl child) | 2, .inl (.inl child) | 3, .inl (.inl child) =>
        rw [List.mem_singleton.mp child]
        decide
  have encloses : stackedLetters.Encloses 2 := .of_calls (by decide) closed
  have enclosesOptional : stackedLetters.Encloses 3 := .of_calls (by decide) closed
  have lawful : stackedLetters.Lawful input.text 2 := by
    intro origin callback _ found
    match origin with
    | 0 | 1 | 2 | 3 => cases found
    | origin + 4 => cases found
  have twice : stackedLetters.MatchesTimes 2 input 0 {} 2 := by decide +kernel
  have stops : ¬ stackedLetters.MatchesTimes 2 input 0 {} 3 := by decide +kernel
  have noError : ∀ count, ¬ stackedLetters.FailsTimes 2 input 0 {} count := by
    have few : ∀ count ≤ 3, ¬ stackedLetters.FailsTimes 2 input 0 {} count := by decide +kernel
    intro count fails
    exact few count (fails.lt encloses stops (few 3 (by decide))).le fails
  have width : ∀ count, ¬ stackedLetters.StandsAfter 2 input 0 {} count := by
    have few : ∀ count < 3, ¬ stackedLetters.StandsAfter 2 input 0 {} count := by decide +kernel
    exact fun count stands => few count (stands.lt encloses stops) stands
  have thrice : stackedLetters.MatchesTimes 3 input 0 {} 3 := by decide +kernel
  have stands : stackedLetters.StandsAfter 3 input 0 {} 2 := by decide +kernel
  have first : ∀ earlier < 2, ¬ stackedLetters.StandsAfter 3 input 0 {} earlier := by
    decide +kernel
  obtain ⟨-, upTo, fromOn, -⟩ := matchOf_repetition encloses input 0 {}
  obtain ⟨-, -, -, still⟩ := matchOf_repetition enclosesOptional input 0 {}
  obtain ⟨greatestCount, greatest, ends⟩ := fromOn noError width
  obtain rfl : greatestCount = 2 :=
    Nat.le_antisymm (Nat.le_of_lt_succ (greatest.1.lt stops)) (greatest.2 twice)
  refine ⟨encloses, enclosesOptional, noError, width, fun most enough => ?_,
    fun least enough => ((ends least).1 enough).2 lawful,
    fun least few => ⟨((ends least).2 few).1, ((ends least).2 few).2 lawful⟩, by decide +kernel,
    thrice, stands, first, still 2 thrice stands first⟩
  obtain ⟨count, greatest, -, alike⟩ := upTo most fun count _ => noError count
  obtain rfl : count = 2 :=
    Nat.le_antisymm (Nat.le_of_lt_succ (greatest.1.2.lt stops)) (greatest.2 ⟨enough, twice⟩)
  exact alike lawful

/-- A callback that leaves an entry behind for good although it rejects. -/
def committing : Graph where
  slots := #[
    some { kind := .function (Script.callback {
      steps := [.push "s" (.text "x"), .commit]
      verdict := .reject }) }]

/-- The call that misses leaves its traces in the state if the callbacks are not lawful. -/
theorem repetition_of_committing :
    let ending := committing.repeated 0 (.ofString "") 0 {}
    committing.Encloses 0 ∧
      (∀ count ≤ 1, ¬ committing.FailsTimes 0 (.ofString "") 0 {} count) ∧
      IsGreatest {count | count ≤ 1 ∧ committing.MatchesTimes 0 (.ofString "") 0 {} count} 0 ∧
      (ending (.exactly 0)).context.stackTable.entries "s" = [] ∧
      (ending (.atMost 1)).context.stackTable.entries "s" = [.text "x"] := by
  have encloses : committing.Encloses 0 := by
    refine .of_calls (by decide) fun origin next step => ?_
    match origin, step with
    | 0, .inl (.inl child) => cases child
    | 0, .inr ⟨callback, text, i, found, runs⟩ =>
        cases found
        obtain ⟨view, ⟨⟩⟩ := runs
  refine ⟨encloses, by decide +kernel, ⟨⟨by decide, by decide +kernel⟩, ?_⟩, by decide +kernel,
    by decide +kernel⟩
  rintro count ⟨notMore, times⟩
  by_contra more
  obtain rfl : count = 1 := by omega
  exact absurd times (by decide +kernel)

end Graph

end PegEngine
