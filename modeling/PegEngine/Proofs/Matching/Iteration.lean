import PegEngine.Proofs.Graph.Copies
import PegEngine.Proofs.Matching.Depth
import PegEngine.Proofs.Matching.Isolation
import PegEngine.Proofs.Matching.Spans

/-!
Contract: repetitions come by the same iterations, whatever they count.

Each iteration calls the body where the last match ended and in the state that it left. Repetitions
differ in when they stop: an exact count where it is reached, a greatest one there or where the body
does not match, a least one where the body does not match or takes no character.

Owns:
- `Matching.Iterations`, the body having matched a number of times in a row, and what each kind of
  repetition comes to by them;
- `Matching.Wide`, iterations that each take some of the text;
- `Matching.callKind`, the call of a new node, in terms of the patterns below it only.
-/

namespace PegEngine

namespace Matching

/-! ## Iterations -/

/-- From `first` on and from the state `begun` the body has matched `count` times in a row, each
time from where the match so far ended. -/
inductive Iterations (call : Caller) (body : PatternId) (first : Match) (begun : MatchState) :
    Nat → Match → MatchState → Prop where
  | start : Iterations call body first begun 0 first begun
  | more {count : Nat} {last m : Match} {middle reached : MatchState}
      (before : Iterations call body first begun count last middle)
      (next : call body last.stop middle = .ok (some m) reached) :
      Iterations call body first begun (count + 1) (last.append m) reached

section Loops

variable {call : Caller} {body : PatternId} {text : Text} {i : Nat} {first last : Match}
  {begun reached : MatchState} {count most : Nat}

/-- Either the body matches as often, or there is a last time after which it does not. -/
theorem Iterations.total (call : Caller) (body : PatternId) (first : Match) (begun : MatchState)
    (count : Nat) :
    (∃ last reached, Iterations call body first begun count last reached) ∨
      ∃ fewer < count, ∃ last middle, Iterations call body first begun fewer last middle ∧
        ∀ m reached, call body last.stop middle ≠ .ok (some m) reached := by
  induction count with
  | zero => exact Or.inl ⟨first, begun, .start⟩
  | succ count inductionHypothesis =>
      rcases inductionHypothesis with ⟨last, middle, iterations⟩ | ⟨fewer, before, stops⟩
      · by_cases goesOn : ∃ m reached, call body last.stop middle = .ok (some m) reached
        · obtain ⟨m, reached, next⟩ := goesOn
          exact Or.inl ⟨_, _, .more iterations next⟩
        · refine Or.inr ⟨count, Nat.lt_succ_self _, last, middle, iterations, ?_⟩
          exact fun m reached next => goesOn ⟨m, reached, next⟩
      · exact Or.inr ⟨fewer, by omega, stops⟩

theorem matchUpTo_of_iterations (iterations : Iterations call body first begun count last reached)
    (enough : count ≤ most) :
    matchUpTo call body most 0 first begun =
      matchUpTo call body (most - count) count last reached := by
  induction iterations with
  | start => rfl
  | @more count last m middle reached before next inductionHypothesis =>
      obtain ⟨left, missing⟩ : ∃ left, most - count = left + 1 := ⟨most - count - 1, by omega⟩
      have fewer : most - (count + 1) = left := by omega
      rw [inductionHypothesis (by omega), missing, fewer]
      simp only [matchUpTo, bind_apply, next]

/-- Where the body matches as often as it is to, that is the match. -/
theorem exactly_of_iterations
    (iterations : Iterations call body (text.matchOver i i) begun count last reached) :
    matchRepetition text call i body (.exactly count) begun = .ok (some last) reached := by
  have counted := matchUpTo_of_iterations iterations (Nat.le_refl count)
  rw [Nat.sub_self] at counted
  simp only [matchRepetition, bind_apply, counted, matchUpTo]
  simp [pure, EStateM.pure]

theorem atMost_of_iterations
    (iterations : Iterations call body (text.matchOver i i) begun count last reached) :
    matchRepetition text call i body (.atMost count) begun = .ok (some last) reached := by
  have counted := matchUpTo_of_iterations iterations (Nat.le_refl count)
  rw [Nat.sub_self] at counted
  simp only [matchRepetition, bind_apply, counted, matchUpTo]
  rfl

/-- A loop that may go on calls the body once more. -/
theorem matchUpTo_succ_of_iterations
    (iterations : Iterations call body first begun count last reached) (fewer : count < most) :
    matchUpTo call body most 0 first begun =
      (call body last.stop >>= fun outcome =>
        match outcome with
        | none => pure (count, last)
        | some m => matchUpTo call body (most - count - 1) (count + 1) (last.append m)) reached := by
  obtain ⟨left, missing⟩ : ∃ left, most - count = left + 1 := ⟨most - count - 1, by omega⟩
  rw [matchUpTo_of_iterations iterations (by omega), missing]
  rfl

/-- Where the body no longer matches, exact counts above have no match. -/
theorem exactly_of_missed
    (iterations : Iterations call body (text.matchOver i i) begun count last reached)
    (fewer : count < most) {missed : MatchState}
    (next : call body last.stop reached = .ok none missed) :
    matchRepetition text call i body (.exactly most) begun = .ok none missed := by
  simp only [matchRepetition, bind_apply, matchUpTo_succ_of_iterations iterations fewer, next]
  simp [pure, EStateM.pure, Nat.ne_of_lt fewer]

theorem atMost_of_missed
    (iterations : Iterations call body (text.matchOver i i) begun count last reached)
    (fewer : count < most) {missed : MatchState}
    (next : call body last.stop reached = .ok none missed) :
    matchRepetition text call i body (.atMost most) begun = .ok (some last) missed := by
  simp only [matchRepetition, bind_apply, matchUpTo_succ_of_iterations iterations fewer, next]
  rfl

theorem exactly_of_failed
    (iterations : Iterations call body (text.matchOver i i) begun count last reached)
    (fewer : count < most) {error : MatchError} {failed : MatchState}
    (next : call body last.stop reached = .error error failed) :
    matchRepetition text call i body (.exactly most) begun = .error error failed := by
  simp only [matchRepetition, bind_apply, matchUpTo_succ_of_iterations iterations fewer, next]

/-- A loop that has to go on to its end is as many copies one after the other. -/
theorem matchUpTo_eq_copies (call : Caller) (body : PatternId) (count done : Nat) (soFar : Match) :
    (do
      let counted ← matchUpTo call body count done soFar
      pure (if counted.1 = done + count then some counted.2 else none)) =
        matchSequence call (List.replicate count body) soFar := by
  induction count generalizing done soFar with
  | zero => simp [matchUpTo, matchSequence]
  | succ count inductionHypothesis =>
      simp only [matchUpTo, bind_assoc, List.replicate_succ, matchSequence]
      congr 1
      funext outcome
      cases outcome with
      | none => simp
      | some m =>
          have shifted : done + (count + 1) = done + 1 + count := by omega
          dsimp only
          rw [← inductionHypothesis (done + 1) (soFar.append m), shifted]

/-- Repeating exactly so often is matching as many copies one after the other. -/
theorem matchRepetition_exactly (text : Text) (call : Caller) (i : Nat) (body : PatternId)
    (count : Nat) :
    matchRepetition text call i body (.exactly count) =
      matchSequence call (List.replicate count body) (text.matchOver i i) := by
  have copies := matchUpTo_eq_copies call body count 0 (text.matchOver i i)
  rw [Nat.zero_add] at copies
  exact copies

/-! ## Iterations with some width -/

/-- None of the first `count` iterations is without width. -/
def Wide (call : Caller) (body : PatternId) (first : Match) (begun : MatchState) (count : Nat) :
    Prop :=
  ∀ earlier < count, ∀ last middle m reached,
    Iterations call body first begun earlier last middle →
      call body last.stop middle = .ok (some m) reached → m.stop ≠ last.stop

theorem Wide.of_le (wide : Wide call body first begun most) (fewer : count ≤ most) :
    Wide call body first begun count :=
  fun earlier before => wide earlier (by omega)

/-- An iteration that does not stand still takes some of the text, whatever functions from outside
have made of its match. -/
theorem further_of_moved {m : Match} {stopped : MatchState}
    (answers : CallsAnswer text (fun i m => m.Within text i) call body)
    (inside : last.stop ≤ text.length) (next : call body last.stop reached = .ok (some m) stopped)
    (moved : m.stop ≠ last.stop) : last.stop < m.stop ∧ m.stop ≤ text.length := by
  have within : m.Within text last.stop := answers.at inside reached (some m) stopped next m rfl
  have notBack := within.le_stop
  exact ⟨by omega, within.stop⟩

/-- Each iteration with some width takes one of the characters that are left. -/
theorem Iterations.advance (iterations : Iterations call body first begun count last reached)
    (wide : Wide call body first begun count)
    (answers : CallsAnswer text (fun i m => m.Within text i) call body)
    (inside : first.stop ≤ text.length) :
    first.stop + count ≤ last.stop ∧ last.stop ≤ text.length := by
  induction iterations with
  | start => exact ⟨Nat.le_refl _, inside⟩
  | @more count last m middle reached before next inductionHypothesis =>
      obtain ⟨far, within⟩ := inductionHypothesis (wide.of_le (Nat.le_succ count))
      have moved : m.stop ≠ last.stop :=
        wide count (Nat.lt_succ_self count) last middle m reached before next
      obtain ⟨further, part⟩ := further_of_moved answers within next moved
      refine ⟨?_, part⟩
      change first.stop + (count + 1) ≤ m.stop
      omega

/-- An iteration with some width leaves the repetition with one character less. -/
theorem matchAtLeast_of_moved {minimum left : Nat} {m : Match} {stopped : MatchState}
    (next : call body last.stop reached = .ok (some m) stopped) (moved : m.stop ≠ last.stop) :
    matchAtLeast call body minimum (left + 1) count last reached =
      matchAtLeast call body minimum left (count + 1) (last.append m) stopped := by
  rw [matchAtLeast]
  simp only [bind_apply, next, if_neg moved]

theorem matchAtLeast_of_iterations {minimum left : Nat}
    (iterations : Iterations call body first begun count last reached)
    (wide : Wide call body first begun count) (enough : count ≤ left) :
    matchAtLeast call body minimum left 0 first begun =
      matchAtLeast call body minimum (left - count) count last reached := by
  induction iterations with
  | start => rfl
  | @more count last m middle reached before next inductionHypothesis =>
      have moved : m.stop ≠ last.stop :=
        wide count (Nat.lt_succ_self count) last middle m reached before next
      obtain ⟨fewer, missing⟩ : ∃ fewer, left - count = fewer + 1 := ⟨left - count - 1, by omega⟩
      have same : left - (count + 1) = fewer := by omega
      rw [inductionHypothesis (wide.of_le (Nat.le_succ count)) (by omega), missing, same]
      exact matchAtLeast_of_moved next moved

/-- The characters that are left are enough for iterations with some width. -/
theorem atLeast_of_iterations (minimum : Nat)
    (iterations : Iterations call body (text.matchOver i i) begun count last reached)
    (wide : Wide call body (text.matchOver i i) begun count)
    (answers : CallsAnswer text (fun i m => m.Within text i) call body)
    (inside : i ≤ text.length) :
    matchRepetition text call i body (.atLeast minimum) begun =
      matchAtLeast call body minimum (text.length - i - count) count last reached := by
  obtain ⟨far, within⟩ := iterations.advance wide answers inside
  have enough : count ≤ text.length - i := by
    change i + count ≤ last.stop at far
    omega
  exact matchAtLeast_of_iterations iterations wide enough

/-- Where the body no longer matches, there is a match if it has matched often enough. -/
theorem matchAtLeast_of_missed {minimum left : Nat} {missed : MatchState}
    (next : call body last.stop reached = .ok none missed) :
    matchAtLeast call body minimum left count last reached =
      .ok (if minimum ≤ count then some last else none) missed := by
  rw [matchAtLeast]
  simp only [bind_apply, next]
  rfl

/-- An error of the body ends the repetition. -/
theorem matchAtLeast_of_failed {minimum left : Nat} {error : MatchError} {failed : MatchState}
    (next : call body last.stop reached = .error error failed) :
    matchAtLeast call body minimum left count last reached = .error error failed := by
  rw [matchAtLeast]
  simp only [bind_apply, next]

/-- An iteration without width ends the repetition. -/
theorem matchAtLeast_of_zeroWidth {minimum left : Nat} {m : Match} {stopped : MatchState}
    (next : call body last.stop reached = .ok (some m) stopped) (still : m.stop = last.stop) :
    matchAtLeast call body minimum left count last reached = .ok (some (last.append m)) stopped := by
  rw [matchAtLeast]
  simp only [bind_apply, next, if_pos still]
  rfl

end Loops

/-! ## Calls of a new node -/

/-- A call of a node of this kind that has no name and no trace options. It stands under the first
number that the graph does not use. -/
def callKind (setup : Setup) (room : Nat) (kind : Kind) (index : Nat) : MatchM (Option Match) :=
  match room with
  | 0 => refuse setup index
  | room + 1 => fun entry =>
      if setup.limit ≤ entry.depth then
        refuse setup index entry
      else
        let i := min index setup.text.length
        guarded setup setup.graph.slots.size i (matchKind setup (call setup room) i kind) entry

/-- The node matches one body over and over. -/
inductive Repeats (body : PatternId) : Kind → Prop where
  | repetition (count : RepeatCount) : Repeats body (.repetition body count)
  | copies (count : Nat) : Repeats body (.sequence (List.replicate count body))

theorem Repeats.sameDeeper {body : PatternId} {kind : Kind} (repeats : Repeats body kind)
    {setup otherSetup : Setup} (sameText : otherSetup.text = setup.text) {call other : Caller}
    {depth i : Nat}
    (calls : ∀ index, SameDeeper depth 0 (call body index) (other body index)) :
    SameDeeper depth 0 (matchKind setup call i kind) (matchKind otherSetup other i kind) := by
  cases repeats with
  | repetition count =>
      simp only [matchKind, sameText]
      exact (congruence_sameDeeper depth 0).accesses.matchRepetition calls count
  | copies count =>
      simp only [matchKind, sameText]
      apply (congruence_sameDeeper depth 0).accesses.matchSequence
      intro item member
      rw [List.eq_of_mem_replicate member]
      exact calls

theorem Repeats.grows {body : PatternId} {kind : Kind} (repeats : Repeats body kind)
    {setup : Setup} {call : Caller} {i : Nat} {blamed : MatchError → Prop}
    (calls : ∀ index, Grows blamed (call body index)) :
    Grows blamed (matchKind setup call i kind) := by
  cases repeats with
  | repetition count => exact matchRepetition_grows calls count
  | copies count =>
      apply matchSequence_grows
      intro item member
      rw [List.eq_of_mem_replicate member]
      exact calls

/-- An exact count is as many copies. -/
theorem callKind_copies (setup : Setup) (room : Nat) (body : PatternId) (count index : Nat) :
    callKind setup room (.repetition body (.exactly count)) index =
      callKind setup room (.sequence (List.replicate count body)) index := by
  have same (call : Caller) (i : Nat) :
      matchKind setup call i (.repetition body (.exactly count)) =
        matchKind setup call i (.sequence (List.replicate count body)) :=
    matchRepetition_exactly setup.text call i body count
  cases room with
  | zero => rfl
  | succ room =>
      simp only [callKind, same]
      rfl

/-- The call of a node that was added and repeats an older pattern. -/
theorem callKind_sameDeeper (setup : Setup) {body : PatternId} {kind : Kind}
    (repeats : Repeats body kind)
    (same : setup.graph.SameBelow (setup.graph.add { kind }).2 body) (room depth index : Nat) :
    SameDeeper depth 0 (callKind setup room kind index)
      (call { setup with graph := (setup.graph.add { kind }).2 } room setup.graph.slots.size
        index) := by
  cases room with
  | zero => exact refuse_sameDeeper setup _ depth index
  | succ room =>
      have added : (setup.graph.add { kind }).2.node setup.graph.slots.size = { kind } :=
        congrArg (·.getD Node.absent) (Graph.node?_add_self setup.graph _)
      have unused : setup.graph.node setup.graph.slots.size = Node.absent := by
        simp [Graph.node, Graph.node?]
      intro entry otherEntry entries
      have sameDepth : otherEntry.depth = entry.depth := entries.level.trans entries.deeper.symm
      simp only [callKind, call, sameDepth]
      by_cases deep : setup.limit ≤ entry.depth
      · rw [if_pos deep, if_pos deep]
        exact refuse_sameDeeper setup _ depth index _ _ entries
      · rw [if_neg deep, if_neg deep]
        refine guarded_sameDeeper ?_ ?_ (Or.inl rfl) ?_ entry otherEntry entries
        · simp only [Graph.name?, added, unused]
          rfl
        · simp only [added, unused]
          rfl
        · rw [show (setup.graph.add { kind }).2.kind setup.graph.slots.size = kind from
            congrArg Node.kind added]
          refine repeats.sameDeeper ?_ fun index => ?_
          · rfl
          · exact call_sameDeeper room same (fun gap => absurd gap (Nat.lt_irrefl 0))
              (fun gap => absurd gap (Nat.lt_irrefl 0)) (Or.inl rfl) index

theorem callKind_isolated (setup : Setup) {body : PatternId} {kind : Kind}
    (repeats : Repeats body kind) (lawful : setup.graph.Lawful setup.text body) {room : Nat}
    (index : Nat) (entry : MatchState) (roomLeft : setup.limit - entry.depth = room + 1) :
    ∃ left : MatchState, stateOf (callKind setup (room + 1) kind index entry) = left.settle ∧
      Isolated entry (answerOf (callKind setup (room + 1) kind index entry)) left := by
  have grows : ∀ index, Grows (fun _ => True) (call setup room body index) := fun index state under =>
    ⟨(call_isolated setup room lawful index under).1.extends, fun _ _ => trivial⟩
  have shallow : ¬ setup.limit ≤ entry.depth := by omega
  simp only [callKind, if_neg shallow]
  have kindGrows : Grows (fun _ => True)
      (matchKind setup (call setup room) (min index setup.text.length) kind) := repeats.grows grows
  obtain ⟨left, settled, isolated, -⟩ := @guarded_isolated setup setup.graph.slots.size
    (min index setup.text.length) _ _ kindGrows entry
  exact ⟨left, settled, isolated⟩

end Matching

end PegEngine
