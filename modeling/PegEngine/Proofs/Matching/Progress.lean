import PegEngine.Proofs.Matching.Iteration

/-!
Contract: repetitions without a greatest count end.

The loop runs its body until the body does not match, ends in an error or matches without width. It
does not count what is left of the text: matches end where they begin or later, so each further run
begins later than the one before.

Owns:
- `Matching.LoopEnds`, the loop with all of its runs and without any bound on them;
- `Matching.Advancing`, for runs that each begin later and take some of the text, but for the last;
- `Matching.atLeast_advances`: the loop ends in one way only, as the repetition does, and advances.
-/

namespace PegEngine

namespace Matching

/-- One run of the body: the position that it begins at, and how it ends. -/
structure BodyRun where
  start : Nat
  ended : EStateM.Result MatchError MatchState (Option Match)

/-- The run matches and takes some of the text. -/
def BodyRun.Takes (run : BodyRun) : Prop :=
  ∃ m reached, run.ended = .ok (some m) reached ∧ run.start < m.stop

/-- With `done` runs of the body behind it, the match so far and the state, the loop goes through
the runs and ends with the result. -/
inductive LoopEnds (call : Caller) (body : PatternId) (minimum : Nat) :
    Nat → Match → MatchState → List BodyRun → EStateM.Result MatchError MatchState (Option Match) →
      Prop where
  | missed {done : Nat} {soFar : Match} {state reached : MatchState}
      (ended : call body soFar.stop state = .ok none reached) :
      LoopEnds call body minimum done soFar state [⟨soFar.stop, .ok none reached⟩]
        (.ok (if minimum ≤ done then some soFar else none) reached)
  | failed {done : Nat} {soFar : Match} {state reached : MatchState} {error : MatchError}
      (ended : call body soFar.stop state = .error error reached) :
      LoopEnds call body minimum done soFar state [⟨soFar.stop, .error error reached⟩]
        (.error error reached)
  | zeroWidth {done : Nat} {soFar m : Match} {state reached : MatchState}
      (ended : call body soFar.stop state = .ok (some m) reached) (still : m.stop = soFar.stop) :
      LoopEnds call body minimum done soFar state [⟨soFar.stop, .ok (some m) reached⟩]
        (.ok (some (soFar.append m)) reached)
  | onward {done : Nat} {soFar m : Match} {state reached : MatchState} {runs : List BodyRun}
      {result : EStateM.Result MatchError MatchState (Option Match)}
      (ended : call body soFar.stop state = .ok (some m) reached) (moved : m.stop ≠ soFar.stop)
      (rest : LoopEnds call body minimum (done + 1) (soFar.append m) reached runs result) :
      LoopEnds call body minimum done soFar state (⟨soFar.stop, .ok (some m) reached⟩ :: runs)
        result

/-- From position `i` on, the runs begin later and later inside the text, no more of them than
positions are left, and all but the last take some of the text. -/
structure Advancing (text : Text) (i : Nat) (runs : List BodyRun) : Prop where
  few : runs.length ≤ text.length - i + 1
  later : (runs.map BodyRun.start).Pairwise (· < ·)
  inside : ∀ run ∈ runs, i ≤ run.start ∧ run.start ≤ text.length
  takes : ∀ run ∈ runs.dropLast, run.Takes

namespace Advancing

variable {text : Text} {start : Nat} {ended : EStateM.Result MatchError MatchState (Option Match)}

/-- The last run may end in any way. -/
theorem last (inside : start ≤ text.length) : Advancing text start [⟨start, ended⟩] where
  few := Nat.le_add_left 1 _
  later := List.pairwise_singleton _ _
  inside run member := by
    rw [List.mem_singleton.mp member]
    exact ⟨Nat.le_refl _, inside⟩
  takes _ member := nomatch member

/-- A run that takes some of the text goes before runs that begin where it has ended. -/
theorem cons {next : Nat} {runs : List BodyRun} (advancing : Advancing text next runs)
    (notLast : runs ≠ []) (takes : BodyRun.Takes ⟨start, ended⟩) (further : start < next)
    (inside : next ≤ text.length) : Advancing text start (⟨start, ended⟩ :: runs) where
  few := by
    have fewer := advancing.few
    rw [List.length_cons]
    omega
  later := by
    rw [List.map_cons, List.pairwise_cons]
    refine ⟨fun begins member => ?_, advancing.later⟩
    obtain ⟨run, isRun, rfl⟩ := List.mem_map.mp member
    exact Nat.lt_of_lt_of_le further (advancing.inside run isRun).1
  inside run member := by
    rcases List.mem_cons.mp member with rfl | isLater
    · exact ⟨Nat.le_refl _, Nat.le_trans (Nat.le_of_lt further) inside⟩
    · obtain ⟨notBefore, within⟩ := advancing.inside run isLater
      exact ⟨Nat.le_trans (Nat.le_of_lt further) notBefore, within⟩
  takes run member := by
    rw [List.dropLast_cons_of_ne_nil notLast] at member
    rcases List.mem_cons.mp member with rfl | isLater
    · exact takes
    · exact advancing.takes run isLater

end Advancing

section Loop

variable {call : Caller} {body : PatternId} {minimum done : Nat} {soFar m : Match}
  {state reached : MatchState} {runs : List BodyRun}
  {result : EStateM.Result MatchError MatchState (Option Match)}

theorem LoopEnds.runs_ne_nil (ends : LoopEnds call body minimum done soFar state runs result) :
    runs ≠ [] := by
  cases ends <;> exact List.cons_ne_nil _ _

/-- How the run of the body ends settles what the loop does next. -/
theorem LoopEnds.unique {others : List BodyRun}
    {other : EStateM.Result MatchError MatchState (Option Match)}
    (ends : LoopEnds call body minimum done soFar state runs result)
    (also : LoopEnds call body minimum done soFar state others other) :
    others = runs ∧ other = result := by
  -- Both begin with the same call, so that cases in which it ends differently do not meet.
  induction ends generalizing others with
  | missed ended =>
      cases also with
      | missed again =>
          cases ended.symm.trans again
          exact ⟨rfl, rfl⟩
      | failed again | zeroWidth again | onward again => cases ended.symm.trans again
  | failed ended =>
      cases also with
      | failed again =>
          cases ended.symm.trans again
          exact ⟨rfl, rfl⟩
      | missed again | zeroWidth again | onward again => cases ended.symm.trans again
  | zeroWidth ended still =>
      cases also with
      | zeroWidth again =>
          cases ended.symm.trans again
          exact ⟨rfl, rfl⟩
      | onward again moved =>
          cases ended.symm.trans again
          exact absurd still moved
      | missed again | failed again => cases ended.symm.trans again
  | onward ended moved rest inductionHypothesis =>
      cases also with
      | onward again _ restAgain =>
          cases ended.symm.trans again
          obtain ⟨sameRuns, sameResult⟩ := inductionHypothesis restAgain
          exact ⟨congrArg _ sameRuns, sameResult⟩
      | zeroWidth again still =>
          cases ended.symm.trans again
          exact absurd still moved
      | missed again | failed again => cases ended.symm.trans again

variable {text : Text}

theorem LoopEnds.advancing (answers : CallsAnswer text (fun i m => m.Within text i) call body)
    (ends : LoopEnds call body minimum done soFar state runs result)
    (inside : soFar.stop ≤ text.length) : Advancing text soFar.stop runs := by
  induction ends with
  | missed | failed | zeroWidth => exact .last inside
  | onward ended moved rest inductionHypothesis =>
      obtain ⟨further, within⟩ := further_of_moved answers inside ended moved
      exact (inductionHypothesis within).cons rest.runs_ne_nil ⟨_, _, rfl, further⟩ further within

/-- The loop ends as it does with a count of the characters that are left, which decides nothing. -/
theorem LoopEnds.total (answers : CallsAnswer text (fun i m => m.Within text i) call body)
    (minimum done : Nat) (state : MatchState) (inside : soFar.stop ≤ text.length) {left : Nat}
    (enough : text.length - soFar.stop ≤ left) :
    ∃ runs, LoopEnds call body minimum done soFar state runs
      (matchAtLeast call body minimum left done soFar state) := by
  -- The induction is on what is left of the text and not on the count, which may be greater.
  induction isAhead : text.length - soFar.stop using Nat.strong_induction_on
    generalizing left done soFar state with
  | _ ahead inductionHypothesis =>
  cases ended : call body soFar.stop state with
  | error error reached =>
      rw [matchAtLeast_of_failed ended]
      exact ⟨_, .failed ended⟩
  | ok outcome reached =>
      cases outcome with
      | none =>
          rw [matchAtLeast_of_missed ended]
          exact ⟨_, .missed ended⟩
      | some m =>
          by_cases still : m.stop = soFar.stop
          case pos =>
            rw [matchAtLeast_of_zeroWidth ended still]
            exact ⟨_, .zeroWidth ended still⟩
          case neg =>
            obtain ⟨further, within⟩ := further_of_moved answers inside ended still
            obtain ⟨fewer, rfl⟩ : ∃ fewer, left = fewer + 1 := ⟨left - 1, by omega⟩
            rw [matchAtLeast_of_moved ended still]
            have last : (soFar.append m).stop = m.stop := rfl
            rw [← last] at further within
            have less : text.length - (soFar.append m).stop < ahead := by omega
            obtain ⟨runs, rest⟩ :=
              inductionHypothesis _ less (done + 1) reached within (by omega : _ ≤ fewer) rfl
            exact ⟨_, .onward ended still rest⟩

end Loop

/-- Whatever functions from outside hand over, the loop of a repetition without a greatest count
ends in just one way, as the repetition does, after runs of its body that advance through the
text. -/
theorem atLeast_advances (setup : Setup) (room : Nat) (body : PatternId) (minimum : Nat) {i : Nat}
    (inside : i ≤ setup.text.length) (state : MatchState) :
    ∃ runs, Advancing setup.text i runs ∧ ∀ others result,
      LoopEnds (call setup room) body minimum 0 (setup.text.matchOver i i) state others result ↔
        others = runs ∧
        result = matchRepetition setup.text (call setup room) i body (.atLeast minimum) state := by
  have answers := call_within setup room body
  have begins : (setup.text.matchOver i i).stop ≤ setup.text.length := inside
  obtain ⟨runs, ends⟩ := LoopEnds.total answers minimum 0 state begins (Nat.le_refl _)
  refine ⟨runs, ends.advancing answers inside, fun others result => ⟨ends.unique, ?_⟩⟩
  rintro ⟨rfl, rfl⟩
  exact ends

/-- Two characters that a function takes, or else a look at one. -/
def takesPairs : Graph where
  slots := #[
    some { kind := .function (Script.callback { steps := [], verdict := .stopBy 2 }) },
    some { kind := .chars 1 },
    some { kind := .positive 1 },
    some { kind := .choice [0, 2] }]

/-- The look at the last letter takes nothing, and counts for all that are missing. -/
theorem atLeast_advances_takesPairs :
    let setup := Context.setup {} takesPairs (Text.ofString "abcde")
    0 ≤ setup.text.length ∧ ∃ runs, runs.map BodyRun.start = [0, 2, 4] ∧
      Advancing setup.text 0 runs ∧
      answerOf (matchRepetition setup.text (call setup 5) 0 3 (.atLeast 7) {}) =
        .ok (some (setup.text.matchOver 0 4)) := by
  intro setup
  have begins : 0 ≤ setup.text.length := Nat.zero_le _
  obtain ⟨runs, advancing, only⟩ := atLeast_advances setup 5 3 7 begins {}
  let afterFirst := stateOf (call setup 5 3 0 {})
  let afterSecond := stateOf (call setup 5 3 2 afterFirst)
  have first : call setup 5 3 0 {} = .ok (some (setup.text.matchOver 0 2)) afterFirst :=
    eq_ok_of_value (by decide +kernel)
  have second : call setup 5 3 2 afterFirst = .ok (some (setup.text.matchOver 2 4)) afterSecond :=
    eq_ok_of_value (by decide +kernel)
  have last : call setup 5 3 4 afterSecond = .ok (some (setup.text.matchOver 4 4)) _ :=
    eq_ok_of_value (by decide +kernel)
  obtain ⟨rfl, ends⟩ := (only _ _).1
    (.onward first (by decide) (.onward second (by decide) (.zeroWidth last rfl)))
  exact ⟨begins, _, rfl, advancing, congrArg answerOf ends.symm⟩

end Matching

end PegEngine
