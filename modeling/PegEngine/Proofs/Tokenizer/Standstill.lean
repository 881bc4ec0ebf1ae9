import PegEngine.Proofs.Tokenizer.Moves

/-!
Contract: what a stream of tokens does without leaving a position.

A stream that has come to a position leaves grammars there at first, then enters grammars, and
yields at most one more token, with which it ends. While it leaves grammars there are fewer and
fewer of them, and from the first that it enters on there are more and more, so it is never twice
in the same situation.

Owns:
- `TokenStream.Fresh` and `TokenStream.JustOpened`, the two phases at one position;
- `TokenStream.Standstill`, the shape of the moves at one position;
- `run_standstill`.
-/

namespace PegEngine

namespace TokenStream

/-- No active grammar was entered at the position of the stream without taking a character. -/
def Fresh (stream : TokenStream) : Prop :=
  ∀ level ∈ stream.active, level.openedEmptyAt ≠ some stream.index

/-- The innermost grammar was entered at the position of the stream without taking a character. -/
def JustOpened (stream : TokenStream) : Prop :=
  ∃ level outer, stream.active = level :: outer ∧ level.openedEmptyAt = some stream.index

namespace Event

def Stays (event : Event) : Prop :=
  event.after.index = event.before.index

def Progresses (event : Event) : Prop :=
  event.before.index < event.after.index

/-- The move yields a token of no width at the position. -/
def YieldsEmptyAt (event : Event) (index : Nat) : Prop :=
  ∃ token, event.token = some token ∧ token.result.start = index ∧ token.result.stop = index

/-- The move leaves the innermost grammar. -/
def Closes (event : Event) (level : Active) : Prop :=
  event.before.active = level :: event.after.active

/-- The move enters a grammar. -/
def Switches (event : Event) : Prop :=
  ∃ level, event.after.active = level :: event.before.active

/-- The move leaves the active grammars as they are. -/
def IsPlain (event : Event) : Prop :=
  event.after.active = event.before.active

/-- The move ends the stream, with a plain token or by leaving a grammar that was entered at the
position without taking a character. -/
structure EndsAt (event : Event) (index : Nat) : Prop where
  finished : event.after.finished = true
  ends : event.IsPlain ∨ ∃ level, event.Closes level ∧ level.openedEmptyAt = some index

end Event

/-- Moves at one position: some that leave grammars, some that enter grammars, and at most one more,
which ends the stream. All of them yield tokens of no width. -/
structure Standstill (index : Nat) (events : List Event) : Prop where
  empty : ∀ event ∈ events, event.YieldsEmptyAt index
  blocks : ∃ closes switches last, events = closes ++ switches ++ last ∧
    (∀ event ∈ closes, ∃ level, event.Closes level) ∧ (∀ event ∈ switches, event.Switches) ∧
    (last = [] ∨ ∃ event, last = [event] ∧ event.EndsAt index)

variable {graph : Graph} {tokenizer : Tokenizer} {stream later : TokenStream}

/-! ## One move at a position -/

section Move

variable {token : Option Token}

theorem Goes.yieldsEmptyAt (goes : stream.Goes graph tokenizer token later)
    (placed : stream.Placed) (stays : later.index = stream.index) :
    (⟨stream, token, later⟩ : Event).YieldsEmptyAt stream.index := by
  have advances := (goes.advances placed).1
  cases token with
  | none =>
      cases goes.change with
      | skipped _ progressed => exact absurd stays (Nat.ne_of_gt progressed)
  | some token =>
      obtain ⟨within, stop⟩ := advances.token token rfl
      have stopHere : token.result.stop = stream.index := stop.trans stays
      refine ⟨token, rfl, Nat.le_antisymm ?_ within.start, stopHere⟩
      exact stopHere ▸ within.order

/-- Grammars were entered at positions that the stream has left, once it takes a character. -/
theorem Goes.fresh_of_progress (goes : stream.Goes graph tokenizer token later)
    (placed : stream.Placed) (progresses : stream.index < later.index) : later.Fresh := by
  have older : ∀ level ∈ stream.active, level.openedEmptyAt ≠ some later.index := by
    intro level member opened
    exact absurd (placed.opened level member _ opened) (Nat.not_le_of_gt progresses)
  cases goes.change with
  | closed active => exact fun level member => older level (by simp [active, member])
  | switched =>
      intro level member
      rcases List.mem_cons.mp member with same | member
      · subst same
        simp only [progresses, if_true]
        exact nofun
      · exact older level member
  | plain | skipped => exact older

/-- A stream that has entered no grammar at its position leaves grammars, or enters the first one
there, or ends. -/
theorem Fresh.goes (fresh : stream.Fresh) (goes : stream.Goes graph tokenizer token later)
    (stays : later.index = stream.index) :
    ((∃ level, (⟨stream, token, later⟩ : Event).Closes level) ∧ later.Fresh) ∨
      ((⟨stream, token, later⟩ : Event).Switches ∧ later.JustOpened) ∨
      (⟨stream, token, later⟩ : Event).EndsAt stream.index := by
  cases goes.change with
  | closed active =>
      refine Or.inl ⟨⟨_, active⟩, fun level member => ?_⟩
      rw [stays]
      exact fresh level (by simp [active, member])
  | switched =>
      exact Or.inr (Or.inl ⟨⟨_, rfl⟩, _, _, rfl, if_neg (Nat.not_lt_of_le (Nat.le_of_eq stays))⟩)
  | plain =>
      exact Or.inr (Or.inr ⟨decide_eq_true (Nat.le_of_eq stays), Or.inl rfl⟩)
  | skipped _ progressed => exact absurd stays (Nat.ne_of_gt progressed)

/-- A stream that has just entered a grammar at its position enters another one, or ends. -/
theorem JustOpened.goes (opened : stream.JustOpened)
    (goes : stream.Goes graph tokenizer token later) (stays : later.index = stream.index) :
    ((⟨stream, token, later⟩ : Event).Switches ∧ later.JustOpened) ∨
      (⟨stream, token, later⟩ : Event).EndsAt stream.index := by
  obtain ⟨innermost, others, active, here⟩ := opened
  cases goes.change with
  | @closed _ _ _ m _ activeNow =>
      rw [active] at activeNow
      cases activeNow
      have stalled : m.stop = stream.index := stays
      refine Or.inr ⟨?_, Or.inr ⟨innermost, active, here⟩⟩
      simp [stalled, here]
  | switched =>
      exact Or.inl ⟨⟨_, rfl⟩, _, _, rfl, if_neg (Nat.not_lt_of_le (Nat.le_of_eq stays))⟩
  | plain => exact Or.inr ⟨decide_eq_true (Nat.le_of_eq stays), Or.inl rfl⟩
  | skipped _ progressed => exact absurd stays (Nat.ne_of_gt progressed)

end Move

/-! ## Runs -/

section Runs

variable {events : List Event}

/-- The stream is in one of the two phases, or it has ended. -/
def InPhase (stream : TokenStream) : Prop :=
  stream.finished = true ∨ stream.Fresh ∨ stream.JustOpened

theorem Goes.inPhase {token : Option Token} (goes : stream.Goes graph tokenizer token later)
    (placed : stream.Placed) (phase : stream.InPhase) : later.InPhase := by
  rcases Nat.lt_or_eq_of_le (goes.advances placed).1.forth with progresses | stays
  · exact Or.inr (Or.inl (goes.fresh_of_progress placed progresses))
  · rcases phase with finished | fresh | opened
    · rw [goes.goesOn] at finished
      cases finished
    · rcases fresh.goes goes stays.symm with ⟨_, fresh⟩ | ⟨_, opened⟩ | ends
      · exact Or.inr (Or.inl fresh)
      · exact Or.inr (Or.inr opened)
      · exact Or.inl ends.finished
    · rcases opened.goes goes stays.symm with ⟨_, opened⟩ | ends
      · exact Or.inr (Or.inr opened)
      · exact Or.inl ends.finished

theorem Run.inPhase (run : Run graph tokenizer stream events later) (placed : stream.Placed)
    (phase : stream.InPhase) : later.InPhase := by
  induction run with
  | done => exact phase
  | step goes _ inductionHypothesis =>
      exact inductionHypothesis (goes.advances placed).2 (goes.inPhase placed phase)

theorem Run.keeps (run : Run graph tokenizer stream events later) (placed : stream.Placed)
    (phase : stream.InPhase) :
    later.Placed ∧ later.InPhase ∧ stream.index ≤ later.index ∧
      later.input.text = stream.input.text := by
  obtain ⟨placedLater, further, sameText⟩ := run.advances placed
  exact ⟨placedLater, run.inPhase placed phase, further, sameText⟩

/-- A run that ends where it began has not moved. -/
theorem Run.stays (run : Run graph tokenizer stream events later) (placed : stream.Placed)
    (phase : stream.InPhase) (same : later.index = stream.index) :
    ∀ event ∈ events, event.Stays := by
  induction run with
  | done => exact nofun
  | step goes rest inductionHypothesis =>
      obtain ⟨advances, placedNext⟩ := goes.advances placed
      have phaseNext := goes.inPhase placed phase
      have further := (rest.keeps placedNext phaseNext).2.2.1
      have stays := Nat.le_antisymm (same ▸ further) advances.forth
      intro event member
      rcases List.mem_cons.mp member with first | member
      · exact first ▸ stays
      · exact inductionHypothesis placedNext phaseNext (same.trans stays.symm) event member

theorem Run.yieldsEmptyAt (run : Run graph tokenizer stream events later) (placed : stream.Placed)
    (stays : ∀ event ∈ events, event.Stays) :
    ∀ event ∈ events, event.YieldsEmptyAt stream.index := by
  induction run with
  | done => exact nofun
  | @step stream next later token events goes rest inductionHypothesis =>
      have here : next.index = stream.index := stays ⟨stream, token, next⟩ (by simp)
      intro event member
      rcases List.mem_cons.mp member with first | member
      · exact first ▸ goes.yieldsEmptyAt placed here
      · rw [← here]
        exact inductionHypothesis (goes.advances placed).2
          (fun other among => stays other (by simp [among])) event member

/-- From a grammar that was just entered on, more grammars are entered, and at most one more token
ends the stream. -/
theorem Run.switches_of_justOpened (run : Run graph tokenizer stream events later)
    (opened : stream.JustOpened) (stays : ∀ event ∈ events, event.Stays) :
    ∃ switches last, events = switches ++ last ∧ (∀ event ∈ switches, event.Switches) ∧
      (last = [] ∧ later.JustOpened ∧
          later.active.length = stream.active.length + events.length ∨
        ∃ event, last = [event] ∧ event.EndsAt stream.index ∧ later.finished = true) := by
  induction run with
  | done => exact ⟨[], [], rfl, nofun, Or.inl ⟨rfl, opened, rfl⟩⟩
  | @step stream next later token events goes rest inductionHypothesis =>
      have here : next.index = stream.index := stays ⟨stream, token, next⟩ (by simp)
      rcases opened.goes goes here with ⟨switches, openedNext⟩ | ends
      · obtain ⟨more, last, split, areSwitches, rest⟩ := inductionHypothesis openedNext
          fun other among => stays other (by simp [among])
        refine ⟨⟨stream, token, next⟩ :: more, last, by rw [split]; rfl, ?_, ?_⟩
        · intro event member
          rcases List.mem_cons.mp member with first | member
          · exact first ▸ switches
          · exact areSwitches event member
        · rw [← here]
          refine rest.imp_left fun ⟨nothing, openedLater, longer⟩ =>
            ⟨nothing, openedLater, ?_⟩
          obtain ⟨level, entered⟩ := switches
          have one : next.active.length = stream.active.length + 1 := by
            simpa using congrArg List.length entered
          simp only [List.length_cons]
          omega
      · obtain ⟨nothing, same⟩ := rest.of_finished ends.finished
        subst same nothing
        exact ⟨[], [⟨stream, token, later⟩], rfl, nofun, Or.inr ⟨_, rfl, ends, ends.finished⟩⟩

/-- From the arrival at a position on, grammars are left, then grammars are entered, and at most one
more token ends the stream. -/
theorem Run.blocks_of_fresh (run : Run graph tokenizer stream events later)
    (fresh : stream.Fresh) (stays : ∀ event ∈ events, event.Stays) :
    ∃ closes switches last, events = closes ++ switches ++ last ∧
      (∀ event ∈ closes, ∃ level, event.Closes level) ∧ (∀ event ∈ switches, event.Switches) ∧
      (last = [] ∧ (later.JustOpened ∨
          later.Fresh ∧ later.active.length + events.length = stream.active.length) ∨
        ∃ event, last = [event] ∧ event.EndsAt stream.index ∧ later.finished = true) := by
  induction run with
  | done => exact ⟨[], [], [], rfl, nofun, nofun, Or.inl ⟨rfl, Or.inr ⟨fresh, rfl⟩⟩⟩
  | @step stream next later token events goes rest inductionHypothesis =>
      have here : next.index = stream.index := stays ⟨stream, token, next⟩ (by simp)
      have staysLater : ∀ event ∈ events, event.Stays :=
        fun other among => stays other (by simp [among])
      rcases fresh.goes goes here with ⟨⟨level, closes⟩, freshNext⟩ | ⟨switches, openedNext⟩ | ends
      · obtain ⟨more, switches, last, split, areCloses, areSwitches, rest⟩ :=
          inductionHypothesis freshNext staysLater
        refine ⟨⟨stream, token, next⟩ :: more, switches, last, by rw [split]; rfl, ?_,
          areSwitches, ?_⟩
        · intro event member
          rcases List.mem_cons.mp member with first | member
          · exact first ▸ ⟨level, closes⟩
          · exact areCloses event member
        · rw [← here]
          refine rest.imp_left fun ⟨nothing, phase⟩ =>
            ⟨nothing, phase.imp_right fun ⟨freshLater, fewer⟩ => ⟨freshLater, ?_⟩⟩
          have one : stream.active.length = next.active.length + 1 := by
            simpa using congrArg List.length closes
          simp only [List.length_cons]
          omega
      · obtain ⟨more, last, split, areSwitches, rest⟩ :=
          rest.switches_of_justOpened openedNext staysLater
        refine ⟨[], ⟨stream, token, next⟩ :: more, last, by rw [split]; rfl, nofun, ?_, ?_⟩
        · intro event member
          rcases List.mem_cons.mp member with first | member
          · exact first ▸ switches
          · exact areSwitches event member
        · rw [← here]
          exact rest.imp_left fun ⟨nothing, openedLater, _⟩ => ⟨nothing, Or.inl openedLater⟩
      · obtain ⟨nothing, same⟩ := rest.of_finished ends.finished
        subst same nothing
        exact ⟨[], [], [⟨stream, token, later⟩], rfl, nofun, nofun,
          Or.inr ⟨_, rfl, ends, ends.finished⟩⟩

/-- The stream has come to its position by its last move, or has not moved yet. -/
def Arrived (earlier : List Event) : Prop :=
  ∀ last, earlier.getLast? = some last → last.Progresses

theorem Run.fresh_of_arrived (run : Run graph tokenizer stream events later)
    (placed : stream.Placed) (fresh : events = [] → stream.Fresh) (arrived : Arrived events) :
    later.Fresh := by
  induction run with
  | done => exact fresh rfl
  | @step stream next later token events goes rest inductionHypothesis =>
      refine inductionHypothesis (goes.advances placed).2 (fun none => ?_) fun last isLast => ?_
      · subst none
        exact goes.fresh_of_progress placed (arrived ⟨stream, token, next⟩ rfl)
      · cases events with
        | nil => cases isLast
        | cons first others => exact arrived last (List.getLast?_cons_cons.trans isLast)

/-- A stream that is again in a situation it has been in has come to its end. -/
theorem Run.finished_of_repeated (run : Run graph tokenizer stream events later)
    (placed : stream.Placed) (phase : stream.InPhase) (moved : events ≠ [])
    (sameIndex : later.index = stream.index) (sameActive : later.active = stream.active) :
    later.finished = true := by
  have stays := run.stays placed phase sameIndex
  have some : 0 < events.length := List.length_pos_iff.mpr moved
  -- Every token of no width changes the number of active grammars, or else ends the stream.
  have sameLength := congrArg List.length sameActive
  rcases phase with finished | fresh | opened
  · exact absurd (run.of_finished finished).1 moved
  · obtain ⟨_, _, _, _, _, _, ⟨_, opened | ⟨_, fewer⟩⟩ | ⟨_, _, _, finished⟩⟩ :=
      run.blocks_of_fresh fresh stays
    · obtain ⟨level, outer, active, here⟩ := opened
      refine absurd (here.trans ?_) (fresh level ?_)
      · rw [sameIndex]
      · rw [← sameActive, active]
        exact List.mem_cons_self
    · omega
    · exact finished
  · obtain ⟨_, _, _, _, ⟨_, _, longer⟩ | ⟨_, _, _, finished⟩⟩ :=
      run.switches_of_justOpened opened stays
    · omega
    · exact finished

end Runs

/-- A stream that has just begun has entered no grammar by a match. -/
theorem fresh_of_tokens {text : Text} {offset : Int} {start : TokenStream}
    {trace : List TraceEntry} (begins : tokenizer.tokens text offset = .ok (start, trace)) :
    start.Fresh := by
  obtain ⟨_, _, _, untouched⟩ := tokenizer.placed_of_tokens begins
  intro level member opened
  rw [untouched level member] at opened
  cases opened

/-- What a stream does at a position that it has come to: it leaves grammars, then enters grammars,
and at most one more token ends it, all with tokens of no width. So it never gets back to the
position and the active grammars of an earlier situation, unless it has come to its end. A request
that is answered with a token is a part of such a run. -/
theorem run_standstill {text : Text} {offset : Int} {start : TokenStream} {trace : List TraceEntry}
    (begins : tokenizer.tokens text offset = .ok (start, trace)) :
    ∀ (earlier : List Event) (here : TokenStream), Run graph tokenizer start earlier here →
      (Arrived earlier → ∀ events later, Run graph tokenizer here events later →
        (∀ event ∈ events, event.Stays) → Standstill here.index events) ∧
      (∀ events later, Run graph tokenizer here events later → events ≠ [] →
        later.finished = false → ¬ (later.index = here.index ∧ later.active = here.active)) ∧
      (∀ token, (here.next graph tokenizer).answer = .ok (some token) →
        ∃ skips last, Run graph tokenizer here skips last ∧
          (∀ event ∈ skips, event.token = none) ∧
          last.Goes graph tokenizer (some token) (here.next graph tokenizer).stream) := by
  intro earlier here reached
  obtain ⟨placed, _⟩ := tokenizer.placed_of_tokens begins
  have fresh := fresh_of_tokens begins
  obtain ⟨placedHere, phase, _⟩ := reached.keeps placed (Or.inr (Or.inl fresh))
  refine ⟨fun arrived events later run stays => ⟨run.yieldsEmptyAt placedHere stays, ?_⟩, ?_, ?_⟩
  · have freshHere := reached.fresh_of_arrived placed (fun _ => fresh) arrived
    obtain ⟨closes, switches, last, split, areCloses, areSwitches, atMostOne⟩ :=
      run.blocks_of_fresh freshHere stays
    refine ⟨closes, switches, last, split, areCloses, areSwitches, ?_⟩
    exact atMostOne.imp And.left fun ⟨event, isLast, ends, _⟩ => ⟨event, isLast, ends⟩
  · intro events later run moved goesOn ⟨sameIndex, sameActive⟩
    rw [run.finished_of_repeated placedHere phase moved sameIndex sameActive] at goesOn
    cases goesOn
  · exact fun token answered => next_goes answered

/-- A gap, and what comes after it. -/
def gapPatterns : Graph where
  slots := #[
    some { kind := .constant true, name := some "gap" },
    some { kind := .literal [')'], name := some "close" }]

def outerGaps : Grammar where
  name := "outer"
  rules := [.switch 0 "inner" 1]

/-- A grammar that is entered without taking a character, and a token of no width in it. -/
def gaps : Tokenizer where
  grammars := [outerGaps, { name := "inner", rules := [.token 0] }]
  initial := "outer"

theorem run_standstill_gaps :
    ∃ start trace events later, gaps.tokens (.ofString "") 0 = .ok (start, trace) ∧
      Run gapPatterns gaps start events later ∧ events.length = 2 ∧ Standstill 0 events := by
  let start : TokenStream :=
    { input := { text := .ofString "" }, index := 0, active := [⟨outerGaps, none, none⟩] }
  have begins : gaps.tokens (.ofString "") 0 = .ok (start, [entering "outer" 0]) := rfl
  have run : Run gapPatterns gaps start _ _ :=
    .step (.yield rfl rfl rfl) (.step (.yield rfl rfl rfl) .done)
  refine ⟨start, _, _, _, begins, run, rfl, ?_⟩
  refine (run_standstill begins _ _ .done).1 nofun _ _ run fun event member => ?_
  rcases List.mem_cons.mp member with same | member
  · rw [same]
    rfl
  · rw [List.mem_singleton.mp member]
    rfl

end TokenStream

end PegEngine
