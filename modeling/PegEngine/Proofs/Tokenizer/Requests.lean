import PegEngine.Proofs.Tokenizer.Moves

/-!
Contract: what a request for a token does to a stream, whatever the answer is.

A request passes over skips and then makes its answer of one position. It takes the stream forth in
its text, and if the answer is no token, it leaves the active grammars as they are and ends the
stream.

Owns:
- `TokenStream.afterRequests`, for any number of requests;
- `TokenStream.Reading.ending`, how the answer to a request ends the stream;
- `read_moves`, for all answers, and from it `next_nothing` and `next_advances`.
-/

namespace PegEngine

namespace TokenStream

variable {graph : Graph} {tokenizer : Tokenizer}

/-- The stream after a number of requests. -/
def afterRequests (graph : Graph) (tokenizer : Tokenizer) (stream : TokenStream) :
    Nat → TokenStream
  | 0 => stream
  | count + 1 => afterRequests graph tokenizer (stream.next graph tokenizer).stream count

theorem afterRequests_add (stream : TokenStream) (count more : Nat) :
    stream.afterRequests graph tokenizer (count + more) =
      (stream.afterRequests graph tokenizer count).afterRequests graph tokenizer more := by
  induction count generalizing stream with
  | zero => rw [Nat.zero_add]; rfl
  | succ count inductionHypothesis =>
      rw [Nat.add_right_comm]
      exact inductionHypothesis _

theorem next_of_finished {stream : TokenStream} (finished : stream.finished = true) :
    stream.next graph tokenizer = { answer := .ok none, stream, trace := [] } := by
  unfold next
  rw [if_pos finished]

theorem afterRequests_of_finished {stream : TokenStream} (finished : stream.finished = true)
    (count : Nat) : stream.afterRequests graph tokenizer count = stream := by
  induction count with
  | zero => rfl
  | succ count inductionHypothesis =>
      unfold afterRequests
      rw [next_of_finished finished]
      exact inductionHypothesis

/-- The answer to a request is a token, or the stream has ended. -/
theorem next_token_or_finished (stream : TokenStream) :
    (∃ token, (stream.next graph tokenizer).answer = .ok (some token)) ∨
      (stream.next graph tokenizer).stream.finished = true := by
  unfold next
  split
  · next finished => exact Or.inr finished
  · dsimp only
    split
    · next token answered => exact Or.inl ⟨token, answered⟩
    · exact Or.inr rfl

section Requests

variable {stream later : TokenStream}

/-- A reading that is no token ends the stream. -/
def Reading.ending (reading : Reading) : Reading :=
  match reading.answer with
  | .ok (some _) => reading
  | _ => { reading with stream := { reading.stream with finished := true } }

theorem Reading.answer_ending (reading : Reading) : reading.ending.answer = reading.answer := by
  unfold ending
  split <;> rfl

theorem Reading.stream_ending {reading : Reading}
    (nothing : ∀ token, reading.answer ≠ .ok (some token)) :
    reading.ending.stream = { reading.stream with finished := true } := by
  unfold ending
  split
  · next token answered => exact absurd answered (nothing token)
  · rfl

theorem next_eq_ending (goesOn : stream.finished = false) :
    stream.next graph tokenizer =
      (stream.read graph tokenizer (stream.input.text.length - stream.index)).ending := by
  unfold next
  rw [goesOn]
  rfl

/-! ## Skips -/

theorem Goes.of_skip (skips : stream.Goes graph tokenizer none later) :
    later.active = stream.active ∧ later.finished = stream.finished ∧
      stream.index < later.index := by
  cases skips.change with
  | skipped found progressed => exact ⟨rfl, rfl, progressed⟩

/-- Skips leave the active grammars as they are. -/
theorem Run.active_of_skips {events : List Event} (run : Run graph tokenizer stream events later)
    (areSkips : ∀ event ∈ events, event.token = none) : later.active = stream.active := by
  induction run with
  | done => rfl
  | @step stream next later token events goes _ inductionHypothesis =>
      have skip : token = none := areSkips ⟨stream, token, next⟩ List.mem_cons_self
      subst skip
      have rest := inductionHypothesis fun event member =>
        areSkips event (List.mem_cons_of_mem _ member)
      exact rest.trans goes.of_skip.1

theorem read_of_answer {reading : Reading} (moved : stream.move graph tokenizer = .answer reading)
    (left : Nat) : stream.read graph tokenizer left = reading := by
  unfold read
  rw [moved]

/-- Reading on passes over skips and then makes its answer of one position. The characters that are
left are enough for the skips. -/
theorem read_moves {left : Nat} (goesOn : stream.finished = false) (placed : stream.Placed)
    (enough : stream.input.text.length - stream.index ≤ left) :
    ∃ skips last reading, Run graph tokenizer stream skips last ∧
      (∀ event ∈ skips, event.token = none) ∧ last.Moves graph tokenizer (.answer reading) ∧
      (stream.read graph tokenizer left).answer = reading.answer ∧
      (stream.read graph tokenizer left).stream = reading.stream := by
  have moves := @moves graph tokenizer stream
  induction left generalizing stream with
  | zero =>
      cases moved : stream.move graph tokenizer with
      | answer reading =>
          rw [moved] at moves
          rw [read_of_answer moved]
          exact ⟨[], stream, reading, .done, nofun, moves, rfl, rfl⟩
      | skip next trace =>
          have skips : stream.Goes graph tokenizer none next := .skip goesOn moved
          obtain ⟨advances, placedNext⟩ := skips.advances placed
          have sameText : next.input.text = stream.input.text := advances.text
          have inside := placedNext.index
          have forth := skips.of_skip.2.2
          rw [sameText] at inside
          omega
  | succ left inductionHypothesis =>
      cases moved : stream.move graph tokenizer with
      | answer reading =>
          rw [moved] at moves
          rw [read_of_answer moved]
          exact ⟨[], stream, reading, .done, nofun, moves, rfl, rfl⟩
      | skip next trace =>
          have skips : stream.Goes graph tokenizer none next := .skip goesOn moved
          obtain ⟨advances, placedNext⟩ := skips.advances placed
          obtain ⟨_, sameFinished, forth⟩ := skips.of_skip
          have sameText : next.input.text = stream.input.text := advances.text
          have fewer : next.input.text.length - next.index ≤ left := by
            rw [sameText]
            omega
          obtain ⟨more, last, reading, run, areSkips, rest⟩ :=
            inductionHypothesis (sameFinished.trans goesOn) placedNext fewer next.moves
          unfold read
          rw [moved]
          refine ⟨⟨stream, none, next⟩ :: more, last, reading, .step skips run, ?_, rest⟩
          intro event member
          rcases List.mem_cons.mp member with same | member
          · rw [same]
          · exact areSkips event member

/-! ## Answers -/

/-- A stream that has only moved its position forth is placed, too. -/
theorem Placed.further (placed : stream.Placed) (text : later.input.text = stream.input.text)
    (active : later.active = stream.active) (forth : stream.index ≤ later.index)
    (inside : later.index ≤ stream.input.text.length) : later.Placed where
  index := text ▸ inside
  opened level member position opened :=
    Nat.le_trans (placed.opened level (active ▸ member) position opened) forth

/-- A request that is not answered with a token ends the stream. It may pass over skips before. -/
theorem next_nothing (placed : stream.Placed)
    (nothing : ∀ token, (stream.next graph tokenizer).answer ≠ .ok (some token)) :
    let later := (stream.next graph tokenizer).stream
    later.finished = true ∧ later.active = stream.active ∧
      later.input.text = stream.input.text ∧ stream.index ≤ later.index ∧
      later.index ≤ stream.input.text.length := by
  cases goesOn : stream.finished with
  | true =>
      rw [next_of_finished goesOn]
      exact ⟨goesOn, rfl, rfl, Nat.le_refl _, placed.index⟩
  | false =>
      obtain ⟨skips, last, reading, run, areSkips, moves, answer, same⟩ :=
        @read_moves graph tokenizer stream (stream.input.text.length - stream.index) goesOn placed
          (Nat.le_refl _)
      obtain ⟨placedLast, forth, text⟩ := run.advances placed
      have active := run.active_of_skips areSkips
      have inside : last.index ≤ stream.input.text.length := text ▸ placedLast.index
      have noToken : ∀ token, reading.answer ≠ .ok (some token) := by
        rw [next_eq_ending goesOn, Reading.answer_ending, answer] at nothing
        exact nothing
      have ended : (stream.next graph tokenizer).stream =
          { reading.stream with finished := true } := by
        rw [next_eq_ending goesOn, Reading.stream_ending (answer ▸ noToken), same]
      rw [ended]
      cases moves with
      | closed | token | switched => exact absurd rfl (noToken _)
      | failed sameText | unmatched sameText =>
          exact ⟨rfl, active, sameText.trans text, forth, inside⟩
      | missing _ decides _ _ sameText | stalled _ decides _ _ sameText =>
          have within := Finds.within decides.found placedLast
          exact ⟨rfl, active, sameText.trans text, Nat.le_trans forth within.le_stop,
            text ▸ within.stop⟩

/-- A request takes the stream forth in its text, and its token, if there is one, up to the new
position. -/
theorem next_advances (placed : stream.Placed) :
    let reading := stream.next graph tokenizer
    reading.stream.Placed ∧ reading.stream.input.text = stream.input.text ∧
      stream.index ≤ reading.stream.index ∧
      ∀ token, reading.answer = .ok (some token) →
        token.result.Within stream.input.text stream.index ∧
          token.result.stop = reading.stream.index := by
  by_cases answered : ∃ token, (stream.next graph tokenizer).answer = .ok (some token)
  · obtain ⟨token, answered⟩ := answered
    obtain ⟨skips, last, run, _, goes⟩ := next_goes answered
    obtain ⟨placedLast, forth, text⟩ := run.advances placed
    obtain ⟨advances, placedLater⟩ := goes.advances placedLast
    refine ⟨placedLater, advances.text.trans text, Nat.le_trans forth advances.forth, ?_⟩
    intro other same
    cases answered.symm.trans same
    obtain ⟨within, stop⟩ := advances.token token rfl
    exact ⟨⟨Nat.le_trans forth within.start, within.order, text ▸ within.stop⟩, stop⟩
  · have nothing : ∀ token, (stream.next graph tokenizer).answer ≠ .ok (some token) :=
      fun token same => answered ⟨token, same⟩
    obtain ⟨_, active, text, forth, inside⟩ := next_nothing placed nothing
    exact ⟨placed.further text active forth inside, text, forth,
      fun token same => absurd same (nothing token)⟩

theorem placed_afterRequests (placed : stream.Placed) (count : Nat) :
    (stream.afterRequests graph tokenizer count).Placed ∧
      (stream.afterRequests graph tokenizer count).input.text = stream.input.text := by
  induction count generalizing stream with
  | zero => exact ⟨placed, rfl⟩
  | succ count inductionHypothesis =>
      obtain ⟨placedNext, text, _⟩ := @next_advances graph tokenizer stream placed
      obtain ⟨placedLater, same⟩ := inductionHypothesis placedNext
      exact ⟨placedLater, same.trans text⟩

end Requests

end TokenStream

end PegEngine
