import PegEngine.Proofs.Tokenizer.Requests

/-!
Contract: the rest of a stream of tokens does not depend on what came before.

The input of a stream is used over and over: what an attempt has bound stays in it until the next
attempt, whether the attempt has led to a token or not. Clearing the bindings changes nothing of
what the stream does, so all that counts is the text, the position, and the active grammars.

Owns:
- `TokenStream.cleared`, a stream without what attempts have left in its input;
- one lemma for each step of a stream, up to `next_cleared` and `next_afterRequests_cleared`;
- `TokenStream.Rooted`, that the outermost grammar stays as it was;
- `Tokenizer.tokens_resume`.
-/

namespace PegEngine

namespace TokenStream

variable {graph : Graph} {tokenizer : Tokenizer}

/-- The stream without what attempts have left in its input. -/
def cleared (stream : TokenStream) : TokenStream :=
  { stream with input := { text := stream.input.text } }

def Reading.cleared (reading : Reading) : Reading :=
  { reading with stream := reading.stream.cleared }

def Move.cleared : Move → Move
  | .answer reading => .answer reading.cleared
  | .skip stream trace => .skip stream.cleared trace

theorem Reading.cleared_after (trace : List TraceEntry) (reading : Reading) :
    (reading.after trace).cleared = reading.cleared.after trace := rfl

/-! ## One request -/

/-- The first attempt clears the input anyway, so there is nothing to clear unless there are no
rules at all. -/
theorem moveByRules_cleared (stream : TokenStream) (grammar : Grammar) :
    (stream.cleared.moveByRules graph tokenizer grammar).cleared =
      (stream.moveByRules graph tokenizer grammar).cleared := by
  unfold moveByRules
  cases grammar.rules <;> rfl

theorem move_cleared (stream : TokenStream) :
    (stream.cleared.move graph tokenizer).cleared = (stream.move graph tokenizer).cleared := by
  obtain ⟨input, index, active, finished⟩ := stream
  cases active with
  | nil => rfl
  | cons level outer =>
      obtain ⟨grammar, stop, openedEmptyAt⟩ := level
      cases stop with
      | none => exact moveByRules_cleared ⟨input, index, _, finished⟩ grammar
      | some stop => rfl

/-- Moves that are the same once they are cleared are of the same form. -/
theorem Move.cleared_inj {move other : Move} (same : move.cleared = other.cleared) :
    (∃ reading otherReading, move = .answer reading ∧ other = .answer otherReading ∧
      reading.cleared = otherReading.cleared) ∨
    ∃ stream otherStream trace, move = .skip stream trace ∧ other = .skip otherStream trace ∧
      stream.cleared = otherStream.cleared := by
  cases move with
  | answer reading =>
      cases other with
      | answer otherReading =>
          exact Or.inl ⟨reading, otherReading, rfl, rfl, Move.answer.inj same⟩
      | skip => cases same
  | skip stream trace =>
      cases other with
      | answer => cases same
      | skip otherStream otherTrace =>
          obtain ⟨sameStream, sameTrace⟩ := Move.skip.inj same
          subst sameTrace
          exact Or.inr ⟨stream, otherStream, trace, rfl, rfl, sameStream⟩

theorem read_cleared (stream : TokenStream) (left : Nat) :
    (stream.cleared.read graph tokenizer left).cleared =
      (stream.read graph tokenizer left).cleared := by
  induction left generalizing stream with
  | zero =>
      unfold read
      rcases Move.cleared_inj (@move_cleared graph tokenizer stream) with
        ⟨reading, other, cleared, moved, same⟩ | ⟨later, other, trace, cleared, moved, same⟩
      · rw [cleared, moved]
        exact same
      · rw [cleared, moved]
        exact congrArg (fun stream => Reading.mk (.ok none) stream trace) same
  | succ left inductionHypothesis =>
      unfold read
      rcases Move.cleared_inj (@move_cleared graph tokenizer stream) with
        ⟨reading, other, cleared, moved, same⟩ | ⟨later, other, trace, cleared, moved, same⟩
      · rw [cleared, moved]
        exact same
      · rw [cleared, moved]
        dsimp only
        rw [Reading.cleared_after, Reading.cleared_after, ← inductionHypothesis later, same,
          inductionHypothesis other]

theorem Reading.cleared_ending (reading : Reading) :
    reading.ending.cleared = reading.cleared.ending := by
  obtain ⟨answer, stream, trace⟩ := reading
  cases answer with
  | error error => rfl
  | ok outcome => cases outcome <;> rfl

/-- A request does not depend on the bindings in the input. -/
theorem next_cleared (stream : TokenStream) :
    (stream.cleared.next graph tokenizer).cleared = (stream.next graph tokenizer).cleared := by
  cases goesOn : stream.finished with
  | true =>
      have finished : stream.cleared.finished = true := goesOn
      rw [next_of_finished goesOn, next_of_finished finished]
      rfl
  | false =>
      have stillGoesOn : stream.cleared.finished = false := goesOn
      rw [next_eq_ending goesOn, next_eq_ending stillGoesOn, Reading.cleared_ending,
        Reading.cleared_ending]
      exact congrArg Reading.ending (read_cleared stream _)

/-! ## Any number of requests -/

section Requests

variable {stream other : TokenStream}

theorem afterRequests_cleared (same : stream.cleared = other.cleared) (count : Nat) :
    (stream.afterRequests graph tokenizer count).cleared =
      (other.afterRequests graph tokenizer count).cleared := by
  induction count generalizing stream other with
  | zero => exact same
  | succ count inductionHypothesis =>
      refine inductionHypothesis ?_
      have next := @next_cleared graph tokenizer stream
      rw [same, next_cleared] at next
      exact (congrArg Reading.stream next).symm

/-- Streams that differ in the bindings in their inputs only give the same answers to all
requests, with the same trace, and have the same position and active grammars all along. -/
theorem next_afterRequests_cleared (same : stream.cleared = other.cleared) (count : Nat) :
    ((stream.afterRequests graph tokenizer count).next graph tokenizer).cleared =
      ((other.afterRequests graph tokenizer count).next graph tokenizer).cleared := by
  rw [← next_cleared, afterRequests_cleared same, next_cleared]

end Requests

/-! ## The initial grammar -/

section Rooted

variable {start stream later : TokenStream} {token : Option Token}

/-- The outermost grammar is active until the stream ends. -/
def Rooted (start stream : TokenStream) : Prop :=
  stream.finished = true ∨ stream.active.getLast? = start.active.getLast?

theorem Goes.rooted (goes : stream.Goes graph tokenizer token later)
    (rooted : start.Rooted stream) : start.Rooted later := by
  have outermost : stream.active.getLast? = start.active.getLast? :=
    rooted.resolve_left (by rw [goes.goesOn]; exact nofun)
  cases goes.change with
  | @closed level outer stop m input active =>
      cases outer with
      | nil => exact Or.inl rfl
      | cons next others =>
          rw [active, List.getLast?_cons_cons] at outermost
          exact Or.inr outermost
  | switched active =>
      right
      rw [active] at outermost ⊢
      exact outermost
  | plain | skipped => exact Or.inr outermost

theorem Run.rooted {events : List Event} (run : Run graph tokenizer stream events later)
    (rooted : start.Rooted stream) : start.Rooted later := by
  induction run with
  | done => exact rooted
  | step goes _ inductionHypothesis => exact inductionHypothesis (goes.rooted rooted)

theorem rooted_afterRequests (rooted : start.Rooted stream) (count : Nat) :
    start.Rooted (stream.afterRequests graph tokenizer count) := by
  induction count generalizing stream with
  | zero => exact rooted
  | succ count inductionHypothesis =>
      refine inductionHypothesis ?_
      rcases stream.next_token_or_finished with ⟨token, answered⟩ | finished
      · obtain ⟨skips, last, run, _, goes⟩ := next_goes answered
        exact goes.rooted (run.rooted rooted)
      · exact Or.inl finished

/-- A single grammar that is active is the outermost one. -/
theorem Rooted.active_eq (rooted : start.Rooted stream) (goesOn : stream.finished = false)
    (few : start.active.length ≤ 1) (single : stream.active.length = 1) :
    stream.active = start.active := by
  have outermost : stream.active.getLast? = start.active.getLast? :=
    rooted.resolve_left (by rw [goesOn]; exact nofun)
  obtain ⟨level, only⟩ := List.length_eq_one_iff.mp single
  rw [only] at outermost ⊢
  cases active : start.active with
  | nil =>
      rw [active] at outermost
      cases outermost
  | cons base others =>
      rw [active, List.length_cons] at few
      have alone : others = [] := List.length_eq_zero_iff.mp (by omega)
      rw [active, alone] at outermost
      rw [alone]
      exact congrArg (fun level => [level]) (Option.some.inj outermost)

end Rooted

end TokenStream

open TokenStream

/-- A stream that stands at a position of its text with the initial grammar only is, but for the
bindings in its input, a stream that starts there. -/
theorem Tokenizer.tokens_index {tokenizer : Tokenizer} {text : Text} {offset : Int}
    {start : TokenStream} {trace : List TraceEntry}
    (begins : tokenizer.tokens text offset = .ok (start, trace)) {here : TokenStream}
    (goesOn : here.finished = false) (sameText : here.input.text = text)
    (inside : here.index ≤ text.length) (active : here.active = start.active) :
    ∃ entered, tokenizer.tokens text here.index = .ok (here.cleared, entered) := by
  have again : ({ input := { text }, index := here.index, active := start.active } :
      TokenStream) = here.cleared := by
    unfold cleared
    rw [sameText, goesOn, active]
  unfold tokens Text.index at begins ⊢
  rw [Text.position?_natCast inside]
  split at begins
  · cases begins
  · split at begins <;> cases begins
    · exact ⟨_, congrArg (fun stream => Except.ok (stream, _)) again⟩
    · exact ⟨_, congrArg (fun stream => Except.ok (stream, _)) again⟩

theorem Tokenizer.active_of_tokens {tokenizer : Tokenizer} {text : Text} {offset : Int}
    {start : TokenStream} {trace : List TraceEntry}
    (begins : tokenizer.tokens text offset = .ok (start, trace)) : start.active.length ≤ 1 := by
  unfold tokens at begins
  split at begins
  · cases begins
  · split at begins <;> cases begins
    · exact Nat.le_refl 1
    · exact Nat.zero_le 1

/-- Tokens do not depend on the past. A stream that goes on with no active grammar but the initial
one answers all requests as a stream does that starts at its position, with the same trace, and
has the same positions and active grammars from then on. The rest of any stream depends on nothing
but the text, the position, the active grammars, and whether it has ended. -/
theorem Tokenizer.tokens_resume {graph : Graph} {tokenizer : Tokenizer} {text : Text}
    {offset : Int} {start : TokenStream} {trace : List TraceEntry}
    (begins : tokenizer.tokens text offset = .ok (start, trace)) :
    (∀ count,
      let here := start.afterRequests graph tokenizer count
      here.finished = false → here.active.map (·.grammar.name) = [tokenizer.initial] →
        ∃ fresh entered, tokenizer.tokens text here.index = .ok (fresh, entered) ∧
          ∀ more, ((here.afterRequests graph tokenizer more).next graph tokenizer).cleared =
            ((fresh.afterRequests graph tokenizer more).next graph tokenizer).cleared) ∧
    ∀ stream other : TokenStream, stream.input.text = other.input.text →
      stream.index = other.index → stream.active = other.active →
      stream.finished = other.finished →
        ∀ more, ((stream.afterRequests graph tokenizer more).next graph tokenizer).cleared =
          ((other.afterRequests graph tokenizer more).next graph tokenizer).cleared := by
  refine ⟨fun count goesOn onlyInitial => ?_, fun stream other text index active finished => ?_⟩
  · obtain ⟨placed, sameText, _⟩ := tokenizer.placed_of_tokens begins
    obtain ⟨placedHere, textHere⟩ := @placed_afterRequests graph tokenizer start placed count
    have rooted := @rooted_afterRequests graph tokenizer start start (Or.inr rfl) count
    have single := congrArg List.length onlyInitial
    rw [List.length_map] at single
    have active := rooted.active_eq goesOn (active_of_tokens begins) single
    obtain ⟨entered, begun⟩ := tokens_index begins goesOn (textHere.trans sameText)
      ((textHere.trans sameText) ▸ placedHere.index) active
    exact ⟨_, entered, begun, next_afterRequests_cleared rfl⟩
  · refine next_afterRequests_cleared ?_
    unfold cleared
    rw [text, index, active, finished]

/-- A letter that is bound to a name, which every token does anew. -/
def boundLetter : Graph where
  slots := #[
    some { kind := .literal ['a'] },
    some { kind := .backCapture "letter" 0 none, name := some "bound" }]

def boundLetters : Tokenizer where
  grammars := [{ name := "main", rules := [.token 1] }]
  initial := "main"

theorem Tokenizer.tokens_resume_boundLetters :
    ∃ start trace, boundLetters.tokens (.ofString "aaa") 0 = .ok (start, trace) ∧
      (start.afterRequests boundLetter boundLetters 2).input.bindings.count = 1 ∧
      ∃ fresh entered, boundLetters.tokens (.ofString "aaa") 2 = .ok (fresh, entered) ∧
        ∀ more, ((start.afterRequests boundLetter boundLetters (2 + more)).next boundLetter
            boundLetters).answer =
          ((fresh.afterRequests boundLetter boundLetters more).next boundLetter
            boundLetters).answer := by
  let start : TokenStream :=
    { input := { text := .ofString "aaa" }, index := 0
      active := [⟨{ name := "main", rules := [.token 1] }, none, none⟩] }
  have begins : boundLetters.tokens (.ofString "aaa") 0 = .ok (start, [entering "main" 0]) := rfl
  have position : (start.afterRequests boundLetter boundLetters 2).index = 2 := by decide +kernel
  obtain ⟨fresh, entered, begun, same⟩ :=
    (@tokens_resume boundLetter boundLetters _ _ _ _ begins).1 2 (by decide +kernel)
      (by decide +kernel)
  rw [position] at begun
  refine ⟨start, _, begins, by decide +kernel, fresh, entered, begun, fun more => ?_⟩
  rw [afterRequests_add]
  have sameAnswer := congrArg Reading.answer (same more)
  exact sameAnswer

end PegEngine
