import PegEngine.Proofs.Matching.Spans
import PegEngine.Tokenizer.Stream

/-!
Contract: what a stream of tokens does from one move to the next.

At a position the stream passes over a skip or yields a token, and each request for a token is a
number of skips with a token behind them. A token closes the innermost grammar, switches to another
one, or leaves the active grammars as they are.

Owns:
- `TokenStream.Moves`, all that one move can be;
- `TokenStream.Goes`, one move of a stream that goes on, and `TokenStream.Change`, all that such a
  move can do;
- `TokenStream.Run`, any number of moves, and `next_goes`, the run of one request;
- `TokenStream.Placed`, what holds of position and active grammars all along a run.
-/

namespace PegEngine

/-- Matching a pattern leaves the text as it is. -/
theorem Graph.text_matchIn (graph : Graph) (pattern : PatternId) (input : Input) (index : Nat)
    (context : Context) : (graph.matchIn pattern input index context).input.text = input.text := by
  unfold matchIn
  split <;> rfl

namespace TokenStream

variable {graph : Graph} {tokenizer : Tokenizer}

/-! ## One move -/

/-- What an attempt at a pattern answers. It depends on nothing but the text and the position. -/
def answerAt (graph : Graph) (config : MatchConfig) (text : Text) (index : Nat)
    (pattern : PatternId) : Except MatchError (Option Match) :=
  (graph.matchIn pattern { text } index { config }).result

/-- The pattern matches at the position of the stream. -/
def Finds (graph : Graph) (tokenizer : Tokenizer) (stream : TokenStream) (pattern : PatternId)
    (m : Match) : Prop :=
  answerAt graph tokenizer.config stream.input.text stream.index pattern = .ok (some m)

/-- At a position of the text, a rule of the active grammar is the first that matches, and the end
pattern does not match there. -/
structure Decides (graph : Graph) (tokenizer : Tokenizer) (text : Text) (index : Nat)
    (level : Active) (rule : Rule) (m : Match) : Prop where
  stop : ∀ stop, level.stop = some stop → answerAt graph tokenizer.config text index stop = .ok none
  first : ∃ before after, level.grammar.rules = before ++ rule :: after ∧
    ∀ other ∈ before, answerAt graph tokenizer.config text index other.pattern = .ok none
  found : answerAt graph tokenizer.config text index rule.pattern = .ok (some m)

theorem Decides.member {text : Text} {index : Nat} {level : Active} {rule : Rule} {m : Match}
    (decides : Decides graph tokenizer text index level rule m) : rule ∈ level.grammar.rules := by
  obtain ⟨before, after, split, _⟩ := decides.first
  simp [split]

theorem text_attempt (config : MatchConfig) (pattern : PatternId) (stream : TokenStream) :
    (stream.attempt graph config pattern).input.text = stream.input.text :=
  graph.text_matchIn ..

/-- One move of a stream that goes on: it passes over a skip, or it yields a token. -/
inductive Goes (graph : Graph) (tokenizer : Tokenizer) (stream : TokenStream) :
    Option Token → TokenStream → Prop where
  | skip {later : TokenStream} {trace : List TraceEntry} (goesOn : stream.finished = false)
      (moved : stream.move graph tokenizer = .skip later trace) :
      Goes graph tokenizer stream none later
  | yield {reading : Reading} {token : Token} (goesOn : stream.finished = false)
      (moved : stream.move graph tokenizer = .answer reading)
      (answer : reading.answer = .ok (some token)) :
      Goes graph tokenizer stream (some token) reading.stream

/-- All that a move of a stream that goes on can do. The bindings that attempts leave in the input
are of no account. -/
inductive Change (graph : Graph) (tokenizer : Tokenizer) (stream : TokenStream) :
    Option Token → TokenStream → Prop where
  | closed {level : Active} {outer : List Active} {stop : PatternId} {m : Match} {input : Input}
      (active : stream.active = level :: outer) (ends : level.stop = some stop)
      (found : stream.Finds graph tokenizer stop m) (sameText : input.text = stream.input.text) :
      Change graph tokenizer stream (some (token graph stop m))
        { input, index := m.stop, active := outer,
          finished := outer.isEmpty ||
            (m.stop == stream.index && level.openedEmptyAt == some stream.index) }
  | switched {level : Active} {outer : List Active} {rule : Rule} {grammar : String}
      {stop : PatternId} {next : Grammar} {m : Match} {input : Input}
      (active : stream.active = level :: outer)
      (decides : Decides graph tokenizer stream.input.text stream.index level rule m)
      (kind : rule.kind = .switch grammar stop) (known : tokenizer.grammar? grammar = some next)
      (sameText : input.text = stream.input.text) :
      Change graph tokenizer stream (some (token graph rule.pattern m))
        { stream with
          input, index := m.stop
          active :=
            { grammar := next, stop := some stop,
              openedEmptyAt := if stream.index < m.stop then none else some m.stop } ::
              stream.active }
  | plain {level : Active} {outer : List Active} {rule : Rule} {m : Match} {input : Input}
      (active : stream.active = level :: outer)
      (decides : Decides graph tokenizer stream.input.text stream.index level rule m)
      (sameText : input.text = stream.input.text) :
      Change graph tokenizer stream (some (token graph rule.pattern m))
        { stream with input, index := m.stop, finished := m.stop ≤ stream.index }
  | skipped {pattern : PatternId} {m : Match} {input : Input}
      (found : stream.Finds graph tokenizer pattern m) (progressed : stream.index < m.stop)
      (sameText : input.text = stream.input.text) :
      Change graph tokenizer stream none
        { stream with input, index := m.stop }

/-- A pattern that the innermost active grammar has for the position: its end pattern, or the
pattern of one of its rules. -/
def Tries (stream : TokenStream) (pattern : PatternId) : Prop :=
  ∃ level outer, stream.active = level :: outer ∧
    (level.stop = some pattern ∨ ∃ rule ∈ level.grammar.rules, rule.pattern = pattern)

/-- All that a stream can make of its position, goes on or not. -/
inductive Moves (graph : Graph) (tokenizer : Tokenizer) (stream : TokenStream) : Move → Prop where
  | failed {error : MatchError} {input : Input} {trace : List TraceEntry} {pattern : PatternId}
      (sameText : input.text = stream.input.text) (tries : stream.Tries pattern)
      (broken : answerAt graph tokenizer.config stream.input.text stream.index pattern =
        .error error) :
      Moves graph tokenizer stream
        (.answer { answer := .error error, stream := { stream with input }, trace })
  | unmatched {input : Input} {trace : List TraceEntry}
      (sameText : input.text = stream.input.text)
      (nothing : ∀ pattern, stream.Tries pattern →
        answerAt graph tokenizer.config stream.input.text stream.index pattern = .ok none) :
      Moves graph tokenizer stream
        (.answer { answer := .ok none, stream := { stream with input }, trace })
  | closed {level : Active} {outer : List Active} {stop : PatternId} {m : Match} {input : Input}
      {trace : List TraceEntry} (active : stream.active = level :: outer)
      (ends : level.stop = some stop) (found : stream.Finds graph tokenizer stop m)
      (sameText : input.text = stream.input.text) :
      Moves graph tokenizer stream
        (.answer
          { answer := .ok (some (TokenStream.token graph stop m))
            stream :=
              { input, index := m.stop, active := outer,
                finished := outer.isEmpty ||
                  (m.stop == stream.index && level.openedEmptyAt == some stream.index) }
            trace })
  | token {level : Active} {outer : List Active} {rule : Rule} {m : Match} {input : Input}
      {trace : List TraceEntry} (active : stream.active = level :: outer)
      (decides : Decides graph tokenizer stream.input.text stream.index level rule m)
      (kind : rule.kind = .token) (sameText : input.text = stream.input.text) :
      Moves graph tokenizer stream
        (.answer
          { answer := .ok (some (TokenStream.token graph rule.pattern m))
            stream := { stream with input, index := m.stop, finished := m.stop ≤ stream.index }
            trace })
  | switched {level : Active} {outer : List Active} {rule : Rule} {grammar : String}
      {stop : PatternId} {next : Grammar} {m : Match} {input : Input} {trace : List TraceEntry}
      (active : stream.active = level :: outer)
      (decides : Decides graph tokenizer stream.input.text stream.index level rule m)
      (kind : rule.kind = .switch grammar stop) (known : tokenizer.grammar? grammar = some next)
      (sameText : input.text = stream.input.text) :
      Moves graph tokenizer stream
        (.answer
          { answer := .ok (some (TokenStream.token graph rule.pattern m))
            stream :=
              { stream with
                input, index := m.stop
                active :=
                  { grammar := next, stop := some stop,
                    openedEmptyAt := if stream.index < m.stop then none else some m.stop } ::
                    stream.active }
            trace })
  /-- A switch rule to a grammar that the tokenizer does not have. -/
  | missing {level : Active} {outer : List Active} {rule : Rule} {grammar : String}
      {stop : PatternId} {m : Match} {input : Input} {trace : List TraceEntry}
      (active : stream.active = level :: outer)
      (decides : Decides graph tokenizer stream.input.text stream.index level rule m)
      (kind : rule.kind = .switch grammar stop) (unknown : tokenizer.grammar? grammar = none)
      (sameText : input.text = stream.input.text) :
      Moves graph tokenizer stream
        (.answer { answer := .ok none, stream := { stream with input, index := m.stop }, trace })
  | skipped {level : Active} {outer : List Active} {rule : Rule} {m : Match} {input : Input}
      {trace : List TraceEntry} (active : stream.active = level :: outer)
      (decides : Decides graph tokenizer stream.input.text stream.index level rule m)
      (kind : rule.kind = .skip) (progressed : stream.index < m.stop)
      (sameText : input.text = stream.input.text) :
      Moves graph tokenizer stream (.skip { stream with input, index := m.stop } trace)
  /-- A skip that takes no character. -/
  | stalled {level : Active} {outer : List Active} {rule : Rule} {m : Match} {input : Input}
      {trace : List TraceEntry} (active : stream.active = level :: outer)
      (decides : Decides graph tokenizer stream.input.text stream.index level rule m)
      (kind : rule.kind = .skip) (stays : ¬ stream.index < m.stop)
      (sameText : input.text = stream.input.text) :
      Moves graph tokenizer stream
        (.answer { answer := .ok none, stream := { stream with input, index := m.stop }, trace })

theorem Moves.after {stream : TokenStream} {move : Move} (moves : stream.Moves graph tokenizer move)
    (trace : List TraceEntry) : stream.Moves graph tokenizer (move.after trace) := by
  cases moves with
  | failed sameText tries broken => exact .failed sameText tries broken
  | unmatched sameText nothing => exact .unmatched sameText nothing
  | closed active ends found sameText => exact .closed active ends found sameText
  | token active decides kind sameText => exact .token active decides kind sameText
  | switched active decides kind known sameText =>
      exact .switched active decides kind known sameText
  | missing active decides kind unknown sameText =>
      exact .missing active decides kind unknown sameText
  | skipped active decides kind progressed sameText =>
      exact .skipped active decides kind progressed sameText
  | stalled active decides kind stays sameText => exact .stalled active decides kind stays sameText

/-- A rule that is found by a search matches, and none before it does. -/
theorem search_found {stream : TokenStream} {rules : List Rule} {rule : Rule} {m : Match}
    (found : (stream.search graph tokenizer.config rules).result = .ok (some (rule, m))) :
    (∃ before after, rules = before ++ rule :: after ∧ ∀ other ∈ before,
      answerAt graph tokenizer.config stream.input.text stream.index other.pattern = .ok none) ∧
    stream.Finds graph tokenizer rule.pattern m := by
  induction rules generalizing stream with
  | nil => cases found
  | cons first rest inductionHypothesis =>
      unfold search at found
      dsimp only at found
      split at found
      · cases found
      · next matched =>
          cases found
          exact ⟨⟨[], rest, rfl, nofun⟩, matched⟩
      · next failed =>
          obtain ⟨⟨before, after, split, fail⟩, finds⟩ := inductionHypothesis found
          unfold Finds at finds ⊢
          rw [text_attempt] at fail finds
          refine ⟨⟨first :: before, after, by rw [split]; rfl, fun other member => ?_⟩, finds⟩
          rcases List.mem_cons.mp member with same | member
          · exact same ▸ failed
          · exact fail other member

/-- A search finds nothing when no rule matches. -/
theorem search_nothing {stream : TokenStream} {rules : List Rule}
    (nothing : (stream.search graph tokenizer.config rules).result = .ok none) :
    ∀ rule ∈ rules,
      answerAt graph tokenizer.config stream.input.text stream.index rule.pattern = .ok none := by
  induction rules generalizing stream with
  | nil => nofun
  | cons first rest inductionHypothesis =>
      unfold search at nothing
      dsimp only at nothing
      split at nothing
      · cases nothing
      · cases nothing
      · next failed =>
          have later := inductionHypothesis nothing
          rw [text_attempt] at later
          intro rule member
          rcases List.mem_cons.mp member with same | member
          · exact same ▸ failed
          · exact later rule member

/-- The error of a search is that of a rule. -/
theorem search_failed {stream : TokenStream} {rules : List Rule} {error : MatchError}
    (broken : (stream.search graph tokenizer.config rules).result = .error error) :
    ∃ rule ∈ rules,
      answerAt graph tokenizer.config stream.input.text stream.index rule.pattern =
        .error error := by
  induction rules generalizing stream with
  | nil => cases broken
  | cons first rest inductionHypothesis =>
      unfold search at broken
      dsimp only at broken
      split at broken
      · next failed =>
          cases broken
          exact ⟨first, List.mem_cons_self, failed⟩
      · cases broken
      · obtain ⟨rule, member, failed⟩ := inductionHypothesis broken
        rw [text_attempt] at failed
        exact ⟨rule, List.mem_cons_of_mem first member, failed⟩

theorem text_search (config : MatchConfig) (stream : TokenStream) (rules : List Rule) :
    (stream.search graph config rules).input.text = stream.input.text := by
  induction rules generalizing stream with
  | nil => rfl
  | cons first rest inductionHypothesis =>
      unfold search
      dsimp only
      split
      · exact text_attempt ..
      · exact text_attempt ..
      · exact (inductionHypothesis _).trans (text_attempt ..)

section Inversion

variable {stream : TokenStream}

/-- The rules of the innermost grammar decide. The end pattern may have been tried before, which
leaves its mark on the input only. -/
theorem moveByRules_moves {level : Active} {outer : List Active} {input : Input}
    (active : stream.active = level :: outer)
    (stopFails : ∀ stop, level.stop = some stop →
      answerAt graph tokenizer.config stream.input.text stream.index stop = .ok none)
    (sameText : input.text = stream.input.text) :
    stream.Moves graph tokenizer
      (({ stream with input } : TokenStream).moveByRules graph tokenizer level.grammar) := by
  unfold moveByRules
  dsimp only
  have textAfter := (@text_search graph tokenizer.config { stream with input }
    level.grammar.rules).trans sameText
  split
  · next error broken =>
      obtain ⟨rule, member, failed⟩ := search_failed broken
      rw [sameText] at failed
      exact .failed textAfter ⟨level, outer, active, Or.inr ⟨rule, member, rfl⟩⟩ failed
  · next unfound =>
      have noRule := search_nothing unfound
      rw [sameText] at noRule
      refine .unmatched textAfter ?_
      rintro pattern ⟨other, others, same, ends | ⟨rule, member, rfl⟩⟩
      · cases active.symm.trans same
        exact stopFails pattern ends
      · cases active.symm.trans same
        exact noRule rule member
  · next rule m found =>
      obtain ⟨first, finds⟩ := search_found found
      unfold Finds at finds
      rw [sameText] at first finds
      have decides : Decides graph tokenizer stream.input.text stream.index level rule m :=
        ⟨stopFails, first, finds⟩
      refine Moves.after ?_ _
      unfold apply
      split
      · next kind => exact .token active decides kind textAfter
      · next grammar stop kind =>
          unfold enter
          split
          · next unknown => exact .missing active decides kind unknown textAfter
          · next next known => exact .switched active decides kind known textAfter
      · next kind =>
          dsimp only
          split
          · next progressed => exact .skipped active decides kind progressed textAfter
          · next stays => exact .stalled active decides kind stays textAfter

theorem moves (stream : TokenStream) :
    stream.Moves graph tokenizer (stream.move graph tokenizer) := by
  unfold move
  split
  · next none =>
      refine .unmatched rfl ?_
      rintro pattern ⟨level, outer, same, _⟩
      cases none.symm.trans same
  · next level outer active =>
      split
      · next noStop =>
          exact moveByRules_moves active (fun stop ends => nomatch noStop.symm.trans ends) rfl
      · next stop ends =>
          have text := @text_attempt graph tokenizer.config stop stream
          dsimp only
          split
          · next error broken =>
              exact .failed text ⟨level, outer, active, Or.inl ends⟩ broken
          · next m found => exact .closed active ends found text
          · next failed =>
              refine (moveByRules_moves active (fun other same => ?_) text).after _
              cases ends.symm.trans same
              exact failed

/-- A stream that goes on changes in one of four ways. -/
theorem Goes.change {token : Option Token} {later : TokenStream}
    (goes : stream.Goes graph tokenizer token later) :
    stream.Change graph tokenizer token later := by
  have moves := @moves graph tokenizer stream
  cases goes with
  | skip goesOn moved =>
      rw [moved] at moves
      cases moves with
      | skipped active decides kind progressed sameText =>
          exact .skipped decides.found progressed sameText
  | yield goesOn moved answer =>
      rw [moved] at moves
      cases moves with
      | closed active ends found sameText =>
          cases answer
          exact .closed active ends found sameText
      | token active decides kind sameText =>
          cases answer
          exact .plain active decides sameText
      | switched active decides kind known sameText =>
          cases answer
          exact .switched active decides kind known sameText
      | failed | unmatched | missing | stalled => cases answer

theorem Goes.goesOn {token : Option Token} {later : TokenStream}
    (goes : stream.Goes graph tokenizer token later) : stream.finished = false := by
  cases goes with
  | skip goesOn | yield goesOn => exact goesOn

end Inversion

/-! ## Runs -/

/-- A move with the stream before it, the token that it yields if it is no skip, and the stream
after it. -/
structure Event where
  before : TokenStream
  token : Option Token
  after : TokenStream

/-- The moves that lead from one stream to a later one. -/
inductive Run (graph : Graph) (tokenizer : Tokenizer) :
    TokenStream → List Event → TokenStream → Prop where
  | done {stream : TokenStream} : Run graph tokenizer stream [] stream
  | step {stream next later : TokenStream} {token : Option Token} {events : List Event}
      (goes : stream.Goes graph tokenizer token next)
      (rest : Run graph tokenizer next events later) :
      Run graph tokenizer stream (⟨stream, token, next⟩ :: events) later

/-- A finished stream does not go on. -/
theorem Run.of_finished {stream later : TokenStream} {events : List Event}
    (run : Run graph tokenizer stream events later) (finished : stream.finished = true) :
    events = [] ∧ later = stream := by
  cases run with
  | done => exact ⟨rfl, rfl⟩
  | step goes rest =>
      rw [goes.goesOn] at finished
      cases finished

theorem read_goes {left : Nat} {stream : TokenStream} {token : Token}
    (goesOn : stream.finished = false)
    (answered : (stream.read graph tokenizer left).answer = .ok (some token)) :
    ∃ skips last, Run graph tokenizer stream skips last ∧ (∀ event ∈ skips, event.token = none) ∧
      last.Goes graph tokenizer (some token) (stream.read graph tokenizer left).stream := by
  induction left generalizing stream with
  | zero =>
      unfold read at answered ⊢
      cases moved : stream.move graph tokenizer with
      | answer reading =>
          rw [moved] at answered
          exact ⟨[], stream, .done, nofun, .yield goesOn moved answered⟩
      | skip later trace =>
          rw [moved] at answered
          cases answered
  | succ left inductionHypothesis =>
      unfold read at answered ⊢
      cases moved : stream.move graph tokenizer with
      | answer reading =>
          rw [moved] at answered
          exact ⟨[], stream, .done, nofun, .yield goesOn moved answered⟩
      | skip later trace =>
          rw [moved] at answered
          have skips : stream.Goes graph tokenizer none later := .skip goesOn moved
          have stillGoesOn : later.finished = false := by
            cases skips.change
            exact goesOn
          obtain ⟨more, last, run, none, goes⟩ := inductionHypothesis stillGoesOn answered
          refine ⟨⟨stream, .none, later⟩ :: more, last, .step skips run, fun event member => ?_,
            goes⟩
          rcases List.mem_cons.mp member with same | member
          · rw [same]
          · exact none event member

/-- A request that is answered with a token is answered by reading on. -/
theorem next_eq_read {stream : TokenStream} {token : Token}
    (answered : (stream.next graph tokenizer).answer = .ok (some token)) :
    stream.finished = false ∧ stream.next graph tokenizer =
      stream.read graph tokenizer (stream.input.text.length - stream.index) := by
  unfold next at answered ⊢
  split at answered
  · cases answered
  · next notFinished =>
      rw [if_neg notFinished]
      refine ⟨by simpa using notFinished, ?_⟩
      dsimp only at answered ⊢
      split at answered <;> rename_i answer
      · rfl
      · exact absurd answered (answer token)

/-- A request that is answered with a token passes over some skips and then yields the token. -/
theorem next_goes {stream : TokenStream} {token : Token}
    (answered : (stream.next graph tokenizer).answer = .ok (some token)) :
    ∃ skips last, Run graph tokenizer stream skips last ∧ (∀ event ∈ skips, event.token = none) ∧
      last.Goes graph tokenizer (some token) (stream.next graph tokenizer).stream := by
  obtain ⟨goesOn, same⟩ := next_eq_read answered
  rw [same] at answered ⊢
  exact read_goes goesOn answered

/-! ## Positions -/

/-- The stream stands inside its text, and no grammar was entered behind its position. -/
structure Placed (stream : TokenStream) : Prop where
  index : stream.index ≤ stream.input.text.length
  opened : ∀ level ∈ stream.active, ∀ position, level.openedEmptyAt = some position →
    position ≤ stream.index

/-- The match that moves a stream lies between its position and the end of its text. -/
theorem Finds.within {stream : TokenStream} {pattern : PatternId} {m : Match}
    (found : stream.Finds graph tokenizer pattern m) (placed : stream.Placed) :
    m.Within stream.input.text stream.index := by
  have within := Graph.matchIn_within found
  rwa [Nat.min_eq_left placed.index] at within

/-- A move takes the stream on to the end of a match. -/
structure Event.Advances (event : Event) : Prop where
  forth : event.before.index ≤ event.after.index
  text : event.after.input.text = event.before.input.text
  /-- A token is a match that ends where the stream stands then. -/
  token : ∀ token, event.token = some token →
    token.result.Within event.before.input.text event.before.index ∧
      token.result.stop = event.after.index

theorem Goes.advances {stream later : TokenStream} {token : Option Token}
    (goes : stream.Goes graph tokenizer token later) (placed : stream.Placed) :
    (⟨stream, token, later⟩ : Event).Advances ∧ later.Placed := by
  have keeps : ∀ (m : Match), m.Within stream.input.text stream.index → ∀ level ∈ stream.active,
      ∀ position, level.openedEmptyAt = some position → position ≤ m.stop :=
    fun m within level member position opened =>
      Nat.le_trans (placed.opened level member position opened) within.le_stop
  cases goes.change with
  | @closed level outer stop m input active ends found sameText =>
      have within := found.within placed
      refine ⟨⟨within.le_stop, sameText, ?_⟩, ?_, ?_⟩
      · intro token same
        cases same
        exact ⟨within, rfl⟩
      · exact sameText ▸ within.stop
      · exact fun other member => keeps m within other (by simp [active, member])
  | @switched level outer rule grammar stop next m input active decides kind known sameText =>
      have within := Finds.within decides.found placed
      refine ⟨⟨within.le_stop, sameText, ?_⟩, ?_, ?_⟩
      · intro token same
        cases same
        exact ⟨within, rfl⟩
      · exact sameText ▸ within.stop
      · intro other memberOther position opened
        rcases List.mem_cons.mp memberOther with same | memberOther
        · subst same
          dsimp only at opened
          split at opened
          · cases opened
          · exact Nat.le_of_eq (Option.some.inj opened).symm
        · exact keeps m within other memberOther position opened
  | @plain level outer rule m input active decides sameText =>
      have within := Finds.within decides.found placed
      refine ⟨⟨within.le_stop, sameText, ?_⟩, ?_, keeps m within⟩
      · intro token same
        cases same
        exact ⟨within, rfl⟩
      · exact sameText ▸ within.stop
  | @skipped pattern m input found progressed sameText =>
      have within := found.within placed
      refine ⟨⟨within.le_stop, sameText, nofun⟩, ?_, keeps m within⟩
      exact sameText ▸ within.stop

/-- A run takes the stream on in its text. -/
theorem Run.advances {stream later : TokenStream} {events : List Event}
    (run : Run graph tokenizer stream events later) (placed : stream.Placed) :
    later.Placed ∧ stream.index ≤ later.index ∧ later.input.text = stream.input.text := by
  induction run with
  | done => exact ⟨placed, Nat.le_refl _, rfl⟩
  | step goes _ inductionHypothesis =>
      obtain ⟨advances, placedNext⟩ := goes.advances placed
      obtain ⟨placedLater, further, sameText⟩ := inductionHypothesis placedNext
      exact ⟨placedLater, Nat.le_trans advances.forth further, sameText.trans advances.text⟩

end TokenStream

/-- A stream starts at a position of its text, with the initial grammar only. -/
theorem Tokenizer.placed_of_tokens {tokenizer : Tokenizer} {text : Text} {offset : Int}
    {start : TokenStream} {trace : List TraceEntry}
    (begins : tokenizer.tokens text offset = .ok (start, trace)) :
    start.Placed ∧ start.input.text = text ∧ start.finished = false ∧
      ∀ level ∈ start.active, level.openedEmptyAt = none := by
  unfold tokens Text.index at begins
  cases resolved : text.position? offset with
  | none =>
      rw [resolved] at begins
      cases begins
  | some index =>
      rw [resolved] at begins
      dsimp only at begins
      have inside := Text.position?_le resolved
      split at begins
      · next grammar _ =>
          cases begins
          have only : ∀ level ∈ [Active.mk grammar tokenizer.stop none],
              level.openedEmptyAt = none :=
            fun level member => List.mem_singleton.mp member ▸ rfl
          refine ⟨⟨inside, fun level member position opened => ?_⟩, rfl, rfl, only⟩
          rw [only level member] at opened
          cases opened
      · cases begins
        exact ⟨⟨inside, nofun⟩, rfl, rfl, nofun⟩

end PegEngine
