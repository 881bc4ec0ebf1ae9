import Mathlib.Data.List.Forall2
import PegEngine.Proofs.Tokenizer.Endings

/-!
Contract: tokenizers that yield the same tokens.

When the patterns of two tokenizers have the same names and answer in the same way everywhere, and
their grammars are put together of them in the same way, then their streams go on in step: they
have the same position and corresponding active grammars after every request.

Owns:
- `PatternsAlike`, and from it `RulesAlike`, `GrammarsAlike`, `Tokenizer.Alike`, `StreamsAlike`;
- one lemma for each step of a stream, and `Tokenizer.Alike.answersAs` for all requests.
-/

namespace PegEngine

/-- The patterns of two graphs have the same name and answer in the same way. -/
structure PatternsAlike (graph other : Graph) (config : MatchConfig)
    (pattern copy : PatternId) : Prop where
  name : other.name? copy = graph.name? pattern
  answers : ∀ text index, TokenStream.answerAt other config text index copy =
    TokenStream.answerAt graph config text index pattern

/-- Rules of the same kind with patterns that are alike. -/
structure RulesAlike (graph other : Graph) (config : MatchConfig) (rule copy : Rule) : Prop where
  kind : copy.kind = rule.kind
  pattern : PatternsAlike graph other config rule.pattern copy.pattern
  stop : ∀ grammar stop, rule.kind = .switch grammar stop →
    PatternsAlike graph other config stop stop

structure GrammarsAlike (graph other : Graph) (config : MatchConfig)
    (grammar copy : Grammar) : Prop where
  name : copy.name = grammar.name
  rules : List.Forall₂ (RulesAlike graph other config) grammar.rules copy.rules

/-- Tokenizers with the same settings and with grammars that are alike. -/
structure Tokenizer.Alike (graph other : Graph) (tokenizer copy : Tokenizer) : Prop where
  config : copy.config = tokenizer.config
  initial : copy.initial = tokenizer.initial
  stop : copy.stop = tokenizer.stop
  stopAlike : ∀ stop, tokenizer.stop = some stop →
    PatternsAlike graph other tokenizer.config stop stop
  grammars : List.Forall₂ (GrammarsAlike graph other tokenizer.config) tokenizer.grammars
    copy.grammars

namespace TokenStream

variable {graph other : Graph} {tokenizer copy : Tokenizer} {config : MatchConfig}

structure LevelsAlike (graph other : Graph) (config : MatchConfig)
    (level copy : Active) : Prop where
  grammar : GrammarsAlike graph other config level.grammar copy.grammar
  stop : copy.stop = level.stop
  stopAlike : ∀ stop, level.stop = some stop → PatternsAlike graph other config stop stop
  openedEmptyAt : copy.openedEmptyAt = level.openedEmptyAt

/-- The streams stand at the same position of the same text, with active grammars that are alike.
What attempts have left in the input is of no account. -/
structure StreamsAlike (graph other : Graph) (config : MatchConfig)
    (stream copy : TokenStream) : Prop where
  text : copy.input.text = stream.input.text
  index : copy.index = stream.index
  finished : copy.finished = stream.finished
  active : List.Forall₂ (LevelsAlike graph other config) stream.active copy.active

namespace StreamsAlike

variable {stream streamCopy : TokenStream}

theorem withInput (alike : StreamsAlike graph other config stream streamCopy)
    {input inputCopy : Input} (text : inputCopy.text = input.text) :
    StreamsAlike graph other config { stream with input } { streamCopy with input := inputCopy } :=
  ⟨text, alike.index, alike.finished, alike.active⟩

/-- Attempts at patterns that are alike have the same result. -/
theorem result_attempt (alike : StreamsAlike graph other config stream streamCopy)
    {pattern patternCopy : PatternId}
    (patterns : PatternsAlike graph other config pattern patternCopy) :
    (streamCopy.attempt other config patternCopy).result =
      (stream.attempt graph config pattern).result := by
  change answerAt other config streamCopy.input.text streamCopy.index patternCopy =
    answerAt graph config stream.input.text stream.index pattern
  rw [alike.text, alike.index, patterns.answers]

end StreamsAlike

theorem token_alike {pattern patternCopy : PatternId}
    (patterns : PatternsAlike graph other config pattern patternCopy) (m : Match) :
    token other patternCopy m = token graph pattern m := by
  unfold token
  rw [patterns.name]

/-! ## Searches -/

/-- The same error, nothing in either case, or the same match of rules that are alike. -/
def FoundAlike (graph other : Graph) (config : MatchConfig) :
    Except MatchError (Option (Rule × Match)) → Except MatchError (Option (Rule × Match)) → Prop
  | .error error, .error errorCopy => errorCopy = error
  | .ok none, .ok none => True
  | .ok (some (rule, m)), .ok (some (ruleCopy, mCopy)) =>
      RulesAlike graph other config rule ruleCopy ∧ mCopy = m
  | _, _ => False

theorem search_alike {stream streamCopy : TokenStream} {rules rulesCopy : List Rule}
    (alike : StreamsAlike graph other config stream streamCopy)
    (rulesAlike : List.Forall₂ (RulesAlike graph other config) rules rulesCopy) :
    FoundAlike graph other config (stream.search graph config rules).result
      (streamCopy.search other config rulesCopy).result := by
  induction rulesAlike generalizing stream streamCopy with
  | nil => trivial
  | @cons rule ruleCopy rest restCopy first _ inductionHypothesis =>
      have sameResult := alike.result_attempt first.pattern
      unfold search
      dsimp only
      rw [sameResult]
      cases (stream.attempt graph config rule.pattern).result with
      | error error => exact rfl
      | ok outcome =>
          cases outcome with
          | some m => exact ⟨first, rfl⟩
          | none =>
              refine inductionHypothesis (alike.withInput ?_)
              rw [text_attempt, text_attempt, alike.text]

/-! ## Moves -/

/-- Moves that go on in the same way. -/
def MovesAlike (graph other : Graph) (config : MatchConfig) : Move → Move → Prop
  | .answer reading, .answer readingCopy =>
      readingCopy.answer = reading.answer ∧
        StreamsAlike graph other config reading.stream readingCopy.stream
  | .skip later _, .skip laterCopy _ => StreamsAlike graph other config later laterCopy
  | _, _ => False

theorem MovesAlike.after {move moveCopy : Move}
    (alike : MovesAlike graph other config move moveCopy) (trace traceCopy : List TraceEntry) :
    MovesAlike graph other config (move.after trace) (moveCopy.after traceCopy) := by
  cases move <;> cases moveCopy <;> exact alike

theorem find?_alike {grammars grammarsCopy : List Grammar}
    (alike : List.Forall₂ (GrammarsAlike graph other config) grammars grammarsCopy)
    (name : String) :
    Option.Rel (GrammarsAlike graph other config) (grammars.find? (·.name == name))
      (grammarsCopy.find? (·.name == name)) := by
  induction alike with
  | nil => exact .none
  | @cons grammar grammarCopy rest restCopy first _ inductionHypothesis =>
      rw [List.find?_cons, List.find?_cons, first.name]
      split
      · exact .some first
      · exact inductionHypothesis

theorem leave_alike {stream streamCopy : TokenStream} {level levelCopy : Active}
    {outer outerCopy : List Active} {stop : PatternId}
    (alike : StreamsAlike graph other config stream streamCopy)
    (levels : LevelsAlike graph other config level levelCopy)
    (outers : List.Forall₂ (LevelsAlike graph other config) outer outerCopy)
    (stopAlike : PatternsAlike graph other config stop stop) (m : Match) :
    (streamCopy.leave other levelCopy outerCopy stop m).answer =
        (stream.leave graph level outer stop m).answer ∧
      StreamsAlike graph other config (stream.leave graph level outer stop m).stream
        (streamCopy.leave other levelCopy outerCopy stop m).stream := by
  have sameEmpty : outerCopy.isEmpty = outer.isEmpty := by
    cases outers <;> rfl
  refine ⟨?_, alike.text, rfl, ?_, outers⟩
  · unfold leave
    rw [token_alike stopAlike]
  · simp only [leave, sameEmpty, alike.index, levels.openedEmptyAt]

section Streams

variable (tokenizers : Tokenizer.Alike graph other tokenizer copy)
include tokenizers

/-- Grammars of the same name are alike, or there is none in either tokenizer. -/
theorem grammar?_alike (name : String) :
    Option.Rel (GrammarsAlike graph other tokenizer.config) (tokenizer.grammar? name)
      (copy.grammar? name) :=
  find?_alike tokenizers.grammars name

variable {stream streamCopy : TokenStream}

theorem apply_alike {rule ruleCopy : Rule}
    (alike : StreamsAlike graph other tokenizer.config stream streamCopy)
    (rules : RulesAlike graph other tokenizer.config rule ruleCopy) (m : Match) :
    MovesAlike graph other tokenizer.config (stream.apply graph tokenizer rule m)
      (streamCopy.apply other copy ruleCopy m) := by
  unfold apply
  rw [rules.kind]
  cases kind : rule.kind with
  | token =>
      refine ⟨?_, alike.text, rfl, ?_, alike.active⟩
      · rw [token_alike rules.pattern]
      · simp only [alike.index]
  | skip =>
      dsimp only
      rw [alike.index]
      split
      · exact ⟨alike.text, rfl, alike.finished, alike.active⟩
      · exact ⟨rfl, alike.text, rfl, alike.finished, alike.active⟩
  | switch name stop =>
      dsimp only [enter]
      have found := grammar?_alike tokenizers name
      generalize tokenizer.grammar? name = grammar at found ⊢
      generalize copy.grammar? name = grammarCopy at found ⊢
      cases found with
      | none => exact ⟨rfl, alike.text, rfl, alike.finished, alike.active⟩
      | some grammars =>
          refine ⟨?_, alike.text, rfl, alike.finished, .cons ⟨grammars, rfl, ?_, ?_⟩ alike.active⟩
          · rw [token_alike rules.pattern]
          · intro other same
            cases same
            exact rules.stop name stop kind
          · rw [alike.index]

theorem moveByRules_alike {grammar grammarCopy : Grammar}
    (alike : StreamsAlike graph other tokenizer.config stream streamCopy)
    (grammars : GrammarsAlike graph other tokenizer.config grammar grammarCopy) :
    MovesAlike graph other tokenizer.config (stream.moveByRules graph tokenizer grammar)
      (streamCopy.moveByRules other copy grammarCopy) := by
  have found := search_alike alike grammars.rules
  have searched : StreamsAlike graph other tokenizer.config
      { stream with input := (stream.search graph tokenizer.config grammar.rules).input }
      { streamCopy with
        input := (streamCopy.search other tokenizer.config grammarCopy.rules).input } := by
    refine alike.withInput ?_
    rw [text_search, text_search, alike.text]
  unfold moveByRules
  dsimp only
  rw [tokenizers.config]
  generalize stream.search graph tokenizer.config grammar.rules = search at found searched ⊢
  generalize streamCopy.search other tokenizer.config grammarCopy.rules = searchCopy
    at found searched ⊢
  obtain ⟨result, input, trace⟩ := search
  obtain ⟨resultCopy, inputCopy, traceCopy⟩ := searchCopy
  match result, resultCopy, found with
  | .error error, .error errorCopy, same =>
      cases same
      exact ⟨rfl, searched⟩
  | .ok none, .ok none, _ => exact ⟨rfl, searched⟩
  | .ok (some (rule, m)), .ok (some (ruleCopy, mCopy)), ⟨rules, same⟩ =>
      cases same
      exact (apply_alike tokenizers searched rules m).after trace traceCopy

theorem move_alike (alike : StreamsAlike graph other tokenizer.config stream streamCopy) :
    MovesAlike graph other tokenizer.config (stream.move graph tokenizer)
      (streamCopy.move other copy) := by
  obtain ⟨input, index, active, finished⟩ := stream
  obtain ⟨inputCopy, indexCopy, activeCopy, finishedCopy⟩ := streamCopy
  have levels : List.Forall₂ (LevelsAlike graph other tokenizer.config) active activeCopy :=
    alike.active
  cases levels with
  | nil => exact ⟨rfl, alike⟩
  | @cons level levelCopy outer outerCopy first rest =>
      simp only [move, first.stop]
      cases stops : level.stop with
      | none => exact moveByRules_alike tokenizers alike first.grammar
      | some stop =>
          have stopAlike := first.stopAlike stop stops
          have sameResult := alike.result_attempt stopAlike
          dsimp only
          rw [tokenizers.config, sameResult]
          have attempted := alike.withInput ((@text_attempt other tokenizer.config stop _).trans
            (alike.text.trans (@text_attempt graph tokenizer.config stop _).symm))
          cases (attempt graph tokenizer.config stop _).result with
          | error error => exact ⟨rfl, attempted⟩
          | ok outcome =>
              cases outcome with
              | some m => exact leave_alike attempted first rest stopAlike m
              | none => exact (moveByRules_alike tokenizers attempted first.grammar).after _ _

/-- Requests to streams that are alike have the same answer, and leave the streams alike. -/
theorem read_alike (left : Nat)
    (alike : StreamsAlike graph other tokenizer.config stream streamCopy) :
    (streamCopy.read other copy left).answer = (stream.read graph tokenizer left).answer ∧
      StreamsAlike graph other tokenizer.config (stream.read graph tokenizer left).stream
        (streamCopy.read other copy left).stream := by
  induction left generalizing stream streamCopy with
  | zero =>
      have moves := move_alike tokenizers alike
      unfold read
      generalize stream.move graph tokenizer = move at moves ⊢
      generalize streamCopy.move other copy = moveCopy at moves ⊢
      cases move <;> cases moveCopy
      · exact moves
      · exact moves.elim
      · exact moves.elim
      · exact ⟨rfl, moves⟩
  | succ left inductionHypothesis =>
      have moves := move_alike tokenizers alike
      unfold read
      generalize stream.move graph tokenizer = move at moves ⊢
      generalize streamCopy.move other copy = moveCopy at moves ⊢
      cases move <;> cases moveCopy
      · exact moves
      · exact moves.elim
      · exact moves.elim
      · exact inductionHypothesis moves

theorem next_alike (alike : StreamsAlike graph other tokenizer.config stream streamCopy) :
    (streamCopy.next other copy).answer = (stream.next graph tokenizer).answer ∧
      StreamsAlike graph other tokenizer.config (stream.next graph tokenizer).stream
        (streamCopy.next other copy).stream := by
  unfold next
  rw [alike.finished]
  split
  · exact ⟨rfl, alike⟩
  · obtain ⟨sameAnswer, later⟩ :=
      read_alike tokenizers (stream.input.text.length - stream.index) alike
    dsimp only
    rw [alike.text, alike.index]
    generalize stream.read graph tokenizer _ = reading at sameAnswer later ⊢
    generalize streamCopy.read other copy _ = readingCopy at sameAnswer later ⊢
    rw [sameAnswer]
    split
    · exact ⟨sameAnswer, later⟩
    · exact ⟨rfl, later.text, later.index, rfl, later.active⟩

theorem afterRequests_alike (alike : StreamsAlike graph other tokenizer.config stream streamCopy)
    (count : Nat) :
    StreamsAlike graph other tokenizer.config (stream.afterRequests graph tokenizer count)
      (streamCopy.afterRequests other copy count) := by
  induction count generalizing stream streamCopy with
  | zero => exact alike
  | succ count inductionHypothesis =>
      exact inductionHypothesis (next_alike tokenizers alike).2

end Streams

end TokenStream

/-- The second tokenizer starts a stream wherever the first one does, and all requests to the two
streams have the same answers. -/
def Tokenizer.AnswersAs (graph other : Graph) (tokenizer copy : Tokenizer) (text : Text)
    (offset : Int) : Prop :=
  (∀ error, tokenizer.tokens text offset = .error error →
    copy.tokens text offset = .error error) ∧
  ∀ start trace, tokenizer.tokens text offset = .ok (start, trace) →
    ∃ startCopy, copy.tokens text offset = .ok (startCopy, trace) ∧
      ∀ count,
        ((startCopy.afterRequests other copy count).next other copy).answer =
          ((start.afterRequests graph tokenizer count).next graph tokenizer).answer

/-- Tokenizers that are alike yield the same tokens of every text from every offset. -/
theorem Tokenizer.Alike.answersAs {graph other : Graph} {tokenizer copy : Tokenizer}
    (alike : Tokenizer.Alike graph other tokenizer copy) (text : Text) (offset : Int) :
    Tokenizer.AnswersAs graph other tokenizer copy text offset := by
  unfold AnswersAs tokens
  cases text.index offset with
  | error error => exact ⟨fun _ same => same, nofun⟩
  | ok index =>
      have found := TokenStream.grammar?_alike alike tokenizer.initial
      rw [alike.initial, alike.stop]
      dsimp only
      generalize tokenizer.grammar? tokenizer.initial = grammar at found ⊢
      generalize copy.grammar? tokenizer.initial = grammarCopy at found ⊢
      cases found with
      | none =>
          refine ⟨nofun, fun start trace begins => ?_⟩
          cases begins
          refine ⟨_, rfl, fun count => ?_⟩
          exact (TokenStream.next_alike alike
            (TokenStream.afterRequests_alike alike ⟨rfl, rfl, rfl, .nil⟩ count)).1
      | @some grammar grammarCopy grammars =>
          refine ⟨nofun, fun start trace begins => ?_⟩
          cases begins
          dsimp only
          rw [grammars.name]
          have streams : TokenStream.StreamsAlike graph other tokenizer.config
              { input := { text }, index, active := [⟨grammar, tokenizer.stop, none⟩] }
              { input := { text }, index, active := [⟨grammarCopy, tokenizer.stop, none⟩] } :=
            ⟨rfl, rfl, rfl, .cons ⟨grammars, rfl, alike.stopAlike, rfl⟩ .nil⟩
          refine ⟨_, rfl, fun count => ?_⟩
          exact (TokenStream.next_alike alike
            (TokenStream.afterRequests_alike alike streams count)).1

end PegEngine
