import PegEngine.Proofs.Lexer.Steps
import PegEngine.Proofs.Tokenizer.Requests

/-!
Contract: the tokens of the lexer cut up its text.

Asked again and again, the lexer yields tokens until there is none, whatever the text. Between them
it leaves out nothing but spaces and tabs, and the brackets among them nest.

Owns:
- `TokenStream.Yields`, all answers of a stream that comes to an end without an error, and
  `yielded`, the same computed;
- `Lexer.Cuts`, that tokens with blanks between them make up a part of a text;
- `Lexer.Stuck`, a stream of the lexer that has come to its end, and `exists_yields`;
- `tokens_lossless`, with a text that needs all rules and its `listing`.
-/

namespace PegEngine

theorem Text.span_self (text : Text) (i : Nat) : text.span i i = [] := by
  simp [span_eq_take_drop]

theorem Text.span_append (text : Text) {first middle last : Nat} (before : first ≤ middle)
    (behind : middle ≤ last) :
    text.span first middle ++ text.span middle last = text.span first last := by
  obtain ⟨left, rfl⟩ := Nat.exists_eq_add_of_le before
  obtain ⟨right, rfl⟩ := Nat.exists_eq_add_of_le behind
  rw [Nat.add_assoc, span_eq_take_ahead, ← Nat.add_assoc, span_eq_take_ahead, Nat.add_assoc,
    span_eq_take_ahead, ← drop_ahead, List.take_add]

namespace TokenStream

/-- What a stream yields from here on: each token with the position of the stream after it, up to
the request that is answered with nothing, which leaves the stream as `last`. -/
inductive Yields (graph : Graph) (tokenizer : Tokenizer) :
    TokenStream → List (Token × Nat) → TokenStream → Prop where
  | nothing {stream : TokenStream} (answer : (stream.next graph tokenizer).answer = .ok none) :
      Yields graph tokenizer stream [] (stream.next graph tokenizer).stream
  | token {stream last : TokenStream} {token : Token} {tokens : List (Token × Nat)}
      (answer : (stream.next graph tokenizer).answer = .ok (some token))
      (rest : Yields graph tokenizer (stream.next graph tokenizer).stream tokens last) :
      Yields graph tokenizer stream
        ((token, (stream.next graph tokenizer).stream.index) :: tokens) last

/-- The same, computed for so many requests at most. -/
def yielded (graph : Graph) (tokenizer : Tokenizer) :
    (most : Nat) → TokenStream → List (Token × Nat) × TokenStream
  | 0, stream => ([], stream)
  | most + 1, stream =>
      let reading := stream.next graph tokenizer
      match reading.answer with
      | .ok (some token) =>
          let (tokens, last) := yielded graph tokenizer most reading.stream
          ((token, reading.stream.index) :: tokens, last)
      | _ => ([], reading.stream)

/-- Where fewer tokens come than were asked for, these are all. -/
theorem Yields.yielded_eq {graph : Graph} {tokenizer : Tokenizer} {stream last : TokenStream}
    {tokens : List (Token × Nat)} (yields : Yields graph tokenizer stream tokens last) {most : Nat}
    (few : (yielded graph tokenizer most stream).1.length < most) :
    yielded graph tokenizer most stream = (tokens, last) := by
  induction yields generalizing most with
  | nothing answer =>
      obtain ⟨fewer, rfl⟩ := Nat.exists_eq_add_of_le' (Nat.zero_lt_of_lt few)
      simp only [yielded, answer]
  | token answer rest inductionHypothesis =>
      obtain ⟨fewer, rfl⟩ := Nat.exists_eq_add_of_le' (Nat.zero_lt_of_lt few)
      simp only [yielded, answer, List.length_cons, Nat.add_lt_add_iff_right] at few
      simp only [yielded, answer, inductionHypothesis few]

end TokenStream

namespace Lexer

open TokenStream

/-- A space or a tab. -/
def Blank (c : Char) : Prop :=
  c = ' ' ∨ c = '\t'

theorem blank_of_isBlank {c : Char} (blank : Lexeme.isBlank c) : Blank c := by
  simpa [Blank] using CharSet.contains_ofString.mp blank

/-- Tokens make up the text from a position up to `last`, with nothing but blanks around them. None
of them is empty, and each ends at the position that comes with it. -/
inductive Cuts (text : Text) (last : Nat) : Nat → List (Token × Nat) → Prop where
  | nothing {first : Nat} (forth : first ≤ last) (inside : last ≤ text.length)
      (blank : ∀ c ∈ text.span first last, Blank c) : Cuts text last first []
  | token {first position : Nat} {token : Token} {tokens : List (Token × Nat)}
      (forth : first ≤ token.result.start)
      (blank : ∀ c ∈ text.span first token.result.start, Blank c)
      (source : token.result.source = text) (some : token.result.start < token.result.stop)
      (ends : token.result.stop = position) (rest : Cuts text last position tokens) :
      Cuts text last first ((token, position) :: tokens)

/-- The gaps and the values of tokens, one after the other. -/
def spell (text : Text) (last : Nat) : Nat → List (Token × Nat) → List Char
  | first, [] => text.span first last
  | first, (token, position) :: rest =>
      text.span first token.result.start ++ token.result.value.toList ++
        spell text last position rest

theorem Cuts.first_le {text : Text} {first last : Nat} {tokens : List (Token × Nat)}
    (cuts : Cuts text last first tokens) : first ≤ last := by
  induction cuts with
  | nothing forth => exact forth
  | token forth _ _ some ends _ inductionHypothesis => omega

/-- Nothing of the text is lost. -/
theorem Cuts.spell_eq {text : Text} {first last : Nat} {tokens : List (Token × Nat)}
    (cuts : Cuts text last first tokens) : spell text last first tokens = text.span first last := by
  induction cuts with
  | nothing => rfl
  | @token first position token tokens forth _ source some ends rest inductionHypothesis =>
      unfold spell Match.value Text.slice
      rw [inductionHypothesis, source, String.toList_ofList, ends,
        text.span_append forth (by omega), text.span_append (by omega) rest.first_le]

theorem Cuts.length_le {text : Text} {first last : Nat} {tokens : List (Token × Nat)}
    (cuts : Cuts text last first tokens) : first + tokens.length ≤ last := by
  induction cuts with
  | nothing forth => exact forth
  | token forth _ _ some ends _ inductionHypothesis =>
      rw [List.length_cons]
      omega

section Requests

variable {graph : Graph} {tokenizer : Tokenizer} {stream later : TokenStream}
  {expected : List String}

/-- What the lexer passes over is blank. -/
theorem run_blank (lexer : IsLexer graph tokenizer) (free : graph.FreeOfFunctions)
    (levels : Levels graph tokenizer stream.active expected) (placed : stream.Placed)
    {events : List Event} (run : Run graph tokenizer stream events later)
    (areSkips : ∀ event ∈ events, event.token = none) :
    ∀ c ∈ stream.input.text.span stream.index later.index, Lexeme.isBlank c := by
  induction run with
  | done =>
      rw [Text.span_self]
      nofun
  | @step stream next later token events goes rest inductionHypothesis =>
      have skip : token = none := areSkips ⟨stream, token, next⟩ List.mem_cons_self
      subst skip
      obtain ⟨advances, placedNext⟩ := goes.advances placed
      have blank := goes_blank lexer free levels placed goes
      have blankLater := inductionHypothesis (goes.of_skip.1 ▸ levels) placedNext
        fun event member => areSkips event (List.mem_cons_of_mem _ member)
      have sameText : next.input.text = stream.input.text := advances.text
      rw [sameText] at blankLater
      rw [← Text.span_append _ advances.forth (rest.advances placedNext).2.1]
      intro c member
      rcases List.mem_append.mp member with here | there
      · exact blank c here
      · exact blankLater c there

/-- All that the lexer tries has a scan. -/
theorem spans_of_tries (lexer : IsLexer graph tokenizer)
    (levels : Levels graph tokenizer stream.active expected) {pattern : PatternId}
    (tries : stream.Tries pattern) : ∃ scan, graph.Spans (graph.kind pattern) scan := by
  obtain ⟨level, outer, active, ends | ⟨rule, member, rfl⟩⟩ := tries
  · obtain ⟨bracket, _, _, _, _, spans, _⟩ := levels.inside_of_stop active ends
    exact ⟨_, spans⟩
  · obtain ⟨entry, _, realizes⟩ := exists_right_of_mem (lexer.realizes (levels.known active)) member
    exact ⟨entry.scan, realizes.spans⟩

/-- The lexer has ended at a position where nothing that it tries matches. -/
structure Stuck (graph : Graph) (tokenizer : Tokenizer) (expected : List String)
    (stream : TokenStream) : Prop where
  finished : stream.finished = true
  levels : Levels graph tokenizer stream.active expected
  inside : stream.index ≤ stream.input.text.length
  nothing : ∀ pattern, stream.Tries pattern →
    answerAt graph tokenizer.config stream.input.text stream.index pattern = .ok none

/-- A move that yields no token ends the lexer where nothing that it tries matches. -/
theorem stuck_of_moves (lexer : IsLexer graph tokenizer) (free : graph.FreeOfFunctions)
    (levels : Levels graph tokenizer stream.active expected) (placed : stream.Placed)
    {reading : Reading} (moves : stream.Moves graph tokenizer (.answer reading))
    (noToken : ∀ token, reading.answer ≠ .ok (some token)) :
    reading.answer = .ok none ∧ reading.stream.input.text = stream.input.text ∧
      reading.stream.index = stream.index ∧
      Stuck graph tokenizer expected { reading.stream with finished := true } := by
  cases moves with
  | closed | token | switched => exact absurd rfl (noToken _)
  | failed _ tries broken =>
      obtain ⟨scan, spans⟩ := spans_of_tries lexer levels tries
      obtain ⟨captures, answer⟩ := spans.answerAt free placed.index
      rw [lexer.config, answer] at broken
      cases broken
  | missing active decides kind unknown =>
      obtain ⟨_, bracket, among, rfl, _⟩ :=
        lexer.bracket_of_decides free placed.index (levels.known active) decides kind
      obtain ⟨grammar, _, known⟩ :=
        lexer.exists_grammar (List.mem_cons_of_mem outermost (List.mem_map_of_mem among))
      cases known.symm.trans unknown
  | stalled active decides kind stays =>
      obtain ⟨width, taken, stop⟩ :=
        lexer.blanks_of_decides free placed.index (levels.known active) decides kind
      have progress := Scan.progresses_run taken
      omega
  | unmatched sameText nothing =>
      refine ⟨rfl, sameText, rfl, rfl, levels, sameText ▸ placed.index, fun pattern tries => ?_⟩
      rw [← nothing pattern tries]
      exact congrArg (answerAt graph tokenizer.config · stream.index pattern) sameText

/-- A request to the lexer that is not answered with a token is answered with nothing. -/
theorem next_stuck (lexer : IsLexer graph tokenizer) (free : graph.FreeOfFunctions)
    (levels : Levels graph tokenizer stream.active expected) (placed : stream.Placed)
    (goesOn : stream.finished = false)
    (noToken : ∀ token, (stream.next graph tokenizer).answer ≠ .ok (some token)) :
    let later := (stream.next graph tokenizer).stream
    (stream.next graph tokenizer).answer = .ok none ∧
      later.input.text = stream.input.text ∧ stream.index ≤ later.index ∧
      (∀ c ∈ stream.input.text.span stream.index later.index, Blank c) ∧
      Stuck graph tokenizer expected later := by
  obtain ⟨skips, last, reading, run, areSkips, moves, answer, same⟩ :=
    @read_moves graph tokenizer stream (stream.input.text.length - stream.index) goesOn placed
      (Nat.le_refl _)
  obtain ⟨placedLast, forth, text⟩ := run.advances placed
  have active := run.active_of_skips areSkips
  have answerNext : (stream.next graph tokenizer).answer = reading.answer := by
    rw [next_eq_ending goesOn, Reading.answer_ending, answer]
  rw [answerNext] at noToken
  have ended : (stream.next graph tokenizer).stream = { reading.stream with finished := true } := by
    rw [next_eq_ending goesOn, Reading.stream_ending (answer ▸ noToken), same]
  obtain ⟨nothing, textHere, stays, stuck⟩ :=
    stuck_of_moves lexer free (active ▸ levels) placedLast moves noToken
  rw [answerNext, ended]
  refine ⟨nothing, textHere.trans text, ?_, ?_, stuck⟩
  · exact stays ▸ forth
  · dsimp only
    rw [stays]
    exact fun c member =>
      blank_of_isBlank (run_blank lexer free levels placed run areSkips c member)

/-- A token of the lexer stands behind blanks. -/
theorem next_token (lexer : IsLexer graph tokenizer) (free : graph.FreeOfFunctions)
    (levels : Levels graph tokenizer stream.active expected) (placed : stream.Placed)
    {token : Token} (answered : (stream.next graph tokenizer).answer = .ok (some token)) :
    let later := (stream.next graph tokenizer).stream
    later.input.text = stream.input.text ∧ stream.index ≤ token.result.start ∧
      (∀ c ∈ stream.input.text.span stream.index token.result.start, Blank c) ∧
      CutOut token stream.input.text token.result.start later.index ∧ later.Placed ∧
      later.finished = false ∧
      ∃ next, expect expected token = some next ∧ Levels graph tokenizer later.active next := by
  obtain ⟨skips, last, run, areSkips, goes⟩ := next_goes answered
  obtain ⟨placedLast, forth, text⟩ := run.advances placed
  obtain ⟨advances, placedLater⟩ := goes.advances placedLast
  have active := run.active_of_skips areSkips
  obtain ⟨cutOut, goesOn, counted⟩ := goes_token lexer free (active ▸ levels) placedLast goes
  have blank := run_blank lexer free levels placed run areSkips
  rw [← cutOut.start] at blank forth cutOut
  exact ⟨advances.text.trans text, forth, fun c member => blank_of_isBlank (blank c member),
    text ▸ cutOut, placedLater, goesOn, counted⟩

/-- The lexer yields tokens up to a position where it is stuck. -/
theorem exists_yields (lexer : IsLexer graph tokenizer) (free : graph.FreeOfFunctions)
    (levels : Levels graph tokenizer stream.active expected) (placed : stream.Placed)
    (goesOn : stream.finished = false) :
    ∃ tokens last unclosed, Yields graph tokenizer stream tokens last ∧
      last.input.text = stream.input.text ∧
      Cuts stream.input.text last.index stream.index tokens ∧
      (tokens.map Prod.fst).foldlM expect expected = some unclosed ∧
      Stuck graph tokenizer unclosed last := by
  -- Every token takes characters, so that fewer and fewer of them are left.
  induction left : stream.input.text.length - stream.index using Nat.strong_induction_on
    generalizing stream expected with
  | _ left inductionHypothesis =>
      by_cases answered : ∃ token, (stream.next graph tokenizer).answer = .ok (some token)
      · obtain ⟨token, answered⟩ := answered
        obtain ⟨text, forth, blank, cutOut, placedNext, goesOnNext, next, counted, levelsNext⟩ :=
          next_token lexer free levels placed answered
        have inside := placedNext.index
        have progress := cutOut.progress
        rw [text] at inside
        obtain ⟨tokens, last, unclosed, yields, textLast, cuts, nests, stuck⟩ :=
          inductionHypothesis _ (by rw [text]; omega) levelsNext placedNext goesOnNext rfl
        rw [text] at textLast cuts
        refine ⟨_, last, unclosed, .token answered yields, textLast, ?_, ?_, stuck⟩
        · exact .token forth blank cutOut.source (cutOut.stop ▸ progress) cutOut.stop cuts
        · rw [List.map_cons, List.foldlM_cons, counted]
          exact nests
      · have noToken : ∀ token, (stream.next graph tokenizer).answer ≠ .ok (some token) :=
          fun token same => answered ⟨token, same⟩
        obtain ⟨nothing, text, forth, blank, stuck⟩ :=
          next_stuck lexer free levels placed goesOn noToken
        exact ⟨[], _, expected, .nothing nothing, text,
          .nothing forth (text ▸ stuck.inside) blank, rfl, stuck⟩

/-- A stream of the lexer starts with no open bracket. -/
theorem levels_start (lexer : IsLexer graph tokenizer) {text : Text} {offset : Int} {i : Nat}
    (valid : text.position? offset = some i) :
    ∃ start trace, tokenizer.tokens text offset = .ok (start, trace) ∧ start.index = i ∧
      Levels graph tokenizer start.active [] := by
  obtain ⟨grammar, known, found⟩ := lexer.exists_grammar List.mem_cons_self
  unfold Tokenizer.tokens Text.index
  rw [valid, lexer.initial]
  dsimp only
  rw [found]
  exact ⟨_, _, rfl, rfl, .outermost known lexer.stop⟩

end Requests

/-- From any position of any text on, the lexer yields finitely many tokens and no error. It loses
nothing: none of its tokens is empty, each of them ends where the stream stands after it, and in
front of, between and behind them there are only spaces and tabs. A token that closes a bracket is
the partner of the latest open one. -/
theorem tokens_lossless {text : Text} {offset : Int} {i : Nat}
    (valid : text.position? offset = some i) :
    ∃ start trace tokens last unclosed, built.tokens text offset = .ok (start, trace) ∧
      start.index = i ∧ Yields patterns built start tokens last ∧ last.finished = true ∧
      Cuts text last.index i tokens ∧ spell text last.index i tokens = text.span i last.index ∧
      (tokens.map Prod.fst).foldlM expect [] = some unclosed := by
  obtain ⟨start, trace, begins, index, levels⟩ := levels_start isLexer_built valid
  obtain ⟨placed, sameText, goesOn, _⟩ := Tokenizer.placed_of_tokens begins
  obtain ⟨tokens, last, unclosed, yields, _, cuts, nests, stuck⟩ :=
    exists_yields isLexer_built free_patterns levels placed goesOn
  rw [sameText, index] at cuts
  exact ⟨start, trace, tokens, last, unclosed, begins, index, yields, stuck.finished, cuts,
    cuts.spell_eq, nests⟩

/-- The name and the value of a token, and the position of the stream after it. -/
def shown (entry : Token × Nat) : String × String × Nat :=
  (entry.1.name, entry.1.result.value, entry.2)

/-- What the lexer yields from an offset on, computed: the tokens, where the stream ends, and the
closing brackets that it then waits for. One request more than there are characters is enough, as
no token is empty. -/
def listing (text : Text) (offset : Int) :
    Option (List (String × String × Nat) × Nat × Option (List String)) :=
  match built.tokens text offset with
  | .error _ => none
  | .ok (start, _) =>
      let (tokens, last) := start.yielded patterns built (text.length + 1)
      some (tokens.map shown, last.index, (tokens.map Prod.fst).foldlM expect [])

/-- A listing shorter than the number of its requests shows all tokens of the stream. -/
theorem shown_of_listing {text : Text} {offset : Int} {start last : TokenStream}
    {trace : List TraceEntry} {tokens : List (Token × Nat)}
    {listed : List (String × String × Nat)} {index : Nat} {unclosed : Option (List String)}
    (begins : built.tokens text offset = .ok (start, trace))
    (yields : Yields patterns built start tokens last)
    (lists : listing text offset = some (listed, index, unclosed))
    (few : listed.length < text.length + 1) :
    tokens.map shown = listed ∧ last.index = index ∧
      (tokens.map Prod.fst).foldlM expect [] = unclosed := by
  simp only [listing, begins, Option.some.injEq, Prod.mk.injEq] at lists
  obtain ⟨rfl, rfl, rfl⟩ := lists
  rw [List.length_map] at few
  rw [yields.yielded_eq few]
  exact ⟨rfl, rfl, rfl⟩

/-- Nested brackets, a string with a bracket and an escape in it, and a comment, from the second
character on. The spaces around the tokens and the tab in front of the last one are left out. -/
theorem tokens_lossless_nested :
    let text := Text.ofString "-f(\x7b'a]\\''\x7d [x_1 + 2.5]) # (\r\n\t;"
    text.position? (-31) = some 1 ∧
    ∃ start trace tokens last, built.tokens text (-31) = .ok (start, trace) ∧
      start.index = 1 ∧ Yields patterns built start tokens last ∧ last.finished = true ∧
      Cuts text last.index 1 tokens ∧ spell text last.index 1 tokens = text.span 1 last.index ∧
      tokens.map shown =
        [("ident", "f", 2), ("open", "(", 3), ("open", "\x7b", 4), ("string", "'a]\\''", 10),
          ("close", "\x7d", 11), ("open", "[", 13), ("ident", "x_1", 16), ("punct", "+", 18),
          ("number", "2.5", 22), ("close", "]", 23), ("close", ")", 24), ("comment", "# (", 28),
          ("newline", "\r\n", 30), ("punct", ";", 32)] ∧
      last.index = 32 ∧ (tokens.map Prod.fst).foldlM expect [] = some [] := by
  intro text
  have valid : text.position? (-31) = some 1 := by decide
  obtain ⟨start, trace, tokens, last, unclosed, begins, index, yields, finished, cuts, spells, _⟩ :=
    tokens_lossless valid
  exact ⟨valid, start, trace, tokens, last, begins, index, yields, finished, cuts, spells,
    shown_of_listing begins yields (by decide +kernel) (by decide)⟩

end Lexer

end PegEngine
