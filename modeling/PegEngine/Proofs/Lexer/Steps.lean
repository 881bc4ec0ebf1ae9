import PegEngine.Proofs.Lexer.Rules

/-!
Contract: what one move of the lexer does.

A stream of the lexer waits for the closing brackets of the brackets that are open. A move passes
over blanks, or it yields a token that takes characters. A token that opens a bracket is waited for
by its partner, and a token that closes one is the partner of the innermost open one.

Owns:
- `Lexer.expect`, the brackets that are waited for after a token;
- `Lexer.Levels`, the active grammars of a stream of the lexer;
- `IsLexer.blanks_of_decides`, `IsLexer.token_of_decides`, `IsLexer.bracket_of_decides` and
  `Levels.closes`, what is taken by a rule of each kind and by an end pattern;
- `goes_blank` and `goes_token`, the two kinds of moves of such a stream.
-/

namespace PegEngine

/-- A match of a pattern spans what the scan takes. -/
theorem Graph.Spans.found {graph : Graph} {pattern : PatternId} {scan : Scan}
    (spans : graph.Spans (graph.kind pattern) scan) (free : graph.FreeOfFunctions) {text : Text}
    {i : Nat} (inside : i ≤ text.length) {m : Match}
    (found : TokenStream.answerAt graph {} text i pattern = .ok (some m)) :
    ∃ width, scan (text.ahead i) = some width ∧ m.source = text ∧ m.start = i ∧
      m.stop = i + width := by
  obtain ⟨captures, answer⟩ := spans.answerAt free inside
  rw [answer] at found
  obtain ⟨plain, matched, rfl⟩ := Option.map_eq_some_iff.mp (Except.ok.inj found)
  obtain ⟨width, taken, rfl⟩ := Option.map_eq_some_iff.mp matched
  exact ⟨width, taken, rfl, rfl, rfl⟩

/-- Where a pattern does not match, its scan fails. -/
theorem Graph.Spans.failed {graph : Graph} {pattern : PatternId} {scan : Scan}
    (spans : graph.Spans (graph.kind pattern) scan) (free : graph.FreeOfFunctions) {text : Text}
    {i : Nat} (inside : i ≤ text.length)
    (failed : TokenStream.answerAt graph {} text i pattern = .ok none) :
    scan (text.ahead i) = none := by
  obtain ⟨captures, answer⟩ := spans.answerAt free inside
  rw [answer] at failed
  exact Option.map_eq_none_iff.mp (Option.map_eq_none_iff.mp (Except.ok.inj failed))

namespace Lexer

open TokenStream

/-- The closing brackets that are waited for after a token, the innermost first. There are none of
them after a token that closes another bracket than the innermost open one. -/
def expect (expected : List String) (token : Token) : Option (List String) :=
  if token.name = "open" then
    (brackets.find? (·.opener == token.result.value)).map (·.closer :: expected)
  else if token.name = "close" then
    match expected with
    | [] => none
    | closer :: outer => if token.result.value = closer then some outer else none
  else some expected

section Expect

variable (expected : List String) {token : Token}

theorem expect_open {bracket : Bracket} (member : bracket ∈ brackets) (name : token.name = "open")
    (value : token.result.value = bracket.opener) :
    expect expected token = some (bracket.closer :: expected) := by
  have found : ∀ bracket ∈ brackets,
      brackets.find? (·.opener == bracket.opener) = some bracket := by
    decide
  unfold expect
  rw [if_pos name, value, found bracket member]
  rfl

theorem expect_close {closer : String} (name : token.name = "close")
    (value : token.result.value = closer) :
    expect (closer :: expected) token = some expected := by
  unfold expect
  rw [if_neg (by rw [name]; decide), if_pos name]
  exact if_pos value

theorem expect_other (noOpen : token.name ≠ "open") (noClose : token.name ≠ "close") :
    expect expected token = some expected := by
  unfold expect
  rw [if_neg noOpen, if_neg noClose]

end Expect

/-- A bracket is one character. -/
theorem length_bracket {bracket : Bracket} (member : bracket ∈ brackets) :
    bracket.opener.toList.length = 1 ∧ bracket.closer.toList.length = 1 := by
  revert bracket
  decide

theorem progresses_bracket {bracket : Bracket} (member : bracket ∈ brackets) :
    (Scan.literal bracket.opener.toList).Progresses ∧
      (Scan.literal bracket.closer.toList).Progresses := by
  obtain ⟨opener, closer⟩ := length_bracket member
  exact ⟨Scan.progresses_literal (by omega), Scan.progresses_literal (by omega)⟩

/-- The value of a match over a literal. -/
theorem value_of_literal {text : Text} {i width : Nat} {literal : String} {m : Match}
    (taken : Scan.literal literal.toList (text.ahead i) = some width) (source : m.source = text)
    (start : m.start = i) (stop : m.stop = i + width) : m.value = literal := by
  unfold Match.value Text.slice
  rw [source, start, stop, Text.span_eq_take_ahead, Scan.take_of_literal taken,
    String.ofList_toList]

/-! ## The table -/

theorem progresses_quoted : Lexeme.quoted.Progresses := by
  intro ahead width taken
  dsimp only [Lexeme.quoted] at taken
  split at taken
  · cases taken
  · split at taken
    · obtain ⟨inner, _, rfl⟩ := Option.map_eq_some_iff.mp taken
      exact Nat.succ_pos _
    · cases taken

/-- The literals of the lexer take characters. -/
theorem progresses_literals {text : String} (member : text ∈ ["\r\n", "\r", "\n", "#", "//", "_"]) :
    (Scan.literal text.toList).Progresses := by
  apply Scan.progresses_literal
  revert text
  decide

theorem progresses_newline : Lexeme.newline.Progresses := by
  refine .choice fun scan member => ?_
  simp only [List.mem_cons, List.not_mem_nil, or_false] at member
  rcases member with rfl | rfl | rfl <;> exact progresses_literals (by decide)

theorem progresses_comment : Lexeme.comment.Progresses := by
  refine .sequence (.choice fun scan member => ?_)
  simp only [List.mem_cons, List.not_mem_nil, or_false] at member
  rcases member with rfl | rfl <;> exact progresses_literals (by decide)

theorem progresses_number : Lexeme.number.Progresses :=
  .sequence Scan.progresses_run

theorem progresses_identifier : Lexeme.identifier.Progresses := by
  refine .sequence (.choice fun scan member => ?_)
  simp only [List.mem_cons, List.not_mem_nil, or_false] at member
  rcases member with rfl | rfl
  · exact Scan.progresses_char
  · exact progresses_literals (by decide)

/-- A rule of the lexer skips blanks, switches at an opening bracket, or makes a token of its own
name. -/
theorem entry_cases {entry : Entry} (member : entry ∈ table) :
    entry = ⟨Lexeme.blanks, .skip⟩ ∨
      (∃ bracket ∈ brackets, entry = ⟨.literal bracket.opener.toList, .switch bracket⟩) ∨
      ∃ scan name, entry = ⟨scan, .token name⟩ ∧ scan.Progresses ∧ name ≠ "open" ∧
        name ≠ "close" := by
  unfold table at member
  rcases List.mem_append.mp member with start | punct
  · rcases List.mem_append.mp start with plain | switches
    · simp only [List.mem_cons, List.not_mem_nil, or_false] at plain
      rcases plain with rfl | rfl | rfl | rfl | rfl | rfl
      · exact Or.inl rfl
      · exact Or.inr (Or.inr ⟨_, _, rfl, progresses_newline, by decide, by decide⟩)
      · exact Or.inr (Or.inr ⟨_, _, rfl, progresses_comment, by decide, by decide⟩)
      · exact Or.inr (Or.inr ⟨_, _, rfl, progresses_quoted, by decide, by decide⟩)
      · exact Or.inr (Or.inr ⟨_, _, rfl, progresses_number, by decide, by decide⟩)
      · exact Or.inr (Or.inr ⟨_, _, rfl, progresses_identifier, by decide, by decide⟩)
    · obtain ⟨bracket, known, rfl⟩ := List.mem_map.mp switches
      exact Or.inr (Or.inl ⟨bracket, known, rfl⟩)
  · cases List.mem_singleton.mp punct
    exact Or.inr (Or.inr ⟨_, _, rfl, Scan.progresses_char, by decide, by decide⟩)

/-! ## Streams of the lexer -/

theorem exists_right_of_mem {α β : Type} {related : α → β → Prop} {items : List α}
    {others : List β} (all : List.Forall₂ related items others) {item : α} (member : item ∈ items) :
    ∃ other ∈ others, related item other := by
  induction all with
  | nil => cases member
  | @cons first other rest others same _ inductionHypothesis =>
      rcases List.mem_cons.mp member with rfl | later
      · exact ⟨other, List.mem_cons_self, same⟩
      · obtain ⟨found, among, same⟩ := inductionHypothesis later
        exact ⟨found, List.mem_cons_of_mem _ among, same⟩

theorem exists_left_of_mem {α β : Type} {related : α → β → Prop} {items : List α}
    {others : List β} (all : List.Forall₂ related items others) {other : β}
    (member : other ∈ others) : ∃ item ∈ items, related item other :=
  exists_right_of_mem all.flip member

/-- The active grammars of a stream of the lexer, with the closing brackets that they wait for. -/
inductive Levels (graph : Graph) (tokenizer : Tokenizer) : List Active → List String → Prop where
  | outermost {level : Active} (known : level.grammar ∈ tokenizer.grammars)
      (endless : level.stop = none) : Levels graph tokenizer [level] []
  | inside {level : Active} {outer : List Active} {bracket : Bracket} {stop : PatternId}
      {closers : List String} (known : level.grammar ∈ tokenizer.grammars)
      (member : bracket ∈ brackets) (ends : level.stop = some stop)
      (name : graph.name? stop = some "close")
      (spans : graph.Spans (graph.kind stop) (.literal bracket.closer.toList))
      (rest : Levels graph tokenizer outer closers) :
      Levels graph tokenizer (level :: outer) (bracket.closer :: closers)

/-- A token that is cut out of the text between two positions, and is not empty. -/
structure CutOut (token : Token) (text : Text) (first last : Nat) : Prop where
  source : token.result.source = text
  start : token.result.start = first
  stop : token.result.stop = last
  progress : first < last

theorem Levels.known {graph : Graph} {tokenizer : Tokenizer} {active outer : List Active}
    {closers : List String} {level : Active} (levels : Levels graph tokenizer active closers)
    (innermost : active = level :: outer) : level.grammar ∈ tokenizer.grammars := by
  cases levels with
  | outermost known =>
      cases innermost
      exact known
  | inside known =>
      cases innermost
      exact known

theorem Levels.exists_innermost {graph : Graph} {tokenizer : Tokenizer} {active : List Active}
    {closers : List String} (levels : Levels graph tokenizer active closers) :
    ∃ level outer, active = level :: outer := by
  cases levels with
  | outermost | inside => exact ⟨_, _, rfl⟩

/-- A grammar with an end pattern is active inside of a bracket. -/
theorem Levels.inside_of_stop {graph : Graph} {tokenizer : Tokenizer} {active outer : List Active}
    {expected : List String} {level : Active} {stop : PatternId}
    (levels : Levels graph tokenizer active expected) (innermost : active = level :: outer)
    (ends : level.stop = some stop) :
    ∃ bracket ∈ brackets, ∃ closers, expected = bracket.closer :: closers ∧
      graph.name? stop = some "close" ∧
      graph.Spans (graph.kind stop) (.literal bracket.closer.toList) ∧
      Levels graph tokenizer outer closers := by
  subst innermost
  cases levels with
  | outermost _ endless => cases endless.symm.trans ends
  | inside _ member endsHere name spans rest =>
      cases endsHere.symm.trans ends
      exact ⟨_, member, _, rfl, name, spans, rest⟩

section Moves

variable {graph : Graph} {tokenizer : Tokenizer} {stream later : TokenStream}
  {expected : List String}

theorem IsLexer.realizes (lexer : IsLexer graph tokenizer) {grammar : Grammar}
    (known : grammar ∈ tokenizer.grammars) :
    List.Forall₂ (Realizes graph) grammar.rules table := by
  obtain ⟨name, _, _, realizes⟩ := exists_left_of_mem lexer.grammars known
  exact realizes

/-- Every grammar of the lexer is found under its name. -/
theorem IsLexer.exists_grammar (lexer : IsLexer graph tokenizer) {name : String}
    (listed : name ∈ outermost :: brackets.map (·.grammar)) :
    ∃ grammar ∈ tokenizer.grammars, tokenizer.grammar? name = some grammar := by
  obtain ⟨grammar, known, same, _⟩ := exists_right_of_mem lexer.grammars listed
  have found : (tokenizer.grammar? name).isSome := by
    unfold Tokenizer.grammar?
    rw [List.find?_isSome]
    exact ⟨grammar, known, by simp [same]⟩
  obtain ⟨next, answer⟩ := Option.isSome_iff_exists.mp found
  exact ⟨next, List.mem_of_find?_eq_some answer, answer⟩

section Decisions

variable {text : Text} {i : Nat} {level : Active} {rule : Rule} {m : Match}

/-- A rule that decides is the rule of an entry, and it matches what the entry scans. -/
theorem IsLexer.entry_of_decides (lexer : IsLexer graph tokenizer) (free : graph.FreeOfFunctions)
    (inside : i ≤ text.length) (known : level.grammar ∈ tokenizer.grammars)
    (decides : Decides graph tokenizer text i level rule m) :
    ∃ entry ∈ table, Puts graph rule entry.use ∧ ∃ width, entry.scan (text.ahead i) = some width ∧
      m.source = text ∧ m.start = i ∧ m.stop = i + width := by
  obtain ⟨entry, member, realizes⟩ := exists_right_of_mem (lexer.realizes known) decides.member
  have found := decides.found
  rw [lexer.config] at found
  exact ⟨entry, member, realizes.puts, realizes.spans.found free inside found⟩

/-- The rule that skips matches blanks. -/
theorem IsLexer.blanks_of_decides (lexer : IsLexer graph tokenizer) (free : graph.FreeOfFunctions)
    (inside : i ≤ text.length) (known : level.grammar ∈ tokenizer.grammars)
    (decides : Decides graph tokenizer text i level rule m) (kind : rule.kind = .skip) :
    ∃ width, Lexeme.blanks (text.ahead i) = some width ∧ m.stop = i + width := by
  obtain ⟨entry, member, puts, width, taken, _, _, stop⟩ :=
    lexer.entry_of_decides free inside known decides
  rcases entry_cases member with rfl | ⟨bracket, _, rfl⟩ | ⟨scan, name, rfl, _⟩
  · exact ⟨width, taken, stop⟩
  · obtain ⟨_, _, switches, _⟩ := puts
    cases kind.symm.trans switches
  · cases kind.symm.trans puts.1

/-- A rule that yields a plain token takes characters and no bracket. -/
theorem IsLexer.token_of_decides (lexer : IsLexer graph tokenizer) (free : graph.FreeOfFunctions)
    (inside : i ≤ text.length) (known : level.grammar ∈ tokenizer.grammars)
    (decides : Decides graph tokenizer text i level rule m) (kind : rule.kind = .token) :
    let token := TokenStream.token graph rule.pattern m
    CutOut token text i m.stop ∧ ∀ expected, expect expected token = some expected := by
  obtain ⟨entry, member, puts, width, taken, source, start, stop⟩ :=
    lexer.entry_of_decides free inside known decides
  rcases entry_cases member with
    rfl | ⟨bracket, _, rfl⟩ | ⟨scan, name, rfl, progresses, noOpen, noClose⟩
  · cases kind.symm.trans puts
  · obtain ⟨_, _, switches, _⟩ := puts
    cases kind.symm.trans switches
  · have progress := progresses taken
    have named : (TokenStream.token graph rule.pattern m).name = name :=
      congrArg (·.getD "") puts.2
    have counted := fun expected => expect_other expected (named ▸ noOpen) (named ▸ noClose)
    exact ⟨⟨source, start, rfl, by omega⟩, counted⟩

/-- A rule that switches takes an opening bracket, and its grammar ends with the partner. -/
theorem IsLexer.bracket_of_decides (lexer : IsLexer graph tokenizer) (free : graph.FreeOfFunctions)
    (inside : i ≤ text.length) (known : level.grammar ∈ tokenizer.grammars)
    (decides : Decides graph tokenizer text i level rule m) {grammar : String} {stop : PatternId}
    (kind : rule.kind = .switch grammar stop) :
    let token := TokenStream.token graph rule.pattern m
    CutOut token text i m.stop ∧ ∃ bracket ∈ brackets, grammar = bracket.grammar ∧
      (∀ expected, expect expected token = some (bracket.closer :: expected)) ∧
      graph.name? stop = some "close" ∧
      graph.Spans (graph.kind stop) (.literal bracket.closer.toList) := by
  obtain ⟨entry, member, puts, width, taken, source, start, ends⟩ :=
    lexer.entry_of_decides free inside known decides
  rcases entry_cases member with rfl | ⟨bracket, among, rfl⟩ | ⟨scan, name, rfl, _⟩
  · cases kind.symm.trans puts
  · obtain ⟨opens, _, switches, close, spans⟩ := puts
    cases kind.symm.trans switches
    have progress := (progresses_bracket among).1 taken
    have named : (TokenStream.token graph rule.pattern m).name = "open" :=
      congrArg (·.getD "") opens
    have value := value_of_literal taken source start ends
    have counted := fun expected => expect_open expected among named value
    exact ⟨⟨source, start, rfl, by omega⟩, bracket, among, rfl, counted, close, spans⟩
  · cases kind.symm.trans puts.1

/-- The end pattern of the innermost grammar takes the bracket that is waited for. -/
theorem Levels.closes {active outer : List Active} {stop : PatternId}
    (levels : Levels graph tokenizer active expected) (innermost : active = level :: outer)
    (ends : level.stop = some stop) (free : graph.FreeOfFunctions) (inside : i ≤ text.length)
    (found : answerAt graph {} text i stop = .ok (some m)) :
    let token := TokenStream.token graph stop m
    CutOut token text i m.stop ∧ outer.isEmpty = false ∧ ∃ closers,
      expect expected token = some closers ∧ Levels graph tokenizer outer closers := by
  obtain ⟨bracket, member, closers, rfl, name, spans, rest⟩ := levels.inside_of_stop innermost ends
  obtain ⟨width, taken, source, start, stops⟩ := spans.found free inside found
  have progress := (progresses_bracket member).2 taken
  have named : (TokenStream.token graph stop m).name = "close" := congrArg (·.getD "") name
  refine ⟨⟨source, start, rfl, by omega⟩, ?_, closers, ?_, rest⟩
  · cases rest <;> rfl
  · exact expect_close _ named (value_of_literal taken source start stops)

end Decisions

/-- The lexer passes over nothing but blanks. -/
theorem goes_blank (lexer : IsLexer graph tokenizer) (free : graph.FreeOfFunctions)
    (levels : Levels graph tokenizer stream.active expected) (placed : stream.Placed)
    (goes : stream.Goes graph tokenizer none later) :
    ∀ c ∈ stream.input.text.span stream.index later.index, Lexeme.isBlank c := by
  have moves := @moves graph tokenizer stream
  cases goes with
  | skip goesOn moved =>
      rw [moved] at moves
      cases moves with
      | skipped active decides kind =>
          obtain ⟨width, taken, stop⟩ :=
            lexer.blanks_of_decides free placed.index (levels.known active) decides kind
          dsimp only
          rw [stop, Text.span_eq_take_ahead]
          exact Scan.accepts_of_run taken

/-- The tokens of the lexer take characters and keep count of the open brackets. -/
theorem goes_token (lexer : IsLexer graph tokenizer) (free : graph.FreeOfFunctions)
    (levels : Levels graph tokenizer stream.active expected) (placed : stream.Placed)
    {token : Token} (goes : stream.Goes graph tokenizer (some token) later) :
    CutOut token stream.input.text stream.index later.index ∧ later.finished = false ∧
      ∃ next, expect expected token = some next ∧ Levels graph tokenizer later.active next := by
  have moves := @moves graph tokenizer stream
  cases goes with
  | yield goesOn moved answer =>
      rw [moved] at moves
      cases moves with
      | failed | unmatched | missing | stalled => cases answer
      | @closed level outer stop m input trace active ends found =>
          cases answer
          unfold Finds at found
          rw [lexer.config] at found
          obtain ⟨cutOut, notEmpty, counted⟩ :=
            levels.closes active ends free placed.index found
          have further : (m.stop == stream.index) = false :=
            beq_false_of_ne (Nat.ne_of_gt cutOut.progress)
          refine ⟨cutOut, ?_, counted⟩
          simp only [notEmpty, further, Bool.false_and, Bool.or_false]
      | token active decides kind =>
          cases answer
          obtain ⟨cutOut, counted⟩ :=
            lexer.token_of_decides free placed.index (levels.known active) decides kind
          have further := Nat.not_le_of_lt cutOut.progress
          exact ⟨cutOut, decide_eq_false further, expected, counted expected, levels⟩
      | switched active decides kind known =>
          cases answer
          obtain ⟨cutOut, bracket, among, _, counted, close, spans⟩ :=
            lexer.bracket_of_decides free placed.index (levels.known active) decides kind
          have opened := List.mem_of_find?_eq_some known
          exact ⟨cutOut, goesOn, _, counted expected, .inside opened among rfl close spans levels⟩

end Moves

end Lexer

end PegEngine
