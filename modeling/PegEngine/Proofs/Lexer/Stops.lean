import PegEngine.CommandLine
import PegEngine.Proofs.Lexer.Tokens

/-!
Contract: where the lexer stops.

The first character tells which rule of the lexer matches, except that a string also needs its
closing quote. So a stream of the lexer stops at the end of its text, at a closing bracket that is
not waited for, at a quote without a partner, and at a character that the lexer does not know. It
does not get past any of them.

Owns:
- `Lexer.Unreadable`, what the lexer stops at, in terms of what it knows and waits for;
- `Lexer.Readable`, what its rules match at, with `exists_entry_iff` and `unreadable_iff`;
- `Stuck.unreadable` and `reads_of_yields`, where a stream stops and where it goes on;
- `listTokens_code`, the exit code of the command that lists tokens;
- `stops_at_unreadable`, with a text that is not read to its end.
-/

namespace PegEngine

namespace Lexer

open TokenStream

/-- A letter, a digit or an underscore, white space of a line or its end, a comment mark, a quote, a
bracket or punctuation. -/
def Known (c : Char) : Prop :=
  c.isAlphanum ∨ c ∈ ['_', ' ', '\t', '\r', '\n', '#', '"', '\''] ∨
    (∃ bracket ∈ brackets, bracket.opener = c.toString ∨ bracket.closer = c.toString) ∨
    c ∈ punctuation.toList

/-- What the lexer makes no token of, given the closing brackets that it waits for: a closing
bracket other than the one for the innermost open bracket, a quote without a partner, or a character
that it does not know. -/
inductive Unreadable (expected : List String) (c : Char) (rest : List Char) : Prop where
  | bracket {bracket : Bracket} (member : bracket ∈ brackets) (closes : bracket.closer = c.toString)
      (unexpected : expected.head? ≠ some bracket.closer)
  | quote (isQuote : c = '"' ∨ c = '\'') (unclosed : Lexeme.closing c rest = none)
  | unknown (unknown : ¬ Known c)

/-- What a rule of the lexer matches at, with a case for every rule. -/
inductive Readable (c : Char) (rest : List Char) : Prop where
  | blanks (isBlank : Blank c)
  | newline (isLineEnd : c = '\r' ∨ c = '\n')
  | comment (isMark : c = '#' ∨ (c = '/' ∧ rest.head? = some '/'))
  | string (isQuote : c = '"' ∨ c = '\'') (closed : (Lexeme.closing c rest).isSome)
  | number (isDigit : c.isDigit)
  | identifier (isLetter : c.isAlpha ∨ c = '_')
  | bracket {bracket : Bracket} (member : bracket ∈ brackets) (opens : bracket.opener = c.toString)
  | punct (isPunctuation : c ∈ punctuation.toList)

/-- Each of the tokens begins with something that the lexer can read, given the closing brackets
that it waits for in front of it. -/
def Reads (text : Text) (expected : List String) (tokens : List (Token × Nat)) : Prop :=
  ∀ before token position after, tokens = before ++ (token, position) :: after →
    ∃ waiting c rest, (before.map Prod.fst).foldlM expect expected = some waiting ∧
      text.ahead token.result.start = c :: rest ∧ ¬ Unreadable waiting c rest

/-! ## What the rules begin with -/

section Starts

variable {c : Char} {rest : List Char}

theorem isSome_blanks : (Lexeme.blanks (c :: rest)).isSome ↔ Blank c := by
  have decided : Lexeme.blanks.DecidedBy Lexeme.isBlank := Scan.decidedBy_run
  rw [decided.isSome_cons]
  simp [Lexeme.isBlank, CharSet.contains_ofString, Blank]

theorem isSome_newline : (Lexeme.newline (c :: rest)).isSome ↔ c = '\r' ∨ c = '\n' := by
  rw [Lexeme.decidedBy_newline.isSome_cons]
  simp [Lexeme.isLineEnd]

theorem isSome_comment :
    (Lexeme.comment (c :: rest)).isSome ↔ c = '#' ∨ (c = '/' ∧ rest.head? = some '/') := by
  unfold Lexeme.comment
  rw [Scan.isSome_sequence fun _ => rfl]
  cases rest with
  | nil => simp [Scan.choice, Scan.orElse, Scan.literal, Scan.failure, @eq_comm _ c]
  | cons next rest =>
      simp [Scan.choice, Scan.orElse, Scan.literal, Scan.failure, @eq_comm _ c, @eq_comm _ next]

theorem isSome_quoted :
    (Lexeme.quoted (c :: rest)).isSome ↔
      (c = '"' ∨ c = '\'') ∧ (Lexeme.closing c rest).isSome := by
  have isQuote : Lexeme.isQuote c ↔ c = '"' ∨ c = '\'' := by
    simp [Lexeme.isQuote, CharSet.contains_ofString]
  dsimp only [Lexeme.quoted]
  split
  · next holds => simp [isQuote.mp holds]
  · next fails => simp [mt isQuote.mpr fails]

theorem isSome_number : (Lexeme.number (c :: rest)).isSome ↔ c.isDigit := by
  have decided : Lexeme.number.DecidedBy Lexeme.isDigit :=
    Scan.decidedBy_run.sequence fun _ => rfl
  rw [decided.isSome_cons, Lexeme.isDigit_eq]

theorem isSome_identifier : (Lexeme.identifier (c :: rest)).isSome ↔ c.isAlpha ∨ c = '_' := by
  have decided : Lexeme.identifier.DecidedBy fun c => Lexeme.isLetter c || c == '_' :=
    Lexeme.isChar_wordStart.decidedBy.sequence fun _ => rfl
  rw [decided.isSome_cons]
  simp [Lexeme.isLetter_eq]

theorem isSome_literal {text : String} (single : text.toList.length = 1) :
    (Scan.literal text.toList (c :: rest)).isSome ↔ text = c.toString := by
  obtain ⟨d, chars⟩ := List.length_eq_one_iff.mp single
  rw [chars, (Scan.isChar_literal d).decidedBy.isSome_cons, ← String.toList_inj, chars, beq_iff_eq,
    eq_comm]
  simp

theorem isSome_punct : (Lexeme.punct (c :: rest)).isSome ↔ c ∈ punctuation.toList := by
  have isChar : Lexeme.punct.IsChar Lexeme.isPunctuation := fun _ => rfl
  rw [isChar.decidedBy.isSome_cons]
  exact CharSet.contains_ofString

/-- The rules of the lexer match at what it can read, and nowhere else. -/
theorem exists_entry_iff :
    (∃ entry ∈ table, (entry.scan (c :: rest)).isSome) ↔ Readable c rest := by
  constructor
  · rintro ⟨entry, member, found⟩
    simp only [table, List.mem_append, List.mem_cons, List.mem_map, List.not_mem_nil, or_false]
      at member
    rcases member with ((rfl | rfl | rfl | rfl | rfl | rfl) | ⟨bracket, among, rfl⟩) | rfl
    · exact .blanks (isSome_blanks.mp found)
    · exact .newline (isSome_newline.mp found)
    · exact .comment (isSome_comment.mp found)
    · exact .string (isSome_quoted.mp found).1 (isSome_quoted.mp found).2
    · exact .number (isSome_number.mp found)
    · exact .identifier (isSome_identifier.mp found)
    · exact .bracket among ((isSome_literal (length_bracket among).1).mp found)
    · exact .punct (isSome_punct.mp found)
  · have token : ∀ scan name, ⟨scan, .token name⟩ ∈ table → (scan (c :: rest)).isSome →
        ∃ entry ∈ table, (entry.scan (c :: rest)).isSome :=
      fun scan name member found => ⟨_, member, found⟩
    intro readable
    cases readable with
    | blanks isBlank =>
        exact ⟨⟨Lexeme.blanks, .skip⟩, by simp [table], isSome_blanks.mpr isBlank⟩
    | newline isLineEnd => exact token _ "newline" (by simp [table]) (isSome_newline.mpr isLineEnd)
    | comment isMark => exact token _ "comment" (by simp [table]) (isSome_comment.mpr isMark)
    | string isQuote closed =>
        exact token _ "string" (by simp [table]) (isSome_quoted.mpr ⟨isQuote, closed⟩)
    | number isDigit => exact token _ "number" (by simp [table]) (isSome_number.mpr isDigit)
    | identifier isLetter =>
        exact token _ "ident" (by simp [table]) (isSome_identifier.mpr isLetter)
    | @bracket bracket member opens =>
        exact ⟨⟨.literal bracket.opener.toList, .switch bracket⟩, by simp [table, member],
          (isSome_literal (length_bracket member).1).mpr opens⟩
    | punct isPunctuation =>
        exact token _ "punct" (by simp [table]) (isSome_punct.mpr isPunctuation)

/-! ## What can be read -/

theorem opener_cases {bracket : Bracket} (member : bracket ∈ brackets)
    (opens : bracket.opener = c.toString) : c = '(' ∨ c = '[' ∨ c = '\x7b' := by
  have openers : ∀ bracket ∈ brackets, bracket.opener.toList ∈ [['('], ['['], ['\x7b']] := by
    decide
  have opener := openers bracket member
  rw [opens] at opener
  simpa using opener

theorem closer_cases {bracket : Bracket} (member : bracket ∈ brackets)
    (closes : bracket.closer = c.toString) : c = ')' ∨ c = ']' ∨ c = '\x7d' := by
  have closers : ∀ bracket ∈ brackets, bracket.closer.toList ∈ [[')'], [']'], ['\x7d']] := by
    decide
  have closer := closers bracket member
  rw [closes] at closer
  simpa using closer

theorem not_readable_of_closer {bracket : Bracket} (member : bracket ∈ brackets)
    (closes : bracket.closer = c.toString) : ¬ Readable c rest := by
  have closer := closer_cases member closes
  intro readable
  cases readable with
  | bracket among opens =>
      rcases opener_cases among opens with rfl | rfl | rfl <;> simp at closer
  | blanks isChar | newline isChar | comment isChar | string isChar | number isChar
  | identifier isChar | punct isChar =>
      rcases closer with rfl | rfl | rfl <;> simp [Blank, punctuation] at isChar

theorem closed_of_readable (isQuote : c = '"' ∨ c = '\'') (readable : Readable c rest) :
    (Lexeme.closing c rest).isSome := by
  cases readable with
  | string _ closed => exact closed
  | bracket among opens =>
      rcases opener_cases among opens with rfl | rfl | rfl <;> simp at isQuote
  | blanks isChar | newline isChar | comment isChar | number isChar | identifier isChar
  | punct isChar =>
      rcases isQuote with rfl | rfl <;> simp [Blank, punctuation] at isChar

theorem Readable.known (readable : Readable c rest) : Known c := by
  cases readable with
  | blanks isChar | newline isChar =>
      rcases isChar with rfl | rfl <;> exact Or.inr (Or.inl (by decide))
  | comment isMark =>
      rcases isMark with rfl | ⟨rfl, _⟩
      · exact Or.inr (Or.inl (by decide))
      · exact Or.inr (Or.inr (Or.inr (by decide)))
  | string isQuote => rcases isQuote with rfl | rfl <;> exact Or.inr (Or.inl (by decide))
  | number isDigit => exact Or.inl (Bool.or_eq_true_iff.mpr (Or.inr isDigit))
  | identifier isLetter =>
      rcases isLetter with letter | rfl
      · exact Or.inl (Bool.or_eq_true_iff.mpr (Or.inl letter))
      · exact Or.inr (Or.inl (by decide))
  | @bracket bracket member opens => exact Or.inr (Or.inr (Or.inl ⟨bracket, member, Or.inl opens⟩))
  | punct isPunctuation => exact Or.inr (Or.inr (Or.inr isPunctuation))

theorem readable_of_known (known : Known c)
    (noCloser : ∀ bracket ∈ brackets, bracket.closer ≠ c.toString)
    (noQuote : ¬ (c = '"' ∨ c = '\'')) : Readable c rest := by
  rcases known with alphanumeric | special | ⟨bracket, member, opens | closes⟩ | punct
  · rcases Bool.or_eq_true_iff.mp alphanumeric with letter | digit
    · exact .identifier (Or.inl letter)
    · exact .number digit
  · simp only [List.mem_cons, List.not_mem_nil, or_false] at special
    rcases special with underscore | space | tab | carriage | feed | hash | double | single
    · exact .identifier (Or.inr underscore)
    · exact .blanks (Or.inl space)
    · exact .blanks (Or.inr tab)
    · exact .newline (Or.inl carriage)
    · exact .newline (Or.inr feed)
    · exact .comment (Or.inl hash)
    · exact absurd (Or.inl double) noQuote
    · exact absurd (Or.inr single) noQuote
  · exact .bracket member opens
  · exact absurd closes (noCloser bracket member)
  · exact .punct punct

/-- What the lexer cannot read is what none of its rules matches at and what closes no bracket that
is open. -/
theorem unreadable_iff {expected : List String} (waits : ∀ closer, expected.head? = some closer →
      ∃ bracket ∈ brackets, bracket.closer = closer) :
    Unreadable expected c rest ↔ ¬ Readable c rest ∧ expected.head? ≠ some c.toString := by
  constructor
  · intro unreadable
    cases unreadable with
    | bracket member closes unexpected =>
        exact ⟨not_readable_of_closer member closes, closes ▸ unexpected⟩
    | quote isQuote unclosed =>
        refine ⟨fun readable => ?_, fun expectedHere => ?_⟩
        · have closed := closed_of_readable isQuote readable
          rw [unclosed] at closed
          cases closed
        · obtain ⟨bracket, member, closes⟩ := waits _ expectedHere
          rcases closer_cases member closes with rfl | rfl | rfl <;> simp at isQuote
    | unknown unknown =>
        refine ⟨fun readable => unknown readable.known, fun expectedHere => ?_⟩
        obtain ⟨bracket, member, closes⟩ := waits _ expectedHere
        exact unknown (Or.inr (Or.inr (Or.inl ⟨bracket, member, Or.inr closes⟩)))
  · rintro ⟨noRule, unexpected⟩
    by_cases closes : ∃ bracket ∈ brackets, bracket.closer = c.toString
    · obtain ⟨bracket, member, closes⟩ := closes
      exact .bracket member closes (closes ▸ unexpected)
    · by_cases isQuote : c = '"' ∨ c = '\''
      · refine .quote isQuote (Option.not_isSome_iff_eq_none.mp fun closed => ?_)
        exact noRule (.string isQuote closed)
      · refine .unknown fun known => noRule (readable_of_known known ?_ isQuote)
        exact fun bracket member same => closes ⟨bracket, member, same⟩

end Starts

/-! ## Where the lexer is stuck -/

section Stuck

variable {graph : Graph} {tokenizer : Tokenizer} {stream : TokenStream} {expected : List String}

/-- Where the lexer is stuck, no rule matches. -/
theorem Stuck.fails (stuck : Stuck graph tokenizer expected stream)
    (lexer : IsLexer graph tokenizer) (free : graph.FreeOfFunctions) {entry : Entry}
    (member : entry ∈ table) : entry.scan (stream.input.text.ahead stream.index) = none := by
  obtain ⟨level, outer, active⟩ := stuck.levels.exists_innermost
  have realizes := lexer.realizes (stuck.levels.known active)
  obtain ⟨rule, among, realized⟩ := exists_left_of_mem realizes member
  have failed := stuck.nothing rule.pattern ⟨level, outer, active, Or.inr ⟨rule, among, rfl⟩⟩
  rw [lexer.config] at failed
  exact realized.spans.failed free stuck.inside failed

/-- Where the lexer is stuck, the closing bracket that it waits for does not stand. -/
theorem Stuck.unexpected (stuck : Stuck graph tokenizer expected stream)
    (lexer : IsLexer graph tokenizer) (free : graph.FreeOfFunctions) {closer : String}
    (innermost : expected.head? = some closer) :
    Scan.literal closer.toList (stream.input.text.ahead stream.index) = none := by
  have nothing := stuck.nothing
  have levels := stuck.levels
  unfold Tries at nothing
  generalize stream.active = active at nothing levels
  cases levels with
  | outermost => cases innermost
  | @inside level outer bracket stop closers known _ ends _ spans _ =>
      cases innermost
      have failed := nothing stop ⟨level, outer, rfl, Or.inl ends⟩
      rw [lexer.config] at failed
      exact spans.failed free stuck.inside failed

/-- What the lexer waits for are closing brackets. -/
theorem Levels.waits {active : List Active} (levels : Levels graph tokenizer active expected) :
    ∀ closer, expected.head? = some closer → ∃ bracket ∈ brackets, bracket.closer = closer := by
  intro closer innermost
  cases levels with
  | outermost => cases innermost
  | @inside _ _ bracket _ _ _ member =>
      cases innermost
      exact ⟨bracket, member, rfl⟩

/-- Where the lexer is stuck before the end of its text, something stands that it cannot read. -/
theorem Stuck.unreadable (stuck : Stuck graph tokenizer expected stream)
    (lexer : IsLexer graph tokenizer) (free : graph.FreeOfFunctions) {c : Char} {rest : List Char}
    (ahead : stream.input.text.ahead stream.index = c :: rest) : Unreadable expected c rest := by
  have waits := stuck.levels.waits
  refine (unreadable_iff waits).mpr ⟨fun readable => ?_, fun expectedHere => ?_⟩
  · obtain ⟨entry, member, found⟩ := exists_entry_iff.mpr readable
    rw [← ahead, stuck.fails lexer free member] at found
    cases found
  · obtain ⟨bracket, member, closes⟩ := waits _ expectedHere
    have found : (Scan.literal bracket.closer.toList (c :: rest)).isSome :=
      (isSome_literal (length_bracket member).2).mpr closes
    rw [closes, ← ahead, stuck.unexpected lexer free expectedHere] at found
    cases found

end Stuck

/-! ## Where the lexer goes on -/

section Onward

variable {graph : Graph} {tokenizer : Tokenizer} {stream later last : TokenStream}
  {expected : List String}

/-- A token begins with something that can be read. -/
theorem goes_readable (lexer : IsLexer graph tokenizer) (free : graph.FreeOfFunctions)
    (levels : Levels graph tokenizer stream.active expected) (placed : stream.Placed)
    {token : Token} (goes : stream.Goes graph tokenizer (some token) later) {c : Char}
    {rest : List Char} (ahead : stream.input.text.ahead stream.index = c :: rest) :
    ¬ Unreadable expected c rest := by
  rw [unreadable_iff levels.waits]
  rintro ⟨noRule, unexpected⟩
  have ofRule : ∀ {level outer rule m}, stream.active = level :: outer →
      Decides graph tokenizer stream.input.text stream.index level rule m → False := by
    intro level outer rule m active decides
    obtain ⟨entry, member, _, width, taken, _⟩ :=
      lexer.entry_of_decides free placed.index (levels.known active) decides
    rw [ahead] at taken
    exact noRule (exists_entry_iff.mp ⟨entry, member, Option.isSome_of_eq_some taken⟩)
  have moves := @moves graph tokenizer stream
  cases goes with
  | yield goesOn moved answer =>
      rw [moved] at moves
      cases moves with
      | failed | unmatched | missing | stalled => cases answer
      | closed active ends found =>
          unfold Finds at found
          rw [lexer.config] at found
          obtain ⟨bracket, member, closers, rfl, _, spans, _⟩ := levels.inside_of_stop active ends
          obtain ⟨width, taken, _⟩ := spans.found free placed.index found
          rw [ahead] at taken
          have stands := (isSome_literal (length_bracket member).2).mp
            (Option.isSome_of_eq_some taken)
          exact unexpected (congrArg some stands)
      | token active decides | switched active decides => exact ofRule active decides

/-- The token that a request is answered with begins with something that can be read. -/
theorem next_readable (lexer : IsLexer graph tokenizer) (free : graph.FreeOfFunctions)
    (levels : Levels graph tokenizer stream.active expected) (placed : stream.Placed)
    {token : Token} (answered : (stream.next graph tokenizer).answer = .ok (some token)) :
    ∃ c rest, stream.input.text.ahead token.result.start = c :: rest ∧
      ¬ Unreadable expected c rest := by
  obtain ⟨skips, last, run, areSkips, goes⟩ := next_goes answered
  obtain ⟨placedLast, forth, text⟩ := run.advances placed
  have levelsLast := run.active_of_skips areSkips ▸ levels
  obtain ⟨advances, placedLater⟩ := goes.advances placedLast
  obtain ⟨cutOut, _⟩ := goes_token lexer free levelsLast placedLast goes
  have inside := placedLater.index
  have progress := cutOut.progress
  rw [advances.text] at inside
  obtain ⟨c, rest, ahead⟩ := Text.ahead_of_lt (Nat.lt_of_lt_of_le progress inside)
  have readable := goes_readable lexer free levelsLast placedLast goes ahead
  rw [text, ← cutOut.start] at ahead
  exact ⟨c, rest, ahead, readable⟩

/-- No token begins with something that cannot be read. -/
theorem reads_of_yields (lexer : IsLexer graph tokenizer) (free : graph.FreeOfFunctions)
    (levels : Levels graph tokenizer stream.active expected) (placed : stream.Placed)
    {tokens : List (Token × Nat)} (yields : Yields graph tokenizer stream tokens last) :
    Reads stream.input.text expected tokens := by
  induction yields generalizing expected with
  | nothing => simp [Reads]
  | @token stream last first tokens answered _ inductionHypothesis =>
      intro before token position after split
      cases before with
      | nil =>
          cases split
          obtain ⟨c, rest, ahead, readable⟩ := next_readable lexer free levels placed answered
          exact ⟨expected, c, rest, rfl, ahead, readable⟩
      | cons head before =>
          cases split
          obtain ⟨text, _, _, _, placedNext, _, next, counted, levelsNext⟩ :=
            next_token lexer free levels placed answered
          obtain ⟨waiting, c, rest, waits, ahead, readable⟩ :=
            inductionHypothesis levelsNext placedNext before token position after rfl
          refine ⟨waiting, c, rest, ?_, text ▸ ahead, readable⟩
          rw [List.map_cons, List.foldlM_cons, counted]
          exact waits

end Onward

/-! ## The exit code -/

section Listing

open CommandLine

variable {graph : Graph} {tokenizer : Tokenizer} {stream last : TokenStream}
  {tokens : List (Token × Nat)}

/-- The list of all tokens of a stream, which fails where the stream stops before the end. -/
theorem listTokens_code (logging : Bool) (yields : Yields graph tokenizer stream tokens last)
    {most : Nat} (enough : tokens.length < most) :
    (listTokens graph tokenizer logging most stream).code = if last.atEnd then 0 else 1 := by
  induction yields generalizing most with
  | @nothing stream answer =>
      obtain ⟨most, rfl⟩ := Nat.exists_eq_add_of_le' enough
      unfold listTokens
      dsimp only
      rw [answer]
      dsimp only
      split <;> rfl
  | token answer rest inductionHypothesis =>
      obtain ⟨most, rfl⟩ := Nat.exists_eq_add_of_le' (Nat.zero_lt_of_lt enough)
      unfold listTokens
      dsimp only
      rw [answer]
      exact inductionHypothesis (Nat.lt_of_succ_lt_succ enough)

/-- The command lists the tokens of the lexer that is built, unless it is given another limit or a
trace filter. -/
theorem listText_of_tokens {text : Text} {offset : Int} {start : TokenStream}
    {trace : List TraceEntry} (begins : built.tokens text offset = .ok (start, trace))
    (verbose : Bool) :
    listText { offset, verbose } text =
      (listTokens patterns built verbose (text.length + 1) start).after ""
        (logText verbose trace) := by
  have parts : Lexer.tokenizer.run {} = (built, patterns) := by
    unfold built patterns
    exact Prod.mk.eta.symm
  have plain : { built with config := {} } = built := by rw [← isLexer_built.config]
  unfold listText
  rw [parts]
  simp only [Option.isSome_none, Bool.or_false, plain, begins]

end Listing

/-- From any position of any text on, the lexer yields tokens up to the end of the text, or up to
the first thing that it cannot read: a closing bracket other than the one for the innermost open
bracket, a quote without a partner, or an unknown character. The command that lists the tokens
fails in the second case, and only then. -/
theorem stops_at_unreadable {text : Text} {offset : Int} {i : Nat}
    (valid : text.position? offset = some i) (verbose : Bool) :
    ∃ start trace tokens last unclosed, built.tokens text offset = .ok (start, trace) ∧
      start.index = i ∧ Yields patterns built start tokens last ∧
      (tokens.map Prod.fst).foldlM expect [] = some unclosed ∧ Reads text [] tokens ∧
      (last.index = text.length ∨
        ∃ c rest, text.ahead last.index = c :: rest ∧ Unreadable unclosed c rest) ∧
      (CommandLine.listText { offset, verbose } text).code =
        if last.index < text.length then 1 else 0 := by
  obtain ⟨start, trace, begins, index, levels⟩ := levels_start isLexer_built valid
  obtain ⟨placed, sameText, goesOn, _⟩ := Tokenizer.placed_of_tokens begins
  obtain ⟨tokens, last, unclosed, yields, textLast, cuts, nests, stuck⟩ :=
    exists_yields isLexer_built free_patterns levels placed goesOn
  have inside := stuck.inside
  rw [textLast, sameText] at inside
  refine ⟨start, trace, tokens, last, unclosed, begins, index, yields, nests, ?reads, ?stops,
    ?code⟩
  case reads => exact sameText ▸ reads_of_yields isLexer_built free_patterns levels placed yields
  case stops =>
    rcases Nat.lt_or_eq_of_le inside with below | atEnd
    · obtain ⟨c, rest, ahead⟩ := Text.ahead_of_lt below
      refine Or.inr ⟨c, rest, ahead, stuck.unreadable isLexer_built free_patterns ?_⟩
      rw [textLast, sameText, ahead]
    · exact Or.inl atEnd
  case code =>
    have few := cuts.length_le
    have enough : tokens.length < text.length + 1 := by omega
    rw [listText_of_tokens begins]
    refine (listTokens_code verbose yields enough).trans ?_
    unfold TokenStream.atEnd
    rw [textLast, sameText]
    by_cases below : last.index < text.length
    · simp [below]
    · simp [below, Nat.le_of_not_lt below]

/-- The bracket that closes the text is not the one for the bracket that is open. -/
theorem stops_at_unreadable_bracket :
    let text := Text.ofString "f(x ]"
    text.position? 0 = some 0 ∧
    ∃ start trace tokens last, built.tokens text 0 = .ok (start, trace) ∧
      start.index = 0 ∧ Yields patterns built start tokens last ∧
      tokens.map shown = [("ident", "f", 1), ("open", "(", 2), ("ident", "x", 3)] ∧
      (tokens.map Prod.fst).foldlM expect [] = some [")"] ∧ Reads text [] tokens ∧
      last.index = 4 ∧ text.ahead 4 = [']'] ∧ Unreadable [")"] ']' [] ∧
      (CommandLine.listText { offset := 0, verbose := true } text).code = 1 := by
  intro text
  have valid : text.position? 0 = some 0 := by decide
  have lists : listing text 0 =
      some ([("ident", "f", 1), ("open", "(", 2), ("ident", "x", 3)], 4, some [")"]) := by
    decide +kernel
  obtain ⟨start, trace, tokens, last, unclosed, begins, index, yields, nests, reads, stops, code⟩ :=
    stops_at_unreadable valid true
  obtain ⟨shows, ends, waits⟩ := shown_of_listing begins yields lists (by decide)
  have here : text.ahead 4 = [']'] := by decide
  cases nests.symm.trans waits
  rw [ends] at stops code
  obtain atEnd | ⟨c, rest, ahead, unreadable⟩ := stops
  · exact absurd atEnd (by decide)
  · cases here.symm.trans ahead
    exact ⟨valid, start, trace, tokens, last, begins, index, yields, shows, waits, reads, ends,
      here, unreadable, code⟩

end Lexer

end PegEngine
