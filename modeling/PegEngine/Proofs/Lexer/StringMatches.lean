import PegEngine.Proofs.Lexer.Strings
import PegEngine.Proofs.Pattern.Lines

/-!
Contract: the string pattern of the lexer matches the strings that a scan finds closed.

`closing` says at once whether a string is closed and where. Here the scan only skips: it stops
somewhere in every text, and the string is closed if it stops at the quote.

Owns:
- `Lexeme.skipped`, the scan, and `closing_eq`, that it finds what `closing` finds;
- `ClosedString`, a string at a position of a text;
- `makes_string_functionFree`, so that matches from the outside are matches by value;
- `string_matches_closed`, for every text, position and earlier bindings.
-/

namespace PegEngine

namespace Lexer

open Build

namespace Lexeme

/-- How many characters a scan for the end of a string skips: a backslash with the character behind
it if there is one, and every other character but the quote and the line ends. -/
def skipped (quote : Char) : List Char → Nat
  | '\\' :: _ :: rest => skipped quote rest + 2
  | c :: rest =>
      if c = '\\' then 1
      else if c = quote ∨ c = '\r' ∨ c = '\n' then 0
      else skipped quote rest + 1
  | [] => 0

/-- A string is closed if the scan for its end stops at the quote. -/
theorem closing_eq {quote : Char} (isQuote : isQuote quote) (ahead : List Char) :
    closing quote ahead =
      if (ahead.drop (skipped quote ahead)).head? = some quote then some (skipped quote ahead)
      else none := by
  have noEscape : quote ≠ '\\' := by
    rintro rfl
    cases isQuote
  fun_induction closing quote ahead with
  | case1 next rest inductionHypothesis =>
      rw [inductionHypothesis, skipped]
      simp only [List.drop_succ_cons]
      split <;> rfl
  | case2 rest noPair =>
      simp [skipped.eq_2 quote quote rest noPair, noEscape]
  | case3 c rest noPair noQuote stops =>
      rw [skipped.eq_2 quote c rest noPair]
      by_cases backslash : c = '\\'
      · have last : rest = [] := by
          cases rest with
          | nil => rfl
          | cons next rest => exact (noPair next rest backslash rfl).elim
        simp [backslash, last]
      · have isEnd := stops.resolve_left backslash
        simp [backslash, noQuote, isEnd]
  | case4 c rest noPair noQuote goesOn inductionHypothesis =>
      obtain ⟨noBackslash, noEnd⟩ := not_or.mp goesOn
      rw [skipped.eq_2 quote c rest noPair, if_neg noBackslash,
        if_neg (not_or.mpr ⟨noQuote, noEnd⟩), inductionHypothesis]
      simp only [List.drop_succ_cons]
      split <;> rfl
  | case5 => rfl

end Lexeme

/-- A string over `i` to `k + 1`: it opens with a quote, and the scan for its end stops at `k`,
where the same quote stands. -/
structure ClosedString (text : Text) (i : Nat) (quote : Char) (k : Nat) : Prop where
  isQuote : quote = '"' ∨ quote = '\''
  opens : text.charAt? i = some quote
  stops : k = i + 1 + Lexeme.skipped quote (text.ahead (i + 1))
  closes : text.charAt? k = some quote

theorem ClosedString.lt_length {text : Text} {i k : Nat} {quote : Char}
    (closed : ClosedString text i quote k) : i < text.length := by
  have first := closed.opens
  rw [Text.charAt?_eq_head?] at first
  obtain ⟨rest, ahead⟩ := List.head?_eq_some_iff.mp first
  exact Text.lt_of_ahead ahead

/-- A position begins at most one string. -/
theorem ClosedString.unique {text : Text} {i k other : Nat} {quote quote' : Char}
    (closed : ClosedString text i quote k) (alike : ClosedString text i quote' other) :
    quote = quote' ∧ k = other := by
  obtain rfl : quote = quote' := Option.some.inj (closed.opens.symm.trans alike.opens)
  exact ⟨rfl, closed.stops.trans alike.stops.symm⟩

theorem isQuote_iff {c : Char} : Lexeme.isQuote c ↔ c = '"' ∨ c = '\'' := by
  unfold Lexeme.isQuote
  rw [CharSet.contains_ofString]
  simp

section Strings

variable {text : Text} {i k : Nat} {quote : Char} {store : ByValue.Store}

/-- Behind an opening quote, the string is closed where the scan stops. -/
theorem closing_eq_some_iff {rest : List Char} (opens : text.ahead i = quote :: rest)
    (isQuote : Lexeme.isQuote quote) {width : Nat} :
    Lexeme.closing quote rest = some width ↔ ClosedString text i quote (i + 1 + width) := by
  have behind : text.ahead (i + 1) = rest := Text.ahead_succ opens
  rw [Lexeme.closing_eq isQuote, ← behind]
  constructor
  · intro closed
    split at closed
    · next closes =>
        cases closed
        refine ⟨isQuote_iff.mp isQuote, ?_, rfl, ?_⟩
        · rw [Text.charAt?_eq_head?, opens]
          rfl
        · rwa [Text.charAt?_eq_head?, ← Text.drop_ahead]
    · cases closed
  · intro ⟨_, _, stops, closes⟩
    have same : width = Lexeme.skipped quote (text.ahead (i + 1)) := Nat.add_left_cancel stops
    rw [← same, Text.drop_ahead, ← Text.charAt?_eq_head?, if_pos closes]

theorem stringAt_of_closed (closed : ClosedString text i quote k) :
    stringAt text i store =
      some ({ source := text, start := i, stop := k + 1,
              captures := [.text (text.slice (i + 1) k)] },
            store.bind "q" (.text (String.ofList [quote]))) := by
  obtain ⟨rest, opens⟩ : ∃ rest, text.ahead i = quote :: rest := by
    have first := closed.opens
    rw [Text.charAt?_eq_head?] at first
    exact List.head?_eq_some_iff.mp first
  have isQuote : Lexeme.isQuote quote := isQuote_iff.mpr closed.isQuote
  obtain ⟨width, rfl⟩ : ∃ width, k = i + 1 + width := ⟨_, closed.stops⟩
  have found := (closing_eq_some_iff opens isQuote).mpr closed
  unfold stringAt
  rw [opens]
  simp [isQuote, found, Text.matchOver]

theorem stringAt_of_not_closed (noString : ∀ quote k, ¬ ClosedString text i quote k) :
    stringAt text i store = none := by
  unfold stringAt
  split
  · rfl
  · next quote rest opens =>
      split
      · next isQuote =>
          rw [Option.map_eq_none_iff, Option.eq_none_iff_forall_ne_some]
          exact fun width found => noString _ _ ((closing_eq_some_iff opens isQuote).mp found)
      · rfl

end Strings

/-! ## Matches from the outside -/

/-- A match at a position takes the string there if it is closed, captures what is between the
quotes and binds the quote. If there is none, nothing is matched and the bindings stay as they
are. -/
structure MatchesClosed (run : MatchRun) (input : Input) (index : Nat) : Prop where
  matched {quote k} (closed : ClosedString input.text index quote k) :
    run.result = .ok (some { source := input.text, start := index, stop := k + 1,
                             captures := [.text (input.text.slice (index + 1) k)] })
  bound {quote k} (closed : ClosedString input.text index quote k) :
    run.input.bindings = input.bindings.bind "q" (.text (String.ofList [quote]))
  missed (noString : ∀ quote k, ¬ ClosedString input.text index quote k) : run.result = .ok none
  kept (noString : ∀ quote k, ¬ ClosedString input.text index quote k) :
    run.input.bindings = input.bindings

theorem makes_string_functionFree {final : Graph} :
    Makes final Lexer.string final.FunctionFree := by
  refine .bind (.ofKind_free (.literal _) nofun nofun) fun escape => ?_
  refine .bind (.ofKind_free (.chars 1) nofun nofun) fun next => ?_
  refine .bind (.sequence_free _) fun escaped => ?_
  refine .bind (.ofKind_free (.chars 1) nofun nofun) fun one => ?_
  refine .bind (.ofKind_free (.backReference "q") nofun nofun) fun bound => ?_
  refine .bind (.ofKind_free (.literal _) nofun nofun) fun backslash => ?_
  refine .bind makes_newline_functionFree fun lineEnd => ?_
  refine .bind (.choice_free _) fun stop => ?_
  refine .bind (.except_free one stop) fun plain => ?_
  refine .bind (.ofKind_free (.charSet _) nofun nofun) fun quote => ?_
  refine .bind (.ofKind_free (.backCapture "q" quote none) nofun nofun) fun opening => ?_
  refine .bind (.choice_free _) fun step => ?_
  refine .bind (.ofKind_free (.repetition step (.atLeast 0)) nofun nofun) fun body => ?_
  refine .bind (.ofKind_free (.capture body) nofun nofun) fun captured => ?_
  refine .bind (.ofKind_free (.backReference "q") nofun nofun) fun close => ?_
  refine (Makes.sequence_free _).mono ?_
  intro pattern whole closes captures repeats isStep opens quotes isPlain isStop isLineEnd
    isBackslash isBound isOne isEscaped isNext isEscape
  simp only [Kind.children, List.mem_cons, List.not_mem_nil, forall_eq_or_imp, false_implies,
    implies_true, and_true, forall_const, and_imp] at *
  exact whole (opens quotes) (captures (repeats (isStep (isEscaped isEscape isNext)
    (isPlain isOne (isStop isBound isBackslash isLineEnd))))) closes

section Outside

variable {start graph : Graph} {input : Input} {context : Context}

/-- How the string pattern ends, by value. -/
theorem matchByValue_string (grown : (Lexer.string.run start).2.Grown graph)
    (room : context.depth + 9 ≤ context.config.limit) (index : Nat) :
    graph.matchByValue (Lexer.string.run start).1 input index context =
      .ok (stringAt input.text (min index input.text.length) (context.state input).store) := by
  obtain ⟨nodes⟩ := makes_string.holds start grown
  obtain ⟨left, enough⟩ : ∃ left, context.config.limit - context.depth = left + 8 + 1 :=
    ⟨context.config.limit - context.depth - 9, by omega⟩
  unfold Graph.matchByValue
  rw [enough]
  exact nodes.matches_closing (Nat.min_le_right ..) (Nat.le_add_left ..) _ _ _

/-- The string pattern matches exactly the closed strings, and never ends in an error. -/
theorem string_matches_closed (start : Graph) (grown : (Lexer.string.run start).2.Grown graph)
    (room : context.depth + 9 ≤ context.config.limit) (input : Input) (index : Nat) :
    MatchesClosed (graph.matchIn (Lexer.string.run start).1 input index context) input index := by
  have free : graph.FunctionFree (Lexer.string.run start).1 :=
    makes_string_functionFree.holds start grown
  have byValue := @matchByValue_string start graph input context grown room index
  have ended := Graph.result_matchIn free input index context
  rw [byValue] at ended
  by_cases isString : ∃ quote k, ClosedString input.text index quote k
  · obtain ⟨quote, k, closed⟩ := isString
    rw [Nat.min_eq_left (Nat.le_of_lt closed.lt_length), stringAt_of_closed closed] at ended byValue
    have left := Graph.store_matchIn_of_found free byValue
    refine ⟨fun other => ?_, fun other => ?_, fun noString => ?_, fun noString => ?_⟩
    case refine_1 =>
      obtain ⟨rfl, rfl⟩ := closed.unique other
      exact ended
    case refine_2 =>
      obtain ⟨rfl, rfl⟩ := closed.unique other
      exact congrArg ByValue.Store.bindings left
    all_goals exact (noString quote k closed).elim
  · have noString : ∀ quote k, ¬ ClosedString input.text index quote k := by simpa using isString
    have noneThere : ∀ quote k,
        ¬ ClosedString input.text (min index input.text.length) quote k := by
      intro quote k closed
      have below : index ≤ input.text.length := by
        have := closed.lt_length
        omega
      rw [Nat.min_eq_left below] at closed
      exact noString quote k closed
    rw [stringAt_of_not_closed noneThere] at ended
    have isolated := (Graph.matchIn_isolated (free.lawful input.text) index context).1
    have kept := isolated.bindings fun m found => nomatch ended.symm.trans found
    exact ⟨fun closed => (noString _ _ closed).elim, fun closed => (noString _ _ closed).elim,
      fun _ => ended, fun _ => kept⟩

/-- With the default limit: a string that has its own quote behind a backslash is matched over both
quotes, and one that a line end interrupts is not matched, whatever was bound before. -/
theorem string_matches_closed_escaped :
    let input : Input :=
      { text := .ofString "'a\\'b' 'c\n'", bindings := ({} : Bindings).bind "q" (.text "\"") }
    let run := fun index =>
      (Lexer.string.run {}).2.matchIn (Lexer.string.run {}).1 input index {}
    ({} : Context).depth + 9 ≤ ({} : Context).config.limit ∧
      (run 0).result = .ok (some { source := input.text, start := 0, stop := 6,
                                   captures := [.text "a\\'b"] }) ∧
      (run 0).input.bindings = input.bindings.bind "q" (.text "'") ∧
      (run 7).result = .ok none ∧ (run 7).input.bindings = input.bindings := by
  intro input run
  have room : ({} : Context).depth + 9 ≤ ({} : Context).config.limit := by decide
  have atString : MatchesClosed (run 0) input 0 := string_matches_closed {} (.refl _) room input 0
  have atOther : MatchesClosed (run 7) input 7 := string_matches_closed {} (.refl _) room input 7
  have closed : ClosedString input.text 0 '\'' 5 :=
    ⟨by decide, by decide, by decide, by decide⟩
  have unclosed : ∀ quote k, ¬ ClosedString input.text 7 quote k := by
    intro quote k other
    obtain rfl : '\'' = quote := Option.some.inj other.opens
    have stops : k = 9 := other.stops
    have closes := other.closes
    rw [stops] at closes
    cases closes
  exact ⟨room, atString.matched closed, atString.bound closed, atOther.missed unclosed,
    atOther.kept unclosed⟩

end Outside

end Lexer

end PegEngine
