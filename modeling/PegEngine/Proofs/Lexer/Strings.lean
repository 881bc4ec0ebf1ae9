import PegEngine.Proofs.Lexer.Patterns

/-!
Contract: what the string pattern of the lexer matches.

The pattern binds its opening quote, captures what it steps through, and wants the same quote after
that. The steps never pass over the quote that closes the string, so that a scan for that quote says
where the string ends.

Owns:
- `Lexeme.closing`, the scan for the closing quote, and `repeats_stringStep`, that the steps of the
  pattern take as much;
- `StringNodes`, the nodes of the pattern, and `makes_string`;
- `StringNodes.matches_closing`, the end of a match of the pattern.
-/

namespace PegEngine

namespace Lexer

open Build

namespace Lexeme

def isQuote : Char → Bool :=
  (CharSet.ofString "\"'").contains

/-- One step through a string: a backslash with the character behind it, or a character that
neither closes the string nor ends the line. -/
def stringStep (quote : Char) : Scan :=
  .choice [.sequence [.literal "\\".toList, .chars 1],
    .sequence [(Scan.choice [.literal [quote], .literal "\\".toList, newline]).absent, .chars 1]]

/-- The number of characters in front of the quote that closes a string, if one does. -/
def closing (quote : Char) : List Char → Option Nat
  | '\\' :: _ :: rest => (closing quote rest).map (· + 2)
  | c :: rest =>
      if c = quote then some 0
      else if c = '\\' ∨ c = '\r' ∨ c = '\n' then none
      else (closing quote rest).map (· + 1)
  | [] => none

/-- The quote that closes a string is there. -/
theorem closing_lt {quote : Char} {ahead : List Char} {width : Nat}
    (closed : closing quote ahead = some width) : width < ahead.length := by
  fun_induction closing quote ahead generalizing width with
  | case1 next rest inductionHypothesis =>
      obtain ⟨before, closedLater, rfl⟩ := Option.map_eq_some_iff.mp closed
      exact Nat.add_lt_add_right (inductionHypothesis closedLater) 2
  | case2 =>
      cases closed
      exact Nat.succ_pos _
  | case3 => cases closed
  | case4 c rest _ _ _ inductionHypothesis =>
      obtain ⟨before, closedLater, rfl⟩ := Option.map_eq_some_iff.mp closed
      exact Nat.succ_lt_succ (inductionHypothesis closedLater)
  | case5 => cases closed

/-- What ends a string or begins an escape. -/
def interrupts (quote c : Char) : Bool :=
  c == quote || (c == '\\' || isLineEnd c)

theorem decidedBy_interrupts (quote : Char) :
    (Scan.choice [.literal [quote], .literal "\\".toList, newline]).DecidedBy
      (interrupts quote) := by
  have decided := (Scan.isChar_literal quote).decidedBy.choice
    ((Scan.isChar_literal '\\').decidedBy.choice
      (decidedBy_newline.choice Scan.isChar_choice_nil.decidedBy))
  simp only [Bool.or_false] at decided
  exact decided

theorem stringStep_eq (quote : Char) (ahead : List Char) :
    stringStep quote ahead =
      (Scan.sequence [.literal ['\\'], .chars 1] ahead).or
        (Scan.char (!interrupts quote ·) ahead) := by
  have plain := (decidedBy_interrupts quote).isChar_except.choice Scan.isChar_choice_nil
  simp only [Bool.or_false] at plain
  rw [← plain]
  rfl

theorem stringStep_escape (quote next : Char) (rest : List Char) :
    stringStep quote ('\\' :: next :: rest) = some 2 := by
  rw [stringStep_eq]
  rfl

theorem stringStep_interrupted {quote c : Char} {rest : List Char}
    (interrupted : interrupts quote c) (noEscape : c = '\\' → rest = []) :
    stringStep quote (c :: rest) = none := by
  rw [stringStep_eq]
  have noPlain : Scan.char (!interrupts quote ·) (c :: rest) = none := by
    simp [Scan.char, interrupted]
  rw [noPlain, Option.or_none]
  by_cases backslash : c = '\\'
  · rw [backslash, noEscape backslash]
    rfl
  · simp [Scan.sequence, Scan.andThen, Scan.literal, Ne.symm backslash]

theorem stringStep_plain {quote c : Char} (plain : interrupts quote c = false)
    (rest : List Char) : stringStep quote (c :: rest) = some 1 := by
  have noEscape : c ≠ '\\' := by
    rintro rfl
    simp [interrupts] at plain
  rw [stringStep_eq]
  simp [Scan.sequence, Scan.andThen, Scan.literal, Ne.symm noEscape, Scan.char, plain]

theorem interrupts_iff {quote c : Char} :
    interrupts quote c ↔ c = quote ∨ c = '\\' ∨ c = '\r' ∨ c = '\n' := by
  simp [interrupts, isLineEnd]

/-- The steps through a string go as far as to the quote that closes it, if one does. -/
theorem repeats_stringStep {quote : Char} (isQuote : isQuote quote) (ahead : List Char) :
    ∃ count width, (stringStep quote).Repeats ahead count width ∧
      closing quote ahead = (Scan.literal [quote] (ahead.drop width)).map fun _ => width := by
  fun_induction closing quote ahead with
  | case1 next rest inductionHypothesis =>
      obtain ⟨count, width, repeats, closed⟩ := inductionHypothesis
      have taken := stringStep_escape quote next rest
      refine ⟨count + 1, 2 + width, .more taken Nat.zero_lt_two repeats, ?_⟩
      rw [closed, Option.map_map, ← List.drop_drop]
      simp only [Function.comp_def, Nat.add_comm 2, List.drop_succ_cons, List.drop_zero]
  | case2 rest noPair =>
      have isEnd : interrupts quote quote := interrupts_iff.mpr (Or.inl rfl)
      have noEscape : quote ≠ '\\' := by
        rintro rfl
        cases isQuote
      refine ⟨0, 0, .done (stringStep_interrupted isEnd (absurd · noEscape)), ?_⟩
      simp [Scan.literal]
  | case3 c rest noPair noQuote stops =>
      have isEnd : interrupts quote c := interrupts_iff.mpr (Or.inr stops)
      have last : c = '\\' → rest = [] := by
        intro backslash
        cases rest with
        | nil => rfl
        | cons next rest => exact (noPair next rest backslash rfl).elim
      refine ⟨0, 0, .done (stringStep_interrupted isEnd last), ?_⟩
      simp [Scan.literal, Ne.symm noQuote]
  | case4 c rest noPair noQuote goesOn inductionHypothesis =>
      obtain ⟨count, width, repeats, closed⟩ := inductionHypothesis
      have plain : interrupts quote c = false := by
        rw [Bool.eq_false_iff, ne_eq, interrupts_iff]
        exact not_or.mpr ⟨noQuote, goesOn⟩
      have taken := stringStep_plain plain rest
      refine ⟨count + 1, 1 + width, .more taken Nat.zero_lt_one repeats, ?_⟩
      rw [closed, Option.map_map, ← List.drop_drop]
      simp only [Function.comp_def, Nat.add_comm 1, List.drop_succ_cons, List.drop_zero]
  | case5 => exact ⟨0, 0, .done rfl, rfl⟩

end Lexeme

/-- The nodes that make up the string pattern. -/
structure StringNodes (graph : Graph) (pattern : PatternId) where
  opening : PatternId
  quote : PatternId
  captured : PatternId
  body : PatternId
  step : PatternId
  close : PatternId
  whole : graph.kind pattern = .sequence [opening, captured, close]
  binds : graph.kind opening = .backCapture "q" quote none
  quotes : ∀ store height, graph.Scans store height (graph.kind quote) (.char Lexeme.isQuote)
  captures : graph.kind captured = .capture body
  repeats : graph.kind body = .repetition step (.atLeast 0)
  /-- Each step looks out for the quote that is bound. -/
  steps : ∀ (store : ByValue.Store) (height : Nat) (c : Char),
    store.bindings.lookup? "q" = some (.text (String.ofList [c])) →
      graph.Scans store (height + 5) (graph.kind step) (Lexeme.stringStep c)
  closes : graph.kind close = .backReference "q"

/-- A reference to the quote that is bound scans for it. -/
theorem scans_bound {graph : Graph} {store : ByValue.Store} {pattern : PatternId} {c : Char}
    (kind : graph.kind pattern = .backReference "q")
    (bound : store.bindings.lookup? "q" = some (.text (String.ofList [c]))) (height : Nat) :
    graph.Scans store height (graph.kind pattern) (.literal [c]) := by
  have scans : graph.Scans store height _ _ := .of_kind kind (.backReference bound)
  rwa [Capture.display, String.toList_ofList] at scans

/-- An item that is no sequence stands for itself. -/
theorem opened_eq {graph : Graph} {item : PatternId} {inner : List PatternId}
    (opens : graph.Opens .sequence item inner)
    (other : ∀ items, graph.kind item ≠ .sequence items) : inner = [item] := by
  rcases opens with itself | opened
  · exact itself
  · exact absurd opened (other inner)

theorem makes_string {final : Graph} : Makes final Lexer.string fun pattern =>
    Nonempty (StringNodes final pattern) := by
  refine .bind (.scanLiteral _) fun escape => ?_
  refine .bind (.scanChars 1) fun next => ?_
  refine .bind (.scanSequence _) fun escaped => ?_
  refine .bind (.scanChars 1) fun one => ?_
  refine .bind (.ofKind (.backReference "q") nofun) fun bound => ?_
  refine .bind (.scanLiteral _) fun backslash => ?_
  refine .bind Lexeme.makes_newline fun lineEnd => ?_
  refine .bind (.scanChoice _) fun stop => ?_
  refine .bind (.scanExcept one stop) fun plain => ?_
  refine .bind (.scanCharSet _) fun quote => ?_
  refine .bind (.ofKind (.backCapture "q" quote none) nofun) fun opening => ?_
  refine .bind (.scanChoice _) fun step => ?_
  refine .bind (.ofKind (.repetition step (.atLeast 0)) nofun) fun body => ?_
  refine .bind (.ofKind (.capture body) nofun) fun captured => ?_
  refine .bind (.ofKind (.backReference "q") nofun) fun close => ?_
  refine (Makes.sequence _).mono ?_
  intro pattern ⟨opened, opens, whole⟩ closes captures repeats isStep binds quotes isPlain isStop
    isLineEnd isBackslash isBound isOne isEscaped isNext isEscape
  have asListed : [opening, captured, close].flatMap opened = [opening, captured, close] := by
    simp [opened_eq (opens opening) (by simp [binds]),
      opened_eq (opens captured) (by simp [captures]), opened_eq (opens close) (by simp [closes])]
  refine ⟨{ opening, quote, captured, body, step, close, binds, quotes, captures, repeats, closes,
            whole := whole.trans (congrArg Kind.sequence asListed), steps := ?_ }⟩
  intro store height c isBoundTo
  have scansStop := isStop (.cons (scans_bound isBound isBoundTo (height + 1))
    (.cons (isBackslash store _) (.cons (isLineEnd store height) .nil)))
  have scansPlain := isPlain (isOne store _) scansStop
  have scansEscaped := isEscaped (.cons (isEscape store (height + 3)) (.cons (isNext store _) .nil))
  exact isStep (.cons scansEscaped (.cons scansPlain .nil))

/-- A string at a position: the match over it and over both quotes, with what it captures, and the
store in which its quote is bound. -/
def stringAt (text : Text) (i : Nat) (store : ByValue.Store) : Option (Match × ByValue.Store) :=
  match text.ahead i with
  | [] => none
  | quote :: rest =>
      if Lexeme.isQuote quote then
        (Lexeme.closing quote rest).map fun width =>
          ({ text.matchOver i (i + 1 + width + 1) with
             captures := [.text (text.slice (i + 1) (i + 1 + width))] },
           store.bind "q" (.text (String.ofList [quote])))
      else none

namespace StringNodes

variable {graph : Graph} {pattern : PatternId} {store : ByValue.Store} {text : Text}
  {i limit room : Nat} {within : Option String}

theorem eval_opening (nodes : StringNodes graph pattern) (inside : i ≤ text.length)
    (enough : 2 ≤ room) :
    ByValue.eval { graph, text, limit } room within nodes.opening i store =
      .ok (((Scan.char Lexeme.isQuote).matchAt text i).map fun m =>
        (m, store.bind "q" (.text m.value))) := by
  obtain ⟨room, rfl⟩ := Nat.exists_eq_add_of_le' enough
  rw [ByValue.eval_succ nodes.binds inside]
  unfold ByValue.kind ByValue.backCapture
  dsimp only
  rw [(nodes.quotes store 0).eval inside (Nat.succ_pos room), ByValue.after_still]
  cases (Scan.char Lexeme.isQuote).matchAt text i <;> rfl

/-- The steps capture what they take, and leave the quote to the end of the pattern. -/
theorem eval_captured (nodes : StringNodes graph pattern) (inside : i ≤ text.length)
    (enough : 8 ≤ room) {c : Char}
    (bound : store.bindings.lookup? "q" = some (.text (String.ofList [c]))) {count width : Nat}
    (repeats : (Lexeme.stringStep c).Repeats (text.ahead i) count width) :
    ByValue.eval { graph, text, limit } room within nodes.captured i store =
      .ok (some ({ text.matchOver i (i + width) with
                   captures := [.text (text.slice i (i + width))] }, store)) := by
  obtain ⟨room, rfl⟩ := Nat.exists_eq_add_of_le' enough
  rw [ByValue.eval_succ nodes.captures inside]
  unfold ByValue.kind
  dsimp only
  rw [ByValue.eval_succ nodes.repeats inside]
  unfold ByValue.kind ByValue.repetition
  dsimp only
  have start : (text.matchOver i i).stop ≤ text.length := inside
  refine (congrArg (ByValue.after · store _) (Graph.atLeast_repeats (nodes.steps store 0 c bound)
    (by omega) 0 0 start (Nat.le_refl _) repeats)).trans ?_
  rw [if_pos (Nat.zero_le _), ByValue.after_still]
  rfl

/-- Behind the opening quote the pattern matches up to the quote that closes the string. -/
theorem eval_rest (nodes : StringNodes graph pattern) (inside : i < text.length)
    (enough : 8 ≤ room) {c : Char} (isQuote : Lexeme.isQuote c)
    (bound : store.bindings.lookup? "q" = some (.text (String.ofList [c]))) :
    ByValue.sequence (ByValue.eval { graph, text, limit } room within)
        [nodes.captured, nodes.close] (text.matchOver i (i + 1)) store =
      .ok ((Lexeme.closing c (text.ahead (i + 1))).map fun width =>
        ({ text.matchOver i (i + 1 + width + 1) with
           captures := [.text (text.slice (i + 1) (i + 1 + width))] }, store)) := by
  obtain ⟨count, width, repeats, closed⟩ :=
    Lexeme.repeats_stringStep isQuote (text.ahead (i + 1))
  have behind : i + 1 + width ≤ text.length := by
    have fits := repeats.width_le
    rw [Text.length_ahead] at fits
    omega
  have captured := @eval_captured graph pattern store text (i + 1) limit room within nodes inside
    enough c bound count width repeats
  have close := (scans_bound nodes.closes bound 0).eval behind (by omega : 0 < room) limit within
  rw [ByValue.sequence_of_found captured, closed, Text.drop_ahead]
  unfold Scan.matchAt at close
  cases closes : Scan.literal [c] (text.ahead (i + 1 + width)) with
  | none =>
      rw [closes] at close
      exact ByValue.sequence_of_failed close
  | some one =>
      rw [closes, Scan.width_literal closes] at close
      refine (ByValue.sequence_of_found close).trans ?_
      rfl

end StringNodes

/-- The string pattern matches the strings whose quote is closed. -/
theorem StringNodes.matches_closing {graph : Graph} {pattern : PatternId}
    (nodes : StringNodes graph pattern) {text : Text} {i : Nat} (inside : i ≤ text.length)
    {room : Nat} (enough : 8 ≤ room) (limit : Nat) (within : Option String)
    (store : ByValue.Store) :
    ByValue.kind { graph, text, limit } (ByValue.eval { graph, text, limit } room within) within i
      (graph.kind pattern) store = .ok (stringAt text i store) := by
  rw [nodes.whole]
  unfold ByValue.kind stringAt
  dsimp only
  have opening : ByValue.eval { graph, text, limit } room within nodes.opening i store = _ :=
    nodes.eval_opening inside (by omega)
  unfold Scan.matchAt at opening
  cases ahead : text.ahead i with
  | nil =>
      rw [ahead] at opening
      exact ByValue.sequence_of_failed opening
  | cons c rest =>
      rw [ahead] at opening
      dsimp only [Scan.char] at opening ⊢
      by_cases isQuote : Lexeme.isQuote c
      · rw [if_pos isQuote] at opening ⊢
        have value : (text.matchOver i (i + 1)).value = String.ofList [c] := Text.slice_one ahead
        have bound : (store.bind "q" (.text (String.ofList [c]))).bindings.lookup? "q" =
            some (.text (String.ofList [c])) := by
          unfold ByValue.Store.bind
          rw [Bindings.lookup?_bind, if_pos rfl]
        rw [Option.map_some, Option.map_some, value] at opening
        rw [ByValue.sequence_of_found opening]
        refine (nodes.eval_rest (Text.lt_of_ahead ahead) enough isQuote bound).trans ?_
        rw [Text.ahead_succ ahead]
      · rw [if_neg isQuote] at opening ⊢
        exact ByValue.sequence_of_failed opening

end Lexer

end PegEngine
