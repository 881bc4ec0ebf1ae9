import Mathlib.Order.Bounds.Defs
import PegEngine.Proofs.Lexer.Patterns

/-!
Contract: lines, as the text counts them and as patterns see them.

Four pieces look at line ends, each in its own way: the two anchors at the neighbouring characters,
the line index at the whole text, and the pattern of a line end at the characters ahead.

Owns:
- `Text.lineStartsUpTo_eq`, that the line index holds the positions that begin a line, with what
  follows for line numbers and columns;
- `Text.endsLine_iff` and `Text.isLeast_of_newline`, which tie the anchors to what a line end takes;
- `Graph.SeesLines`, that all four agree at a position, and `Pattern.linePatterns_seesLines`.
-/

namespace PegEngine

namespace Text

/-! ## The line index -/

theorem startsLine_succ {text : Text} {i : Nat} {c : Char} {rest : List Char}
    (ahead : text.ahead i = c :: rest) :
    text.startsLine (i + 1) = (c == '\n' || c == '\r' && rest.head? != some '\n') := by
  have next : text.charAt? (i + 1) = rest.head? := by
    rw [charAt?_eq_head?, ahead_succ ahead]
  have this : text.charAt? i = some c := by
    rw [charAt?_eq_head?, ahead]
    rfl
  simp only [startsLine, this, next]
  split <;> simp_all

/-- The line ends among the characters ahead are the later positions that begin a line. -/
theorem lineEnds_eq_filter (text : Text) (i : Nat) :
    lineEnds i (text.ahead i) =
      (List.range' (i + 1) (text.length - i)).filter text.startsLine := by
  rw [← length_ahead]
  generalize characters : text.ahead i = ahead
  fun_induction lineEnds i ahead with
  | case1 i => rfl
  | case2 i rest inductionHypothesis =>
      have second := ahead_succ characters
      have within : text.startsLine (i + 1) = false := by
        rw [startsLine_succ characters]
        rfl
      have behind : text.startsLine (i + 1 + 1) = true := by
        rw [startsLine_succ second]
        rfl
      simp only [List.length_cons, List.range'_succ, List.filter_cons, within, behind]
      rw [inductionHypothesis (ahead_succ second)]
      rfl
  | case3 i c rest noPair isEnd inductionHypothesis =>
      have behind : text.startsLine (i + 1) = true := by
        rw [startsLine_succ characters]
        rcases isEnd with rfl | rfl
        · have noFeed : rest.head? ≠ some '\n' := by
            intro feed
            obtain ⟨more, rfl⟩ := List.head?_eq_some_iff.mp feed
            exact noPair more rfl rfl
          simpa using noFeed
        · rfl
      simp only [List.length_cons, List.range'_succ, List.filter_cons, behind]
      rw [inductionHypothesis (ahead_succ characters)]
      rfl
  | case4 i c rest noPair noEnd inductionHypothesis =>
      have inside : text.startsLine (i + 1) = false := by
        rw [startsLine_succ characters]
        grind
      simp only [List.length_cons, List.range'_succ, List.filter_cons, inside]
      rw [inductionHypothesis (ahead_succ characters)]
      rfl

variable {text : Text} {i : Nat}

/-- Lines begin where the anchor says so. -/
theorem lineStartsUpTo_eq (inside : i ≤ text.length) :
    text.lineStartsUpTo i = (List.range (i + 1)).filter text.startsLine := by
  have starts : text.lineStarts = (List.range (text.length + 1)).filter text.startsLine := by
    rw [List.range_succ_eq_map, List.filter_cons]
    have ends := text.lineEnds_eq_filter 0
    simp only [Nat.zero_add, Nat.sub_zero, List.range'_eq_map_range] at ends
    simp only [lineStarts]
    rw [show text.chars.toList = text.ahead 0 from rfl, ends]
    simp [startsLine, Nat.add_comm]
  have upTo : (List.range (text.length + 1)).filter (· ≤ i) = List.range (i + 1) := by
    obtain ⟨more, later⟩ : ∃ more, text.length + 1 = i + 1 + more := ⟨text.length - i, by omega⟩
    rw [later, List.range_add, List.filter_append, List.filter_eq_self.mpr,
      List.filter_eq_nil_iff.mpr, List.append_nil]
    · simp only [List.mem_map, decide_eq_true_eq]
      omega
    · simp only [List.mem_range, decide_eq_true_eq]
      omega
  unfold lineStartsUpTo
  rw [starts, Nat.min_eq_left inside, List.filter_comm, upTo]

/-- The first line, and one more for each position that begins a line. -/
theorem lineNumber_eq (inside : i ≤ text.length) :
    text.lineNumber i = 1 + (List.range' 1 i).countP text.startsLine := by
  unfold lineNumber
  rw [lineStartsUpTo_eq inside, ← List.countP_eq_length_filter, List.range_eq_range',
    List.range'_succ, List.countP_cons_of_pos rfl, Nat.add_comm]

/-- The last position up to another one that is as wanted, where the first one is. -/
theorem isGreatest_getLastD_filter {wanted : Nat → Bool} (first : wanted 0) (i : Nat) :
    IsGreatest { k | k ≤ i ∧ wanted k } (((List.range (i + 1)).filter wanted).getLastD 0) := by
  induction i with
  | zero =>
      have only : (List.range 1).filter wanted = [0] := by simp [List.range_succ, first]
      rw [only]
      exact ⟨⟨Nat.le_refl 0, first⟩, fun k found => found.1⟩
  | succ i inductionHypothesis =>
      rw [List.range_succ, List.filter_append]
      by_cases last : wanted (i + 1) = true
      · rw [List.filter_cons_of_pos last, List.filter_nil, List.getLastD_concat]
        exact ⟨⟨Nat.le_refl _, last⟩, fun k found => found.1⟩
      · rw [List.filter_cons_of_neg last, List.filter_nil, List.append_nil]
        obtain ⟨⟨below, found⟩, greatest⟩ := inductionHypothesis
        refine ⟨⟨Nat.le_succ_of_le below, found⟩, fun k ⟨atMost, other⟩ => ?_⟩
        have notLast : k ≠ i + 1 := by
          rintro rfl
          exact last other
        exact greatest ⟨by omega, other⟩

/-- The line of a position begins at the last position up to it that begins a line. -/
theorem isGreatest_lineStart (inside : i ≤ text.length) :
    IsGreatest { k | k ≤ i ∧ text.startsLine k } (text.lineStart i) := by
  unfold lineStart
  rw [lineStartsUpTo_eq inside]
  exact isGreatest_getLastD_filter rfl i

theorem columnNumber_eq (inside : i ≤ text.length) :
    text.columnNumber i = i - text.lineStart i + 1 := by
  unfold columnNumber
  rw [Nat.min_eq_left inside]

/-- A position begins a line when it is the first column of its line. -/
theorem startsLine_iff_columnNumber (inside : i ≤ text.length) :
    text.startsLine i ↔ text.columnNumber i = 1 := by
  obtain ⟨⟨below, begins⟩, greatest⟩ := isGreatest_lineStart inside
  rw [columnNumber_eq inside]
  constructor
  · intro here
    have last := greatest ⟨Nat.le_refl i, here⟩
    omega
  · intro first
    have same : text.lineStart i = i := by omega
    rwa [same] at begins

/-! ## Line ends -/

open Lexer (Lexeme.newline Lexeme.isLineEnd)

/-- The position is between a carriage return and the line feed that goes with it. -/
def splitsPair (text : Text) (i : Nat) : Prop :=
  0 < i ∧ text.charAt? (i - 1) = some '\r' ∧ text.charAt? i = some '\n'

/-- A line end takes the pair as a whole, and otherwise one character. -/
theorem newline_cons (c : Char) (rest : List Char) :
    Lexeme.newline (c :: rest) =
      if c = '\r' ∧ rest.head? = some '\n' then some 2
      else if Lexeme.isLineEnd c then some 1
      else none := by
  have byCases : Lexeme.newline (c :: rest) =
      (Scan.literal ['\r', '\n'] (c :: rest)).or
        ((Scan.literal ['\r'] (c :: rest)).or ((Scan.literal ['\n'] (c :: rest)).or none)) := rfl
  rw [byCases, Scan.isChar_literal, Scan.isChar_literal]
  by_cases carriage : c = '\r'
  · subst carriage
    cases rest with
    | nil => rfl
    | cons next rest =>
        by_cases feed : next = '\n'
        · subst feed
          rfl
        · simp [Scan.literal, Scan.char, Lexeme.isLineEnd, feed, Ne.symm feed]
  · simp [Scan.literal, Scan.char, Lexeme.isLineEnd, carriage, Ne.symm carriage]

theorem endsLine_iff (inside : i ≤ text.length) :
    text.endsLine i ↔
      i = text.length ∨ (Lexeme.newline (text.ahead i)).isSome ∧ ¬ text.splitsPair i := by
  cases ahead : text.ahead i with
  | nil =>
      have atEnd : i = text.length := by
        have none := text.length_ahead i
        rw [ahead, List.length_nil] at none
        omega
      have gone : text.charAt? i = none := by rw [charAt?_eq_head?, ahead, List.head?_nil]
      simp only [endsLine, gone, true_iff]
      exact Or.inl atEnd
  | cons c rest =>
      have before := Nat.ne_of_lt (lt_of_ahead ahead)
      have here : text.charAt? i = some c := by rw [charAt?_eq_head?, ahead, List.head?_cons]
      rw [Lexer.Lexeme.decidedBy_newline.isSome_cons]
      simp only [endsLine, splitsPair, here, before, false_or, Lexeme.isLineEnd]
      split
      · grind
      · grind
      · grind
      · grind

/-- The next line begins where a line end ends, and no other one before that. -/
theorem isLeast_of_newline {width : Nat} (taken : Lexeme.newline (text.ahead i) = some width) :
    IsLeast { k | i < k ∧ text.startsLine k } (i + width) := by
  cases ahead : text.ahead i with
  | nil =>
      rw [ahead] at taken
      cases taken
  | cons c rest =>
      rw [ahead, newline_cons] at taken
      split at taken
      · next pair =>
          obtain ⟨rfl, feed⟩ := pair
          obtain ⟨more, rfl⟩ := List.head?_eq_some_iff.mp feed
          cases taken
          have between : text.startsLine (i + 1) = false := by
            rw [startsLine_succ ahead]
            rfl
          have behind : text.startsLine (i + 2) = true := by
            rw [startsLine_succ (ahead_succ ahead)]
            rfl
          refine ⟨⟨by omega, behind⟩, fun k ⟨later, begins⟩ => ?_⟩
          have notBetween : k ≠ i + 1 := by
            rintro rfl
            rw [between] at begins
            cases begins
          omega
      · next noPair =>
          split at taken
          · next isEnd =>
              cases taken
              have behind : text.startsLine (i + 1) = true := by
                rw [startsLine_succ ahead]
                grind [Lexeme.isLineEnd]
              exact ⟨⟨by omega, behind⟩, fun k ⟨later, _⟩ => later⟩
          · cases taken

/-- The line number goes up by one at a line end. -/
theorem lineNumber_of_newline {width : Nat} (inside : i ≤ text.length)
    (taken : Lexeme.newline (text.ahead i) = some width) :
    text.lineNumber (i + width) = text.lineNumber i + 1 := by
  obtain ⟨⟨later, begins⟩, least⟩ := isLeast_of_newline taken
  have onlyLast : (List.range' (i + 1) width).countP text.startsLine = 1 := by
    obtain ⟨before, rfl⟩ : ∃ before, width = before + 1 := ⟨width - 1, by omega⟩
    have noneBefore : (List.range' (i + 1) before).countP text.startsLine = 0 := by
      rw [List.countP_eq_zero]
      intro k member begins
      have bounds := List.mem_range'_1.mp member
      have far := least ⟨by omega, begins⟩
      omega
    have last : i + 1 + before = i + (before + 1) := by omega
    rw [List.range'_1_concat, List.countP_append, noneBefore, last]
    simp [begins]
  rw [lineNumber_eq inside, lineNumber_eq (Lexeme.newline.stop_le inside taken),
    ← List.range'_append_1, List.countP_append, Nat.add_comm 1 i, onlyLast, Nat.add_assoc]

end Text

namespace Graph

/-- The pattern matches at the position. -/
def accepts (graph : Graph) (pattern : PatternId) (input : Input) (context : Context) (i : Nat) :
    Bool :=
  match (graph.matchIn pattern input i context).result with
  | .ok (some _) => true
  | _ => false

variable {graph : Graph} {pattern : PatternId} {input : Input} {context : Context} {i : Nat}

theorem result_startOfLine (isAnchor : graph.kind pattern = .startOfLine)
    (room : context.depth < context.config.limit) (inside : i ≤ input.text.length) :
    (graph.matchIn pattern input i context).result =
      .ok (Matching.zeroWidthIf input.text i (input.text.startsLine i)) :=
  result_of_leaf (.of_kind isAnchor nofun nofun nofun) isAnchor room inside fun _ _ _ => rfl

theorem result_endOfLine (isAnchor : graph.kind pattern = .endOfLine)
    (room : context.depth < context.config.limit) (inside : i ≤ input.text.length) :
    (graph.matchIn pattern input i context).result =
      .ok (Matching.zeroWidthIf input.text i (input.text.endsLine i)) :=
  result_of_leaf (.of_kind isAnchor nofun nofun nofun) isAnchor room inside fun _ _ _ => rfl

end Graph

/-! ## The patterns -/

/-- The patterns that go by lines. -/
structure LinePatterns where
  startOfLine : PatternId
  endOfLine : PatternId
  newline : PatternId

def Pattern.linePatterns : Build LinePatterns := do
  return { startOfLine := ← startOfLine, endOfLine := ← endOfLine, newline := ← newline }

namespace Graph

/-- The patterns are those that their builder makes. -/
structure HasLinePatterns (graph : Graph) (patterns : LinePatterns) : Prop where
  startOfLine : graph.kind patterns.startOfLine = .startOfLine
  endOfLine : graph.kind patterns.endOfLine = .endOfLine
  newlineFree : graph.FunctionFree patterns.newline
  newline : ∀ store,
    graph.Scans store 1 (graph.kind patterns.newline) Lexer.Lexeme.newline

/-- At a position of a text, the line patterns and the line index tell of the same lines. -/
structure SeesLines (graph : Graph) (patterns : LinePatterns) (input : Input) (context : Context)
    (i : Nat) : Prop where
  /-- The line is the first one, and one more for each place up to here that begins a line. -/
  lineNumber : input.text.lineNumber i =
    1 + (List.range' 1 i).countP (graph.accepts patterns.startOfLine input context)
  /-- The column counts from the last place up to here that begins a line. -/
  columnNumber : ∃ start,
    IsGreatest { k | k ≤ i ∧ (k = 0 ∨ graph.accepts patterns.startOfLine input context k) } start ∧
      input.text.columnNumber i = i - start + 1
  startOfLine : graph.accepts patterns.startOfLine input context i ↔ input.text.columnNumber i = 1
  endOfLine : graph.accepts patterns.endOfLine input context i ↔
    i = input.text.length ∨
      graph.accepts patterns.newline input context i ∧ ¬ input.text.splitsPair i
  /-- A line end before the end of the text goes on to the next place that begins a line. -/
  newline : graph.accepts patterns.endOfLine input context i → i < input.text.length →
    ∃ m, (graph.matchIn patterns.newline input i context).result = .ok (some m) ∧
      IsLeast { k | i < k ∧ graph.accepts patterns.startOfLine input context k } m.stop ∧
      input.text.lineNumber m.stop = input.text.lineNumber i + 1

variable {graph : Graph} {patterns : LinePatterns} {input : Input} {context : Context} {i : Nat}

theorem accepts_startOfLine {pattern : PatternId} (isAnchor : graph.kind pattern = .startOfLine)
    (room : context.depth < context.config.limit) (inside : i ≤ input.text.length) :
    graph.accepts pattern input context i = input.text.startsLine i := by
  unfold accepts
  rw [result_startOfLine isAnchor room inside]
  cases input.text.startsLine i <;> rfl

theorem accepts_endOfLine {pattern : PatternId} (isAnchor : graph.kind pattern = .endOfLine)
    (room : context.depth < context.config.limit) (inside : i ≤ input.text.length) :
    graph.accepts pattern input context i = input.text.endsLine i := by
  unfold accepts
  rw [result_endOfLine isAnchor room inside]
  cases input.text.endsLine i <;> rfl

end Graph

namespace Build

variable {final : Graph}

theorem makes_newline_functionFree :
    Makes final Pattern.newline fun pattern => final.FunctionFree pattern := by
  refine .bind (.ofKind_free (.literal _) nofun nofun) fun both => ?_
  refine .bind (.ofKind_free (.literal _) nofun nofun) fun carriage => ?_
  refine .bind (.ofKind_free (.literal _) nofun nofun) fun feed => ?_
  refine (Makes.choice_free _).mono ?_
  intro pattern free freeFeed freeCarriage freeBoth
  exact free (by simp [freeBoth nofun, freeCarriage nofun, freeFeed nofun])

theorem makes_linePatterns : Makes final Pattern.linePatterns final.HasLinePatterns := by
  refine .bind (.ofKind .startOfLine nofun) fun startOfLine => ?_
  refine .bind (.ofKind .endOfLine nofun) fun endOfLine => ?_
  refine .bind (makes_newline_functionFree.and Lexer.Lexeme.makes_newline) fun newline => .pure ?_
  exact fun ⟨free, scans⟩ isEnd isStart => ⟨isStart, isEnd, free, fun store => scans store 0⟩

end Build

section Patterns

variable {graph : Graph} {patterns : LinePatterns} {input : Input} {context : Context} {i : Nat}

theorem Graph.HasLinePatterns.seesLines (has : graph.HasLinePatterns patterns)
    (room : context.depth + 2 ≤ context.config.limit) (inside : i ≤ input.text.length) :
    graph.SeesLines patterns input context i := by
  have starts : ∀ k ≤ input.text.length,
      graph.accepts patterns.startOfLine input context k = input.text.startsLine k :=
    fun k within => accepts_startOfLine has.startOfLine (by omega) within
  have ends : graph.accepts patterns.endOfLine input context i = input.text.endsLine i :=
    accepts_endOfLine has.endOfLine (by omega) inside
  have lineEnd : (graph.matchIn patterns.newline input i context).result =
      .ok (Lexer.Lexeme.newline.matchAt input.text i) :=
    result_of_scans has.newlineFree has.newline (by omega) inside
  constructor
  case lineNumber =>
    rw [Text.lineNumber_eq inside]
    congr 1
    refine List.countP_congr fun k member => ?_
    rw [starts k (by have := List.mem_range'_1.mp member; omega)]
  case columnNumber =>
    refine ⟨input.text.lineStart i, ?_, Text.columnNumber_eq inside⟩
    obtain ⟨⟨below, begins⟩, greatest⟩ := Text.isGreatest_lineStart inside
    refine ⟨⟨below, Or.inr ?_⟩, fun k ⟨atMost, found⟩ => greatest ⟨atMost, ?_⟩⟩
    · rwa [starts _ (Nat.le_trans below inside)]
    · rcases found with rfl | found
      · rfl
      · rwa [starts k (Nat.le_trans atMost inside)] at found
  case startOfLine =>
    rw [starts i inside]
    exact Text.startsLine_iff_columnNumber inside
  case endOfLine =>
    rw [ends, Text.endsLine_iff inside]
    unfold accepts
    rw [lineEnd]
    unfold Scan.matchAt
    cases Lexer.Lexeme.newline (input.text.ahead i) <;> simp
  case newline =>
    intro atEnd before
    rw [ends, Text.endsLine_iff inside] at atEnd
    obtain ⟨found, -⟩ := atEnd.resolve_left (Nat.ne_of_lt before)
    obtain ⟨width, taken⟩ := Option.isSome_iff_exists.mp found
    have fits := Lexer.Lexeme.newline.stop_le inside taken
    refine ⟨input.text.matchOver i (i + width), ?_, ?_, Text.lineNumber_of_newline inside taken⟩
    · rw [lineEnd, Scan.matchAt, taken]
      rfl
    · obtain ⟨⟨later, begins⟩, least⟩ := Text.isLeast_of_newline taken
      refine ⟨⟨later, ?_⟩, fun k ⟨after, accepted⟩ => ?_⟩
      · rwa [Text.matchOver, starts _ fits]
      · rcases Nat.lt_or_ge input.text.length k with beyond | within
        · exact Nat.le_trans fits (Nat.le_of_lt beyond)
        · rw [starts k within] at accepted
          exact least ⟨after, accepted⟩

/-- Lines are the same to the anchors, to the pattern of a line end, and to the line index. -/
theorem Pattern.linePatterns_seesLines (start : Graph)
    (room : context.depth + 2 ≤ context.config.limit) (inside : i ≤ input.text.length) :
    (linePatterns.run start).2.SeesLines (linePatterns.run start).1 input context i :=
  (Build.Makes.of_run Graph.HasLinePatterns (fun _ => Build.makes_linePatterns) start).seesLines
    room inside

/-- After all three kinds of line ends, at the line feed of the pair. -/
theorem Pattern.linePatterns_seesLines_mixed :
    ({} : Context).depth + 2 ≤ ({} : Context).config.limit ∧
      4 ≤ (Text.ofString "a\nb\r\nc\rd").length ∧
      (linePatterns.run {}).2.SeesLines (linePatterns.run {}).1
        { text := .ofString "a\nb\r\nc\rd" } {} 4 ∧
      (Text.ofString "a\nb\r\nc\rd").lineNumber 4 = 2 :=
  ⟨by decide, by decide, linePatterns_seesLines {} (by decide) (by decide), by decide⟩

end Patterns

end PegEngine
