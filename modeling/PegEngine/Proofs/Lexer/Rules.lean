import PegEngine.Proofs.Lexer.Strings
import PegEngine.Proofs.Tokenizer.Moves

/-!
Contract: the rules and the grammars of the lexer.

All grammars of the lexer have the same rules. Each rule comes to a scan and to what becomes of its
matches, so the rules are a table of both.

Owns:
- `Graph.Spans`, that the matches of a kind are as long as a scan says;
- `Lexer.table`, and `Lexer.Realizes`, that a rule does what its entry says;
- `Lexer.IsLexer` and `isLexer_built`, the tokenizer that is built.
-/

namespace PegEngine

open Build

/-- A match of the kind is as long as the scan says, whatever it captures and binds. -/
def Graph.Spans (graph : Graph) (kind : Kind) (scan : Scan) : Prop :=
  ∀ ⦃text : Text⦄ ⦃i : Nat⦄ (limit room : Nat) (within : Option String) (store : ByValue.Store),
    i ≤ text.length → 8 ≤ room → ∃ captures reached,
      ByValue.kind { graph, text, limit } (ByValue.eval { graph, text, limit } room within) within
        i kind store = .ok ((scan.matchAt text i).map fun m => ({ m with captures }, reached))

namespace Graph.Spans

variable {graph : Graph} {kind : Kind} {pattern : PatternId} {scan : Scan}

theorem of_scans {height : Nat} (scans : ∀ store, graph.Scans store height kind scan)
    (short : height ≤ 8) : graph.Spans kind scan := by
  intro text i limit room within store inside enough
  refine ⟨[], store, (scans store limit room within inside (Nat.le_trans short enough)).trans ?_⟩
  unfold ByValue.still Scan.matchAt
  rw [Option.map_map, Option.map_map]
  rfl

/-- At a position of a text, an attempt at the pattern answers what the scan says. -/
theorem answerAt (spans : graph.Spans (graph.kind pattern) scan) (free : graph.FreeOfFunctions)
    {text : Text} {i : Nat} (inside : i ≤ text.length) :
    ∃ captures, TokenStream.answerAt graph {} text i pattern =
      .ok ((scan.matchAt text i).map fun m => { m with captures }) := by
  obtain ⟨captures, reached, ends⟩ :=
    @spans text i defaultLimit 255 (graph.name? pattern <|> none) (MatchState.store {}) inside
      (by decide)
  refine ⟨captures, ?_⟩
  unfold TokenStream.answerAt
  rw [result_matchIn (free.functionFree pattern)]
  have called :=
    (ByValue.eval_succ rfl inside defaultLimit 255 none (MatchState.store {})).trans ends
  refine (congrArg (Except.map _) called).trans ?_
  unfold Except.map
  dsimp only
  rw [Option.map_map]
  rfl

end Graph.Spans

/-- A pattern that scans within a few calls is short enough for any stream. -/
theorem Build.Makes.spans {final : Graph} {body : Build PatternId} {scan : Scan} (calls : Nat)
    (makes : Makes final body fun pattern =>
      ∀ store height, final.Scans store (height + calls) (final.kind pattern) scan)
    (short : calls ≤ 8) :
    Makes final body fun pattern => final.Spans (final.kind pattern) scan := by
  refine makes.mono fun pattern scans => .of_scans (scans · 0) ?_
  rwa [Nat.zero_add]

/-- A pattern under a name matches as the pattern does. -/
theorem Build.Makes.bindNamed {β : Type} {final : Graph} {body : Build PatternId} {scan : Scan}
    {next : PatternId → Build β} {other : β → Prop} (name : String)
    (first : Makes final body fun pattern => final.Spans (final.kind pattern) scan)
    (inside : Inside body)
    (second : ∀ copy, Makes final (next copy) fun result =>
      final.Spans (final.kind copy) scan ∧ final.name? copy = some name → other result) :
    Makes final (body >>= fun pattern => Pattern.named pattern name >>= next) other := by
  refine .bindCopy (fun node => { node with name := some name }) (fun _ => rfl) first inside
    fun copy => (second copy).mono ?_
  intro result known ⟨pattern, spans, copied⟩
  apply known
  unfold Graph.kind Graph.name?
  rw [copied]
  exact ⟨spans, rfl⟩

namespace Lexer

/-- A string with both of its quotes. -/
def Lexeme.quoted : Scan where
  width?
    | [] => none
    | quote :: rest =>
        if isQuote quote then (closing quote rest).map fun width => 1 + width + 1 else none
  width_le := by
    intro ahead width taken
    split at taken
    · cases taken
    · split at taken
      · obtain ⟨before, closed, rfl⟩ := Option.map_eq_some_iff.mp taken
        have inside := closing_lt closed
        rw [List.length_cons, Nat.add_comm 1 before]
        exact Nat.succ_le_succ inside
      · cases taken

def Lexeme.punct : Scan :=
  .char isPunctuation

/-- What becomes of the matches of a rule of the lexer. -/
inductive Use where
  | skip
  | token (name : String)
  | switch (bracket : Bracket)

/-- A rule of the lexer: how far it matches, and what becomes of that. -/
structure Entry where
  scan : Scan
  use : Use

def table : List Entry :=
  [⟨Lexeme.blanks, .skip⟩,
   ⟨Lexeme.newline, .token "newline"⟩,
   ⟨Lexeme.comment, .token "comment"⟩,
   ⟨Lexeme.quoted, .token "string"⟩,
   ⟨Lexeme.number, .token "number"⟩,
   ⟨Lexeme.identifier, .token "ident"⟩] ++
  brackets.map (fun bracket => ⟨.literal bracket.opener.toList, .switch bracket⟩) ++
  [⟨Lexeme.punct, .token "punct"⟩]

/-- The rule does what becomes of the matches according to the table. -/
def Puts (graph : Graph) (rule : Rule) : Use → Prop
  | .skip => rule.kind = .skip
  | .token name => rule.kind = .token ∧ graph.name? rule.pattern = some name
  | .switch bracket =>
      graph.name? rule.pattern = some "open" ∧
        ∃ stop, rule.kind = .switch bracket.grammar stop ∧ graph.name? stop = some "close" ∧
          graph.Spans (graph.kind stop) (.literal bracket.closer.toList)

structure Realizes (graph : Graph) (rule : Rule) (entry : Entry) : Prop where
  spans : graph.Spans (graph.kind rule.pattern) entry.scan
  puts : Puts graph rule entry.use

theorem Realizes.skip {graph : Graph} {pattern : PatternId} {scan : Scan}
    (spans : graph.Spans (graph.kind pattern) scan) :
    Realizes graph (.skip pattern) ⟨scan, .skip⟩ :=
  ⟨spans, rfl⟩

theorem Realizes.token {graph : Graph} {pattern : PatternId} {scan : Scan} {name : String}
    (named : graph.Spans (graph.kind pattern) scan ∧ graph.name? pattern = some name) :
    Realizes graph (.token pattern) ⟨scan, .token name⟩ :=
  ⟨named.1, rfl, named.2⟩

/-- A tokenizer with the grammars of the lexer, in a graph that has their patterns. -/
structure IsLexer (graph : Graph) (tokenizer : Tokenizer) : Prop where
  grammars : List.Forall₂
    (fun name grammar =>
      grammar.name = name ∧ List.Forall₂ (Realizes graph) grammar.rules table)
    (outermost :: brackets.map (·.grammar)) tokenizer.grammars
  initial : tokenizer.initial = outermost
  stop : tokenizer.stop = none
  config : tokenizer.config = {}

section Making

variable {final : Graph}

theorem makes_quoted : Makes final Lexer.string fun pattern =>
    final.Spans (final.kind pattern) Lexeme.quoted := by
  refine makes_string.mono ?_
  intro pattern ⟨nodes⟩ text i limit room within store inside enough
  have ends := nodes.matches_closing inside enough limit within store
  unfold stringAt at ends
  unfold Scan.matchAt Lexeme.quoted
  dsimp only
  cases ahead : text.ahead i with
  | nil =>
      rw [ahead] at ends
      exact ⟨[], store, ends⟩
  | cons c rest =>
      rw [ahead] at ends
      dsimp only at ends ⊢
      by_cases isQuote : Lexeme.isQuote c
      · rw [if_pos isQuote] at ends ⊢
        cases closed : Lexeme.closing c rest with
        | none =>
            rw [closed] at ends
            exact ⟨[], store, ends⟩
        | some width =>
            rw [closed] at ends
            refine ⟨[.text (text.slice (i + 1) (i + 1 + width))],
              store.bind "q" (.text (String.ofList [c])), ends.trans ?_⟩
            simp only [Option.map_some, ← Nat.add_assoc]
      · rw [if_neg isQuote] at ends ⊢
        exact ⟨[], store, ends⟩

theorem makes_bracketRule (bracket : Bracket) : Makes final (bracketRule bracket) fun rule =>
    Realizes final rule ⟨.literal bracket.opener.toList, .switch bracket⟩ := by
  have spansLiteral : ∀ text, Makes final (Pattern.literal text) fun pattern =>
      final.Spans (final.kind pattern) (.literal text.toList) :=
    fun text => (Makes.scanLiteral text).spans 0 (by decide)
  refine .bindNamed "open" (spansLiteral _) (.add _) fun opening => ?_
  refine .bindNamed "close" (spansLiteral _) (.add _) fun stop => ?_
  exact .pure fun ⟨spansStop, close⟩ ⟨spans, opens⟩ => ⟨spans, opens, stop, rfl, close, spansStop⟩

/-! Every pattern that is given a name is in the graph by then. -/

theorem inside_newline : Inside Pattern.newline :=
  .bind fun _ => .bind fun _ => .bind fun _ => .add _

theorem inside_comment : Inside Lexer.comment :=
  .bind fun _ => .bind fun _ => .bind fun _ => .bind fun _ => .bind fun _ => .add _

theorem inside_string : Inside Lexer.string := by
  unfold Lexer.string
  repeat refine .bind fun _ => ?_
  exact .add _

theorem inside_number : Inside Lexer.number := by
  unfold Lexer.number
  repeat refine .bind fun _ => ?_
  exact .add _

theorem inside_identifier : Inside Lexer.identifier := by
  unfold Lexer.identifier
  repeat refine .bind fun _ => ?_
  exact .add _

theorem makes_rules : Makes final rules fun rules =>
    List.Forall₂ (Realizes final) rules table := by
  refine .bind Lexeme.makes_blanks fun blanks => ?_
  refine .bindNamed "newline" (Lexeme.makes_newline.spans 1 (by decide)) inside_newline
    fun newline => ?_
  refine .bindNamed "comment" (Lexeme.makes_comment.spans 5 (by decide)) inside_comment
    fun comment => ?_
  refine .bindNamed "string" makes_quoted inside_string fun string => ?_
  refine .bindNamed "number" (Lexeme.makes_number.spans 4 (by decide)) inside_number
    fun number => ?_
  refine .bindNamed "ident" (Lexeme.makes_identifier.spans 4 (by decide)) inside_identifier
    fun identifier => ?_
  refine .bind (.mapM fun bracket _ => makes_bracketRule bracket) fun switches => ?_
  refine .bindNamed "punct" ((Makes.scanCharSet _).spans 0 (by decide)) (.add _)
    fun punct => .pure ?_
  intro isPunct areSwitches isIdentifier isNumber isString isComment isNewline areBlanks
  unfold table
  refine List.rel_append (List.rel_append ?start ?switches) ?punct
  case start =>
    have skips := Realizes.skip (.of_scans (areBlanks · 0) (by decide))
    exact .cons skips (.cons (.token isNewline) (.cons (.token isComment) (.cons (.token isString)
      (.cons (.token isNumber) (.cons (.token isIdentifier) .nil)))))
  case switches => exact List.forall₂_map_right_iff.mpr areSwitches.flip
  case punct => exact .cons (.token isPunct) .nil

theorem makes_grammar (name : String) : Makes final (grammar name) fun grammar =>
    grammar.name = name ∧ List.Forall₂ (Realizes final) grammar.rules table :=
  .bind makes_rules fun _ => .pure fun realizes => ⟨rfl, realizes⟩

theorem makes_tokenizer : Makes final Lexer.tokenizer (IsLexer final) :=
  .bind (.mapM fun name _ => makes_grammar name) fun _ => .pure fun grammars =>
    ⟨grammars, rfl, rfl, rfl⟩

end Making

/-- The tokenizer that the lexer builds. -/
@[irreducible] def built : Tokenizer :=
  (Lexer.tokenizer.run {}).1

/-- The graph with the patterns of the lexer. -/
@[irreducible] def patterns : Graph :=
  (Lexer.tokenizer.run {}).2

theorem isLexer_built : IsLexer patterns built := by
  unfold patterns built
  exact Makes.of_run IsLexer (fun _ => makes_tokenizer) {}

theorem free_patterns : patterns.FreeOfFunctions := by
  have free : Graph.FreeOfFunctions {} := fun _ _ => nofun
  unfold patterns
  exact (@makes_tokenizer {}).free_run free

end Lexer

end PegEngine
