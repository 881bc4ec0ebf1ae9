import PegEngine.Proofs.Graph.Copies
import PegEngine.Proofs.Tokenizer.Likeness

/-!
Contract: trace options do not change the tokens of a tokenizer, as long as its rules live.

Rules that get trace options get new patterns in place of the old ones. What a reference is bound to
weakly is kept alive by its handles only, so it must be held by something else than the pattern
that was replaced.

Owns:
- `RuleCopy` and `GrammarCopy`, what `traced` makes of rules and grammars;
- `traced_matches_alike`, for tokenizers, for patterns, and for grammars that were bound;
- `traced_loses_rule`, a rule that is lost when its only handle is replaced.
-/

namespace PegEngine

open PegEngine.Graph

/-! ## Copies of grammars -/

/-- The rule with a copy of its pattern. -/
structure RuleCopy (graph later : Graph) (rule copy : Rule) : Prop where
  kind : copy.kind = rule.kind
  pattern : CopyOf graph later rule.pattern copy.pattern

structure GrammarCopy (graph later : Graph) (grammar copy : Grammar) : Prop where
  name : copy.name = grammar.name
  rules : List.Forall₂ (RuleCopy graph later) grammar.rules copy.rules

section Copies

variable {graph middle later : Graph}

theorem RuleCopy.grown {rule copy : Rule} (copied : RuleCopy graph middle rule copy)
    (grown : middle.Grown later) : RuleCopy graph later rule copy :=
  ⟨copied.kind, copied.pattern.grown grown⟩

theorem GrammarCopy.grown {grammar copy : Grammar} (copied : GrammarCopy graph middle grammar copy)
    (grown : middle.Grown later) : GrammarCopy graph later grammar copy :=
  ⟨copied.name, copied.rules.imp fun _ _ rule => rule.grown grown⟩

/-- Building one thing after the other adds nodes only, and what holds of each result keeps holding
while the graph grows. -/
theorem forall₂_mapM {α β : Type} {build : α → Build β} {related : Graph → α → β → Prop}
    {items : List α}
    (stable : ∀ {middle later item result}, middle.Grown later → related middle item result →
      related later item result)
    (each : ∀ item ∈ items, ∀ middle, graph.Grown middle →
      middle.Grown (build item middle).2 ∧ related (build item middle).2 item (build item middle).1)
    (grown : graph.Grown middle) :
    middle.Grown (items.mapM build middle).2 ∧
      List.Forall₂ (related (items.mapM build middle).2) items (items.mapM build middle).1 := by
  induction items generalizing middle with
  | nil =>
      rw [List.mapM_nil]
      exact ⟨.refl middle, .nil⟩
  | cons item rest inductionHypothesis =>
      obtain ⟨grownFirst, first⟩ := each item List.mem_cons_self middle grown
      obtain ⟨grownRest, others⟩ := inductionHypothesis
        (fun other member => each other (List.mem_cons_of_mem item member))
        (grown.trans grownFirst)
      have unfolded : (item :: rest).mapM build middle =
          ((build item middle).1 :: (rest.mapM build (build item middle).2).1,
            (rest.mapM build (build item middle).2).2) := by
        rw [List.mapM_cons]
        rfl
      rw [unfolded]
      exact ⟨grownFirst.trans grownRest, .cons (stable grownRest first) others⟩

/-- Giving trace options to a grammar makes copies of its rules. -/
theorem grammar_traced {grammar : Grammar}
    (inside : ∀ rule ∈ grammar.rules, rule.pattern < graph.slots.size)
    (options : TraceOptions) (token : Option String) (grown : graph.Grown middle) :
    middle.Grown (grammar.traced options token middle).2 ∧
      GrammarCopy graph (grammar.traced options token middle).2 grammar
        (grammar.traced options token middle).1 := by
  obtain ⟨grownRules, rules⟩ := @forall₂_mapM graph middle Rule Rule
    (fun rule => do
      if token.isSome && middle.name? rule.pattern != token then
        pure rule
      else
        return { rule with pattern := ← Pattern.traced rule.pattern options })
    (RuleCopy graph) grammar.rules (fun grown copied => copied.grown grown)
    (fun rule member between grown => by
      split
      · exact ⟨.refl between, rfl, .self grown (inside rule member)⟩
      · exact ⟨.add between _, rfl, .traced grown (inside rule member) options⟩) grown
  exact ⟨grownRules, rfl, rules⟩

/-- Giving trace options to a tokenizer makes copies of its grammars. -/
theorem tokenizer_traced {tokenizer : Tokenizer}
    (inside : ∀ grammar ∈ tokenizer.grammars, ∀ rule ∈ grammar.rules,
      rule.pattern < graph.slots.size)
    (name : String) (options : TraceOptions) (token : Option String) :
    graph.Grown (tokenizer.traced name options token graph).2 ∧
      List.Forall₂ (GrammarCopy graph (tokenizer.traced name options token graph).2)
        tokenizer.grammars (tokenizer.traced name options token graph).1.grammars := by
  refine @forall₂_mapM graph graph Grammar Grammar
    (fun grammar => if grammar.name = name then grammar.traced options token else pure grammar)
    (GrammarCopy graph) tokenizer.grammars (fun grown copied => copied.grown grown)
    (fun grammar member middle grown => ?_) (.refl graph)
  split
  · exact grammar_traced (inside grammar member) options token grown
  · refine ⟨.refl middle, rfl, ?_⟩
    refine List.forall₂_same.mpr fun rule among => ⟨rfl, ?_⟩
    exact .self grown (inside grammar member rule among)

end Copies

/-! ## Tokens -/

theorem mem_patterns_of_rule {tokenizer : Tokenizer} {grammar : Grammar} {rule : Rule}
    {pattern : PatternId} (member : grammar ∈ tokenizer.grammars) (among : rule ∈ grammar.rules)
    (part : pattern ∈ rule.patterns) : pattern ∈ tokenizer.patterns :=
  List.mem_append_right _ (List.mem_flatMap.mpr ⟨grammar, member,
    List.mem_flatMap.mpr ⟨rule, among, part⟩⟩)

theorem mem_patterns_of_stop {tokenizer : Tokenizer} {stop : PatternId}
    (ends : tokenizer.stop = some stop) : stop ∈ tokenizer.patterns :=
  List.mem_append_left _ (Option.mem_toList.mpr ends)

theorem Rule.mem_patterns (rule : Rule) : rule.pattern ∈ rule.patterns := by
  unfold patterns
  split <;> simp

theorem Rule.mem_patterns_of_switch {rule : Rule} {grammar : String} {stop : PatternId}
    (kind : rule.kind = .switch grammar stop) : stop ∈ rule.patterns := by
  unfold patterns
  rw [kind]
  simp

/-- What holds of corresponding members holds of the lists. -/
theorem forall₂_imp_of_mem {α β : Type} {related other : α → β → Prop} {items : List α}
    {copies : List β} (all : List.Forall₂ related items copies)
    (each : ∀ item ∈ items, ∀ copy ∈ copies, related item copy → other item copy) :
    List.Forall₂ other items copies := by
  induction all with
  | nil => exact .nil
  | cons first _ inductionHypothesis =>
      refine .cons (each _ List.mem_cons_self _ List.mem_cons_self first) ?_
      exact inductionHypothesis fun item member copy among =>
        each item (List.mem_cons_of_mem _ member) copy (List.mem_cons_of_mem _ among)

section Alike

variable {graph later : Graph} {handles : List PatternId} {tokenizer copy : Tokenizer}

/-- A copy that is held answers as the pattern did. -/
theorem patternsAlike_of_copyOf {root patternCopy : PatternId} (grown : graph.Grown later)
    (traceable : graph.Traceable root) (rules : graph.KeepsRules later handles root)
    (copied : CopyOf graph later root patternCopy) (member : patternCopy ∈ handles)
    (config : MatchConfig) :
    PatternsAlike graph (later.release handles) config root patternCopy where
  name := (copied.alike grown traceable rules member).2.name
  answers text index :=
    (copied.matchIn_agrees grown traceable rules member { text } index { config }).result.symm

/-- A tokenizer whose patterns are replaced by copies yields the same tokens. -/
theorem tokenizersAlike_of_copies (grown : graph.Grown later)
    (traceable : ∀ pattern ∈ tokenizer.patterns, graph.Traceable pattern)
    (rules : ∀ pattern ∈ tokenizer.patterns, graph.KeepsRules later handles pattern)
    (held : ∀ pattern ∈ copy.patterns, pattern ∈ handles)
    (config : copy.config = tokenizer.config) (initial : copy.initial = tokenizer.initial)
    (stop : copy.stop = tokenizer.stop)
    (grammars : List.Forall₂ (GrammarCopy graph later) tokenizer.grammars copy.grammars) :
    Tokenizer.Alike graph (later.release handles) tokenizer copy := by
  -- End patterns get no trace options: each stands for itself.
  have unchanged : ∀ pattern ∈ tokenizer.patterns, pattern ∈ handles →
      PatternsAlike graph (later.release handles) tokenizer.config pattern pattern := by
    intro pattern member isHeld
    have same := CopyOf.self grown ((traceable pattern member).inside pattern .refl)
    exact patternsAlike_of_copyOf grown (traceable pattern member) (rules pattern member) same
      isHeld _
  refine ⟨config, initial, stop, fun pattern ends => ?_, ?_⟩
  · exact unchanged pattern (mem_patterns_of_stop ends)
      (held pattern (mem_patterns_of_stop (stop.trans ends)))
  · refine forall₂_imp_of_mem grammars fun grammar member grammarCopy memberCopy copied =>
      ⟨copied.name, forall₂_imp_of_mem copied.rules fun rule among ruleCopy amongCopy same => ?_⟩
    have inRule := mem_patterns_of_rule member among rule.mem_patterns
    refine ⟨same.kind, ?_, fun name stop kind => ?_⟩
    · exact patternsAlike_of_copyOf grown (traceable _ inRule) (rules _ inRule) same.pattern
        (held _ (mem_patterns_of_rule memberCopy amongCopy ruleCopy.mem_patterns)) _
    · have kindCopy := same.kind.trans kind
      exact unchanged stop
        (mem_patterns_of_rule member among (Rule.mem_patterns_of_switch kind))
        (held stop (mem_patterns_of_rule memberCopy amongCopy
          (Rule.mem_patterns_of_switch kindCopy)))

end Alike

section Traced

variable {graph : Graph} {handles : List PatternId} (options : TraceOptions)

/-- A tokenizer with trace options yields the same tokens, as long as the rules are held. -/
theorem traced_answersAs {tokenizer : Tokenizer} (grammar : String) (token : Option String)
    (traceable : ∀ pattern ∈ tokenizer.patterns, graph.Traceable pattern)
    (rules : ∀ pattern ∈ tokenizer.patterns,
      graph.KeepsRules (tokenizer.traced grammar options token graph).2 handles pattern)
    (held : ∀ pattern ∈ (tokenizer.traced grammar options token graph).1.patterns,
      pattern ∈ handles)
    (text : Text) (offset : Int) :
    Tokenizer.AnswersAs graph ((tokenizer.traced grammar options token graph).2.release handles)
      tokenizer (tokenizer.traced grammar options token graph).1 text offset := by
  have inside : ∀ grammar ∈ tokenizer.grammars, ∀ rule ∈ grammar.rules,
      rule.pattern < graph.slots.size := fun grammar member rule among =>
    (traceable _ (mem_patterns_of_rule member among rule.mem_patterns)).inside _ .refl
  obtain ⟨grown, grammars⟩ := tokenizer_traced inside grammar options token
  exact (tokenizersAlike_of_copies grown traceable rules held rfl rfl rfl grammars).answersAs text
    offset

/-- A pattern with trace options matches as before, as long as the rules are held. -/
theorem traced_matchIn_agrees {pattern : PatternId} (traceable : graph.Traceable pattern)
    (rules : graph.KeepsRules (Pattern.traced pattern options graph).2 handles pattern)
    (held : (Pattern.traced pattern options graph).1 ∈ handles)
    (input : Input) (index : Nat) (context : Context) :
    (graph.matchIn pattern input index context).Agrees
      (((Pattern.traced pattern options graph).2.release handles).matchIn
        (Pattern.traced pattern options graph).1 input index context) :=
  (traceable.copyOf_traced options).matchIn_agrees (.add graph _) traceable rules held input index
    context

/-- The root of a grammar that was bound matches as before with trace options, unless it is bound
weakly below itself and not held any more. -/
theorem traced_matchIn_agrees_of_bound {rules : Rules} {root : PatternId} {count : Nat}
    {bound : Graph} (bindable : graph.Bindable rules root)
    (plain : graph.PlainCallbacks rules root) (ended : graph.bind root rules = (.ok count, bound))
    (held : (Pattern.traced root options bound).1 ∈ handles)
    (rootHeld : ∀ pattern name cell, graph.Grammar rules root pattern →
      graph.kind pattern = .reference name cell → bound.cell cell = .weak root →
        (Pattern.traced root options bound).2.Held handles root)
    (input : Input) (index : Nat) (context : Context) :
    (bound.matchIn root input index context).Agrees
      (((Pattern.traced root options bound).2.release handles).matchIn
        (Pattern.traced root options bound).1 input index context) := by
  obtain ⟨walk, visited, invariant, seen⟩ := visit_root bindable
  have same : graph.bind root rules = (.ok walk.bound, walk.graph) := by
    unfold Graph.bind
    rw [visited]
  cases same.symm.trans ended
  have traceable := traceable_of_bound bindable invariant seen plain
  have keeps := keepsRules_of_bound bindable invariant seen plain (.add walk.graph _)
    (traceable.copyOf_traced options) held rootHeld
  exact traced_matchIn_agrees options traceable keeps held input index context

end Traced

/-- Trace options change neither the tokens of a tokenizer nor the matches of a pattern, as long as
the handles that are left hold all rules that are bound weakly below it. In a grammar that was
bound, only its root can be such a rule that is not held by the new pattern. -/
theorem traced_matches_alike (graph : Graph) (options : TraceOptions) (handles : List PatternId) :
    (∀ (tokenizer : Tokenizer) (grammar : String) (token : Option String),
      let traced := tokenizer.traced grammar options token graph
      (∀ pattern ∈ tokenizer.patterns, graph.Traceable pattern) →
      (∀ pattern ∈ tokenizer.patterns, graph.KeepsRules traced.2 handles pattern) →
      (∀ pattern ∈ traced.1.patterns, pattern ∈ handles) →
      ∀ text offset,
        Tokenizer.AnswersAs graph (traced.2.release handles) tokenizer traced.1 text offset) ∧
    (∀ pattern,
      let traced := Pattern.traced pattern options graph
      graph.Traceable pattern → graph.KeepsRules traced.2 handles pattern → traced.1 ∈ handles →
      ∀ input index context,
        (graph.matchIn pattern input index context).Agrees
          ((traced.2.release handles).matchIn traced.1 input index context)) ∧
    ∀ rules root count bound, graph.bind root rules = (.ok count, bound) →
      let traced := Pattern.traced root options bound
      graph.Bindable rules root → graph.PlainCallbacks rules root → traced.1 ∈ handles →
      (∀ pattern name cell, graph.Grammar rules root pattern →
        graph.kind pattern = .reference name cell → bound.cell cell = .weak root →
          traced.2.Held handles root) →
      ∀ input index context,
        (bound.matchIn root input index context).Agrees
          ((traced.2.release handles).matchIn traced.1 input index context) := by
  refine ⟨?_, ?_, ?_⟩
  · intro tokenizer grammar token traced traceable rules held text offset
    exact traced_answersAs options grammar token traceable rules held text offset
  · intro pattern traced traceable rules held input index context
    exact traced_matchIn_agrees options traceable rules held input index context
  · intro rules root count bound ended traced bindable plain held rootHeld input index context
    exact traced_matchIn_agrees_of_bound options bindable plain ended held rootHeld input index
      context

/-- A rule for brackets that nest, with a reference to itself that is not bound yet. -/
def unboundBrackets : Graph where
  slots := #[
    some { kind := .literal ['('] },
    some { kind := .reference "nested" 0 },
    some { kind := .literal [')'] },
    some { kind := .sequence [0, 1, 2] },
    some { kind := .constant true },
    some { kind := .choice [3, 4], name := some "nested" }]
  cells := #[.unbound]

/-- The rule for brackets, as its reference is bound to it. -/
def boundBrackets : Graph :=
  { unboundBrackets with cells := #[.weak 5] }

def bracketTokens : Tokenizer where
  grammars := [{ name := "main", rules := [.token 5] }]
  initial := "main"

theorem children_brackets {pattern : PatternId} :
    ∀ child ∈ (unboundBrackets.kind pattern).children, child < 6 := by
  match pattern with
  | 0 | 1 | 2 | 3 | 4 | 5 => decide
  | pattern + 6 => nofun

theorem isLive_brackets {pattern : PatternId} (inside : pattern < 6) :
    unboundBrackets.isLive pattern = true := by
  match pattern with
  | 0 | 1 | 2 | 3 | 4 | 5 => rfl
  | pattern + 6 => exact absurd inside (Nat.not_lt.mpr (Nat.le_add_left ..))

theorem reference_brackets {pattern : PatternId} {name : String} {cell : CellId}
    (reference : unboundBrackets.kind pattern = .reference name cell) :
    name = "nested" ∧ cell = 0 := by
  match pattern with
  | 1 =>
      cases reference
      exact ⟨rfl, rfl⟩
  | 0 | 2 | 3 | 4 | 5 => cases reference
  | pattern + 6 => cases reference

theorem functionFree_brackets {pattern : PatternId} {callback : Callback} :
    unboundBrackets.kind pattern ≠ .function callback := by
  intro function
  match pattern with
  | 0 | 1 | 2 | 3 | 4 | 5 => cases function
  | pattern + 6 => cases function

theorem bindable_brackets : unboundBrackets.Bindable [("nested", 5)] 5 where
  coherent := by
    refine ⟨fun pattern child member => isLive_brackets (children_brackets child member),
      fun pattern name cell reference => ?_, fun pattern other name name' cell found other => ?_⟩
    · rw [(reference_brackets reference).2]
      decide
    · rw [(reference_brackets found).1, (reference_brackets other).1]
  rootLive := rfl
  rulesLive name rule found := by
    rw [Named.lookup_cons] at found
    split at found
    · cases found
      rfl
    · cases found
  unbound pattern name cell _ reference := by
    rw [(reference_brackets reference).2]
    rfl

theorem traceable_brackets : boundBrackets.Traceable 5 where
  inside pattern reaches := by
    cases reaches with
    | refl => decide
    | tail _ step =>
        rcases step with (child | ⟨name, cell, reference, bound⟩) | ⟨callback, _, _, function, _⟩
        · exact children_brackets _ child
        · rw [(reference_brackets reference).2] at bound
          cases bound
          decide
        · exact absurd function functionFree_brackets
  keeps _ _ _ function := absurd function functionFree_brackets
  blind _ _ _ function := absurd function functionFree_brackets

/-- The rule is still held when a copy has taken its place. -/
theorem traced_matches_alike_brackets :
    let text := Text.ofString "(())"
    let traced := Pattern.traced 5 .hidden boundBrackets
    let tokens := bracketTokens.traced "main" .hidden none boundBrackets
    unboundBrackets.bind 5 [("nested", 5)] = (.ok 1, boundBrackets) ∧
      Tokenizer.AnswersAs boundBrackets (tokens.2.release [5, 6]) bracketTokens tokens.1 text 0 ∧
      (boundBrackets.matchIn 5 { text } 0 {}).Agrees
        ((traced.2.release [5, 6]).matchIn traced.1 { text } 0 {}) := by
  have bound : unboundBrackets.bind 5 [("nested", 5)] = (.ok 1, boundBrackets) := rfl
  have plain : unboundBrackets.PlainCallbacks [("nested", 5)] 5 :=
    fun _ _ _ function => absurd function functionFree_brackets
  have held : (Pattern.traced 5 .hidden boundBrackets).2.Held [5, 6] 5 :=
    held_of_mem List.mem_cons_self
  have keeps : boundBrackets.KeepsRules (Pattern.traced 5 .hidden boundBrackets).2 [5, 6] 5 := by
    intro pattern name cell rule _ reference weak
    rw [(reference_brackets reference).2] at weak
    cases weak
    exact held
  obtain ⟨tokens, _, _⟩ := traced_matches_alike boundBrackets .hidden [5, 6]
  obtain ⟨_, _, grammars⟩ := traced_matches_alike unboundBrackets .hidden [5, 6]
  refine ⟨bound, tokens bracketTokens "main" none (fun pattern member => ?_)
    (fun pattern member => ?_) (fun pattern member => ?_) _ _, ?_⟩
  · rw [List.mem_singleton.mp member]
    exact traceable_brackets
  · rw [List.mem_singleton.mp member]
    exact keeps
  · rw [List.mem_singleton.mp member]
    decide
  · exact grammars [("nested", 5)] 5 1 boundBrackets bound bindable_brackets plain (by decide)
      (fun _ _ _ _ _ _ => held) _ _ _

/-- A rule is lost when the only pattern that holds it gets trace options. -/
theorem traced_loses_rule :
    let text := Text.ofString "(())"
    let traced := Pattern.traced 5 .hidden boundBrackets
    let tokens := bracketTokens.traced "main" .hidden none boundBrackets
    unboundBrackets.bind 5 [("nested", 5)] = (.ok 1, boundBrackets) ∧
      (boundBrackets.matchIn 5 { text } 0 {}).result = .ok (some (text.matchOver 0 4)) ∧
      ((traced.2.release [traced.1]).matchIn traced.1 { text } 0 {}).result =
        .ok (some (text.matchOver 0 0)) ∧
      ¬ Tokenizer.AnswersAs boundBrackets (tokens.2.release tokens.1.patterns) bracketTokens
        tokens.1 text 0 := by
  refine ⟨rfl, by decide +kernel, by decide +kernel, fun same => ?_⟩
  obtain ⟨startCopy, begins, answers⟩ := same.2 _ _ rfl
  cases begins
  exact absurd (answers 0) (by decide +kernel)

end PegEngine
