import PegEngine.Matching.Engine
import PegEngine.Pattern.Build

/-!
Contract: grammars of tokens, and tokenizers made of them.

A grammar is an ordered list of rules. A token rule yields what it matches under its pattern's
name, a skip rule passes over it, and a switch rule yields it and makes another grammar active
until the rule's end pattern matches.

Owns:
- the checks of grammars and tokenizers: token and switch rules and end patterns have names,
  grammars have different names, and every grammar that is switched to exists;
- `Grammar.traced`, which gives rules trace options.
-/

namespace PegEngine

/-- What becomes of the matches of a rule. -/
inductive RuleKind where
  | token
  | skip
  /-- Makes `grammar` active until the pattern `stop` matches. -/
  | switch (grammar : String) (stop : PatternId)
deriving DecidableEq, Repr

structure Rule where
  pattern : PatternId
  kind : RuleKind
deriving DecidableEq, Repr

namespace Rule

def token (pattern : PatternId) : Rule :=
  { pattern, kind := .token }

def skip (pattern : PatternId) : Rule :=
  { pattern, kind := .skip }

def switch (pattern : PatternId) (grammar : String) (stop : PatternId) : Rule :=
  { pattern, kind := .switch grammar stop }

def target? (rule : Rule) : Option String :=
  match rule.kind with
  | .switch grammar _ => some grammar
  | _ => none

def patterns (rule : Rule) : List PatternId :=
  match rule.kind with
  | .switch _ stop => [rule.pattern, stop]
  | _ => [rule.pattern]

/-- The error of a rule of a grammar, if it has one. -/
def fault? (graph : Graph) (grammar : String) (rule : Rule) : Option PatternError :=
  match rule.kind with
  | .skip => none
  | .token =>
      if (graph.name? rule.pattern).isNone then some (.unnamedToken grammar) else none
  | .switch _ stop =>
      if (graph.name? rule.pattern).isNone then some (.unnamedToken grammar)
      else if (graph.name? stop).isNone then some (.unnamedEndPattern grammar)
      else none

end Rule

/-- A named, ordered list of rules. -/
structure Grammar where
  name : String
  rules : List Rule
deriving DecidableEq, Repr

namespace Grammar

/-- A grammar of rules that have the names they need. The first rule that lacks one is an
error. -/
def ofRules (graph : Graph) (name : String) (rules : List Rule) : Except PatternError Grammar :=
  match rules.findSome? (Rule.fault? graph name) with
  | some error => .error error
  | none => .ok { name, rules }

/-- Give trace options to the rules whose pattern is called `token`, or to every rule. The
rules get new patterns in place of the old ones. -/
def traced (grammar : Grammar) (options : TraceOptions) (token : Option String) :
    Build Grammar := do
  let graph ← get
  let rules ← grammar.rules.mapM fun rule => do
    if token.isSome && graph.name? rule.pattern != token then
      pure rule
    else
      return { rule with pattern := ← Pattern.traced rule.pattern options }
  return { grammar with rules }

end Grammar

/-- Grammars, the one that is active first, and the settings of its matches. -/
structure Tokenizer where
  grammars : List Grammar
  initial : String
  /-- Ends the initial grammar, and with it the stream of tokens. -/
  stop : Option PatternId := none
  config : MatchConfig := {}

namespace Tokenizer

def grammar? (tokenizer : Tokenizer) (name : String) : Option Grammar :=
  tokenizer.grammars.find? (·.name == name)

/-- The first name that an earlier grammar carries already. -/
def duplicate? (earlier : List String) : List Grammar → Option String
  | [] => none
  | grammar :: rest =>
      if grammar.name ∈ earlier then some grammar.name
      else duplicate? (grammar.name :: earlier) rest

/-- The first name among the initial grammar and all grammars switched to that no grammar
carries. -/
def unknown? (initial : String) (grammars : List Grammar) : Option String :=
  let known := grammars.map (·.name)
  (initial :: grammars.flatMap fun grammar => grammar.rules.filterMap Rule.target?).find?
    fun name => name ∉ known

/-- A tokenizer of grammars with different names, all of whose targets exist. -/
def ofGrammars (initial : String) (grammars : List Grammar) : Except PatternError Tokenizer :=
  match duplicate? [] grammars with
  | some name => .error (.duplicateGrammar name)
  | none =>
      match unknown? initial grammars with
      | some name => .error (.unknownGrammar name)
      | none => .ok { grammars, initial }

/-- The tokenizer with a pattern that ends the initial grammar. -/
def endingWith (graph : Graph) (tokenizer : Tokenizer) (stop : PatternId) :
    Except PatternError Tokenizer :=
  match graph.name? stop with
  | some _ => .ok { tokenizer with stop := stop }
  | none => .error (.unnamedEndPattern tokenizer.initial)

/-- Give trace options to rules of one grammar. Nothing happens when there is no such
grammar. -/
def traced (tokenizer : Tokenizer) (grammar : String) (options : TraceOptions)
    (token : Option String) : Build Tokenizer := do
  let grammars ← tokenizer.grammars.mapM fun other =>
    if other.name = grammar then other.traced options token else pure other
  return { tokenizer with grammars }

def patterns (tokenizer : Tokenizer) : List PatternId :=
  tokenizer.stop.toList ++
    tokenizer.grammars.flatMap fun grammar => grammar.rules.flatMap Rule.patterns

end Tokenizer

end PegEngine
