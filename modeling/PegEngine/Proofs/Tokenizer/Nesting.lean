import PegEngine.Proofs.Tokenizer.Requests

/-!
Contract: which grammars are active in a stream of tokens, and where it stands.

A token is yielded by a switch rule, by the end pattern of the innermost grammar, or by a plain
token rule. The active grammars are those that tokens have switched to and that no end pattern has
left since, behind the initial one. Positions only go forth, and nothing changes any more after the
first request that is not answered with a token.

Owns:
- `Tokenizer.Made`, the tokenizers that can be made, and that they have all grammars that they
  switch to;
- `Role`, what a token does to the active grammars, and `openGrammars`, what is left open;
- `TokenStream.History`, the roles of the tokens of a stream, by what has yielded them;
- `TokenStream.EndsFirst`, that no rule is tried before the end pattern has failed;
- `Tokenizer.Made.tokens_nested`.
-/

namespace PegEngine

/-! ## Tokenizers that can be made -/

namespace Tokenizer

/-- The tokenizer has its initial grammar and all grammars that its rules switch to. -/
def Complete (tokenizer : Tokenizer) : Prop :=
  unknown? tokenizer.initial tokenizer.grammars = none

/-- Tokenizers of grammars that have passed the checks, with an end pattern, other settings and
trace options given to them later. -/
inductive Made : Tokenizer → Prop where
  | ofGrammars {initial : String} {grammars : List Grammar} {tokenizer : Tokenizer}
      (made : Tokenizer.ofGrammars initial grammars = .ok tokenizer) : Made tokenizer
  | endingWith {graph : Graph} {tokenizer ending : Tokenizer} {stop : PatternId}
      (before : Made tokenizer) (made : tokenizer.endingWith graph stop = .ok ending) : Made ending
  | withConfig {tokenizer : Tokenizer} (before : Made tokenizer) (config : MatchConfig) :
      Made { tokenizer with config }
  | traced {tokenizer : Tokenizer} (before : Made tokenizer) (grammar : String)
      (options : TraceOptions) (token : Option String) (graph : Graph) :
      Made (tokenizer.traced grammar options token graph).1

/-- What building keeps of every item, it keeps of all. -/
theorem map_mapM {α β γ : Type} {build : α → Build β} {read : β → γ} {old : α → γ}
    (each : ∀ item graph, read (build item graph).1 = old item) (items : List α) (graph : Graph) :
    (items.mapM build graph).1.map read = items.map old := by
  induction items generalizing graph with
  | nil => rfl
  | cons item items inductionHypothesis =>
      rw [List.mapM_cons]
      change read (build item graph).1 :: List.map read (items.mapM build (build item graph).2).1 = _
      rw [each, inductionHypothesis]
      rfl

/-- What the check of a tokenizer looks at: the name of a grammar and what its rules switch to. -/
def outline (grammar : Grammar) : String × List (Option String) :=
  (grammar.name, grammar.rules.map Rule.target?)

theorem unknown?_congr {grammars others : List Grammar}
    (same : grammars.map outline = others.map outline) (initial : String) :
    unknown? initial grammars = unknown? initial others := by
  have names : ∀ grammars : List Grammar,
      grammars.map (·.name) = (grammars.map outline).map Prod.fst := by
    intro grammars
    rw [List.map_map]
    rfl
  have targets : ∀ grammars : List Grammar,
      grammars.flatMap (fun grammar => grammar.rules.filterMap Rule.target?) =
        (grammars.map outline).flatMap (fun grammar => grammar.2.filterMap id) := by
    intro grammars
    simp only [List.flatMap_map, outline, List.filterMap_map, Function.id_comp]
  unfold unknown?
  rw [names grammars, names others, targets grammars, targets others, same]

theorem outline_traced (grammar : Grammar) (options : TraceOptions) (token : Option String)
    (graph : Graph) : outline (grammar.traced options token graph).1 = outline grammar := by
  refine congrArg (grammar.name, ·) (map_mapM (fun rule graph => ?_) grammar.rules _)
  split <;> rfl

/-- Trace options do not change what grammars are called and what they switch to. -/
theorem outlines_traced (tokenizer : Tokenizer) (grammar : String) (options : TraceOptions)
    (token : Option String) (graph : Graph) :
    (tokenizer.traced grammar options token graph).1.grammars.map outline =
      tokenizer.grammars.map outline := by
  refine map_mapM (fun other graph => ?_) tokenizer.grammars graph
  split
  · exact outline_traced ..
  · rfl

theorem Made.complete {tokenizer : Tokenizer} (made : tokenizer.Made) : tokenizer.Complete := by
  induction made with
  | @ofGrammars initial grammars tokenizer made =>
      unfold Tokenizer.ofGrammars at made
      split at made
      · cases made
      · split at made
        · cases made
        · next known =>
            cases made
            exact known
  | endingWith _ made inductionHypothesis =>
      unfold Tokenizer.endingWith at made
      split at made
      · cases made
        exact inductionHypothesis
      · cases made
  | withConfig _ _ inductionHypothesis => exact inductionHypothesis
  | traced _ grammar options token graph inductionHypothesis =>
      exact (unknown?_congr (outlines_traced ..) _).trans inductionHypothesis

theorem name_of_grammar? {tokenizer : Tokenizer} {name : String} {grammar : Grammar}
    (known : tokenizer.grammar? name = some grammar) : grammar.name = name := by
  simpa using List.find?_some known

theorem Complete.known {tokenizer : Tokenizer} (complete : tokenizer.Complete) {name : String}
    (comesTo : name = tokenizer.initial ∨ ∃ grammar ∈ tokenizer.grammars, ∃ rule ∈ grammar.rules,
      rule.target? = some name) :
    ∃ grammar, tokenizer.grammar? name = some grammar := by
  have isName := List.find?_eq_none.mp complete name (by
    rcases comesTo with same | ⟨grammar, member, rule, among, target⟩
    · exact same ▸ List.mem_cons_self
    · refine List.mem_cons_of_mem _ (List.mem_flatMap.mpr ⟨grammar, member, ?_⟩)
      exact List.mem_filterMap.mpr ⟨rule, among, target⟩)
  obtain ⟨grammar, member, named⟩ : ∃ grammar ∈ tokenizer.grammars, grammar.name = name := by
    simpa using isName
  exact Option.isSome_iff_exists.mp (List.find?_isSome.mpr ⟨grammar, member, by simp [named]⟩)

end Tokenizer

/-! ## Roles of tokens -/

/-- What a token does to the active grammars. -/
inductive Role where
  | plain
  /-- Yielded by a switch rule to the grammar. -/
  | enters (grammar : String)
  /-- Yielded by the end pattern of the innermost grammar. -/
  | leaves
deriving DecidableEq, Repr

namespace Role

def isSwitch : Role → Bool
  | .enters _ => true
  | _ => false

def isEnd : Role → Bool
  | .leaves => true
  | _ => false

/-- The active grammars after a token in the role, the innermost first. -/
def after : Role → List String → List String
  | .plain, names => names
  | .enters grammar, names => grammar :: names
  | .leaves, names => names.tail

end Role

/-- The grammars that tokens have switched to and that none has left since, the innermost first,
with the initial one behind them. The newest role comes first. -/
def openGrammars (initial : String) : List Role → List String
  | [] => [initial]
  | role :: earlier => role.after (openGrammars initial earlier)

namespace TokenStream

variable {graph : Graph} {tokenizer : Tokenizer} {stream later : TokenStream} {token : Token}

/-- What yields a token at the position of the stream, and the role that this gives it. -/
inductive Acts (graph : Graph) (tokenizer : Tokenizer) (stream : TokenStream) :
    Role → Token → Prop where
  | leaves {level : Active} {outer : List Active} {stop : PatternId} {m : Match}
      (active : stream.active = level :: outer) (ends : level.stop = some stop)
      (found : stream.Finds graph tokenizer stop m) :
      Acts graph tokenizer stream .leaves (TokenStream.token graph stop m)
  | enters {level : Active} {outer : List Active} {rule : Rule} {grammar : String}
      {stop : PatternId} {m : Match} (active : stream.active = level :: outer)
      (decides : Decides graph tokenizer stream.input.text stream.index level rule m)
      (kind : rule.kind = .switch grammar stop) :
      Acts graph tokenizer stream (.enters grammar) (TokenStream.token graph rule.pattern m)
  | plain {level : Active} {outer : List Active} {rule : Rule} {m : Match}
      (active : stream.active = level :: outer)
      (decides : Decides graph tokenizer stream.input.text stream.index level rule m)
      (kind : rule.kind = .token) :
      Acts graph tokenizer stream .plain (TokenStream.token graph rule.pattern m)

/-- The tokens of the first requests of a stream, by their roles, the newest first. -/
inductive History (graph : Graph) (tokenizer : Tokenizer) (start : TokenStream) :
    Nat → List Role → Prop where
  | start : History graph tokenizer start 0 []
  | token {count : Nat} {roles : List Role} {role : Role} {token : Token} {skips : List Event}
      {last : TokenStream} (before : History graph tokenizer start count roles)
      (answered : ((start.afterRequests graph tokenizer count).next graph tokenizer).answer =
        .ok (some token))
      (run : Run graph tokenizer (start.afterRequests graph tokenizer count) skips last)
      (areSkips : ∀ event ∈ skips, event.token = none)
      (acts : last.Acts graph tokenizer role token) :
      History graph tokenizer start (count + 1) (role :: roles)
  | nothing {count : Nat} {roles : List Role} (before : History graph tokenizer start count roles)
      (answered : ∀ token, ((start.afterRequests graph tokenizer count).next graph tokenizer).answer ≠
        .ok (some token)) :
      History graph tokenizer start (count + 1) roles

/-- What holds of the active grammars after tokens in these roles. -/
structure Nested (tokenizer : Tokenizer) (roles : List Role) (stream : TokenStream) : Prop where
  /-- One more than the switches that are not matched by an end. -/
  number : stream.active.length + roles.countP Role.isEnd = 1 + roles.countP Role.isSwitch
  names : stream.active.map (·.grammar.name) = openGrammars tokenizer.initial roles
  known : ∀ level ∈ stream.active, tokenizer.grammar? level.grammar.name = some level.grammar

theorem Nested.of_active {roles : List Role} (nested : stream.Nested tokenizer roles)
    (active : later.active = stream.active) : later.Nested tokenizer roles :=
  ⟨active ▸ nested.number, active ▸ nested.names, active ▸ nested.known⟩

/-- A token takes the active grammars on by its role. -/
theorem Goes.nested {roles : List Role} (goes : stream.Goes graph tokenizer (some token) later)
    (nested : stream.Nested tokenizer roles) :
    ∃ role, stream.Acts graph tokenizer role token ∧ later.Nested tokenizer (role :: roles) := by
  obtain ⟨number, names, known⟩ := nested
  cases goes with
  | @yield reading token goesOn moved answer =>
      have moves := @moves graph tokenizer stream
      rw [moved] at moves
      cases moves with
      | failed | unmatched | missing | stalled => cases answer
      | closed active ends found =>
          cases answer
          rw [active] at number names known
          refine ⟨.leaves, .leaves active ends found, ?_, ?_, ?_⟩
          · rw [List.length_cons] at number
            simp only [List.countP_cons, Role.isEnd, Role.isSwitch, if_true, Bool.false_eq_true,
              if_false]
            omega
          · simp only [openGrammars, Role.after, ← names, List.map_cons, List.tail_cons]
          · exact fun level member => known level (List.mem_cons_of_mem _ member)
      | token active decides kind =>
          cases answer
          exact ⟨.plain, .plain active decides kind, number, names, known⟩
      | @switched level outer rule grammar stop next m input trace active decides kind isKnown =>
          cases answer
          have named := Tokenizer.name_of_grammar? isKnown
          refine ⟨.enters grammar, .enters active decides kind, ?_, ?_, ?_⟩
          · simp only [List.countP_cons, Role.isEnd, Role.isSwitch, List.length_cons, if_true,
              Bool.false_eq_true, if_false]
            omega
          · simp only [openGrammars, Role.after, ← names, List.map_cons, named]
          · intro level member
            rcases List.mem_cons.mp member with same | member
            · rw [same]
              exact named ▸ isKnown
            · exact known level member

/-- After any number of requests the active grammars are those that the roles of the tokens leave
open. -/
theorem exists_history (placed : stream.Placed) (nested : stream.Nested tokenizer [])
    (count : Nat) :
    ∃ roles, History graph tokenizer stream count roles ∧
      (stream.afterRequests graph tokenizer count).Nested tokenizer roles := by
  induction count with
  | zero => exact ⟨[], .start, nested⟩
  | succ count inductionHypothesis =>
      obtain ⟨roles, history, nestedHere⟩ := inductionHypothesis
      obtain ⟨placedHere, _⟩ := @placed_afterRequests graph tokenizer stream placed count
      rw [afterRequests_add]
      change ∃ roles, _ ∧ Nested tokenizer roles
        ((stream.afterRequests graph tokenizer count).next graph tokenizer).stream
      by_cases answered : ∃ token, ((stream.afterRequests graph tokenizer count).next graph
        tokenizer).answer = .ok (some token)
      · obtain ⟨token, answered⟩ := answered
        obtain ⟨skips, last, run, areSkips, goes⟩ := next_goes answered
        have nestedLast : last.Nested tokenizer roles :=
          nestedHere.of_active (run.active_of_skips areSkips)
        obtain ⟨role, acts, nestedLater⟩ := goes.nested nestedLast
        exact ⟨role :: roles, .token history answered run areSkips acts, nestedLater⟩
      · have nothing := fun token same => answered ⟨token, same⟩
        obtain ⟨_, active, _⟩ := next_nothing placedHere nothing
        exact ⟨roles, .nothing history nothing, nestedHere.of_active active⟩

/-! ## End patterns first -/

/-- The stream with other rules in its innermost grammar. -/
def withRules (stream : TokenStream) (rules : List Rule) : TokenStream :=
  { stream with
    active := match stream.active with
      | [] => []
      | level :: outer => { level with grammar := { level.grammar with rules } } :: outer }

/-- Where the end pattern of the innermost grammar matches or ends in an error, the rules of the
grammar make no difference: none of them is tried. -/
def EndsFirst (graph : Graph) (tokenizer : Tokenizer) (stream : TokenStream) : Prop :=
  ∀ level outer stop, stream.active = level :: outer → level.stop = some stop →
    answerAt graph tokenizer.config stream.input.text stream.index stop ≠ .ok none →
    ∀ rules,
      let reading := stream.next graph tokenizer
      let other := (stream.withRules rules).next graph tokenizer
      other.answer = reading.answer ∧ other.trace = reading.trace ∧
        other.stream.index = reading.stream.index

theorem endsFirst (stream : TokenStream) : stream.EndsFirst graph tokenizer := by
  intro level outer stop active ends notFailed rules
  obtain ⟨input, index, _, finished⟩ := stream
  dsimp only at active
  subst active
  have sameRun : ∀ active, TokenStream.attempt graph tokenizer.config stop
      { input, index, active, finished } =
        graph.matchIn stop { text := input.text } index { config := tokenizer.config } :=
    fun _ => rfl
  change (graph.matchIn stop { text := input.text } index { config := tokenizer.config }).result ≠ _
    at notFailed
  cases finished with
  | true => exact ⟨rfl, rfl, rfl⟩
  | false =>
      unfold next read move withRules
      simp only [ends, sameRun, Bool.false_eq_true, if_false]
      cases answered : (graph.matchIn stop { text := input.text } index
          { config := tokenizer.config }).result with
      | error error => exact ⟨rfl, rfl, rfl⟩
      | ok outcome =>
          cases outcome with
          | none => exact absurd answered notFailed
          | some m => exact ⟨rfl, rfl, rfl⟩

end TokenStream

/-- A stream of a complete tokenizer starts with the initial grammar only. -/
theorem Tokenizer.Complete.nested_start {tokenizer : Tokenizer} (complete : tokenizer.Complete)
    {text : Text} {offset : Int} {start : TokenStream} {trace : List TraceEntry}
    (begins : tokenizer.tokens text offset = .ok (start, trace)) : start.Nested tokenizer [] := by
  obtain ⟨grammar, known⟩ := complete.known (Or.inl rfl)
  have named := name_of_grammar? known
  unfold tokens at begins
  simp only [known] at begins
  split at begins
  · cases begins
  · cases begins
    refine ⟨rfl, congrArg (fun name => [name]) named, fun level member => ?_⟩
    rw [List.mem_singleton.mp member]
    exact named ▸ known

open TokenStream in
/-- What holds along every stream of a tokenizer. Its position goes forth in the text, and each
token lies between the old position and the new one. There is one more active grammar than switches
that are not matched by an end, they are those that are left open, and the tokenizer has them and
all that they switch to. Wherever the stream comes to, no rule is tried before the end pattern of
its grammar has failed. The first request that is not answered with a token is the last one that
changes anything. -/
theorem Tokenizer.Made.tokens_nested {graph : Graph} {tokenizer : Tokenizer}
    (made : tokenizer.Made) {text : Text} {offset : Int} {start : TokenStream}
    {trace : List TraceEntry} (begins : tokenizer.tokens text offset = .ok (start, trace))
    (count : Nat) :
    let here := start.afterRequests graph tokenizer count
    let reading := here.next graph tokenizer
    (here.index ≤ reading.stream.index ∧ reading.stream.index ≤ text.length) ∧
    (∀ token, reading.answer = .ok (some token) →
      here.index ≤ token.result.start ∧ token.result.start ≤ token.result.stop ∧
        token.result.stop = reading.stream.index) ∧
    (∃ roles, History graph tokenizer start count roles ∧ here.Nested tokenizer roles) ∧
    (∀ level ∈ here.active, ∀ rule ∈ level.grammar.rules, ∀ name, rule.target? = some name →
      ∃ grammar, tokenizer.grammar? name = some grammar) ∧
    (∀ events later, Run graph tokenizer here events later → later.EndsFirst graph tokenizer) ∧
    ((∀ token, reading.answer ≠ .ok (some token)) → ∀ more,
      let later := reading.stream.afterRequests graph tokenizer more
      (later.next graph tokenizer).answer = .ok none ∧ later.index = reading.stream.index ∧
        later.active = reading.stream.active) := by
  intro here reading
  have complete := made.complete
  obtain ⟨placed, sameText, _⟩ := tokenizer.placed_of_tokens begins
  have nested := complete.nested_start begins
  obtain ⟨placedHere, textHere⟩ := @placed_afterRequests graph tokenizer start placed count
  obtain ⟨placedNext, textNext, forth, spans⟩ := @next_advances graph tokenizer here placedHere
  obtain ⟨roles, history, nestedHere⟩ := @exists_history graph tokenizer start placed nested count
  have textAfter : reading.stream.input.text = text := (textNext.trans textHere).trans sameText
  refine ⟨⟨forth, textAfter ▸ placedNext.index⟩, fun token answered => ?_,
    ⟨roles, history, nestedHere⟩, fun level member rule among name target => ?_,
    fun _ later _ => endsFirst later, fun nothing more => ?_⟩
  · obtain ⟨within, stop⟩ := spans token answered
    exact ⟨within.start, within.order, stop⟩
  · have inTable := List.mem_of_find?_eq_some (nestedHere.known level member)
    exact complete.known (Or.inr ⟨level.grammar, inTable, rule, among, target⟩)
  · have finished := (next_nothing placedHere nothing).1
    dsimp only
    rw [afterRequests_of_finished finished, next_of_finished finished]
    exact ⟨rfl, rfl, rfl⟩

namespace TokenStream

/-- Letters, blanks and brackets. -/
def letterPatterns : Graph where
  slots := #[
    some { kind := .literal ['a'], name := some "letter" },
    some { kind := .literal [' '] },
    some { kind := .literal ['('], name := some "open" },
    some { kind := .literal [')'], name := some "close" }]

def letterRules : List Rule := [.skip 1, .token 0, .switch 2 "inner" 3]

/-- Letters between brackets that nest. -/
def letters : Tokenizer where
  grammars := [{ name := "main", rules := letterRules }, { name := "inner", rules := letterRules }]
  initial := "main"

theorem tokens_nested_letters :
    ∃ start trace, letters.tokens (.ofString "a ((a) ") 0 = .ok (start, trace) ∧
      (∃ roles, History letterPatterns letters start 5 roles ∧
        openGrammars "main" roles = ["inner", "main"]) ∧
      (start.afterRequests letterPatterns letters 5).index = 6 ∧
      ∀ more, ((start.afterRequests letterPatterns letters 6).afterRequests letterPatterns letters
        more).index = 7 := by
  have passes : Tokenizer.ofGrammars "main" letters.grammars = .ok letters := rfl
  let start : TokenStream :=
    { input := { text := .ofString "a ((a) " }, index := 0
      active := [⟨{ name := "main", rules := letterRules }, none, none⟩] }
  have begins : letters.tokens (.ofString "a ((a) ") 0 = .ok (start, [entering "main" 0]) := rfl
  obtain ⟨_, _, ⟨roles, history, nested⟩, _, _, final⟩ :=
    @Tokenizer.Made.tokens_nested letterPatterns letters (.ofGrammars passes) _ _ _ _ begins 5
  refine ⟨start, _, begins, ⟨roles, history, ?_⟩, by decide +kernel, fun more => ?_⟩
  · exact nested.names.symm.trans (by decide +kernel)
  · have ended : ((start.afterRequests letterPatterns letters 5).next letterPatterns
        letters).answer.toOption = some none := by decide +kernel
    refine (final (fun token answered => ?_) more).2.1.trans (by decide +kernel)
    rw [answered] at ended
    cases ended

end TokenStream

end PegEngine
