import Mathlib.Data.Set.Finite.Basic
import Mathlib.Order.WellFounded
import PegEngine.Proofs.Tokenizer.Requests
import PegEngine.Proofs.Tokenizer.Standstill

/-!
Contract: which streams of tokens come to an end.

At one position a stream may enter grammar after grammar without taking a character, and nothing
but the rules of the grammars stops it. It ends unless it comes to a grammar that leads back to
itself in this way.

Owns:
- `TokenStream.Ends`, for streams that come to an end;
- `TokenStream.OpensEmpty`, from a grammar to the next one that is entered without taking a
  character;
- `ends_iff_avoidsEmptyCycles`, and a tokenizer whose streams do not end.
-/

namespace PegEngine

/-- A relation that leads from `start` to finitely many places, and from none back to itself, leads
nowhere forever. -/
theorem acc_of_finite_of_acyclic {Place : Type*} {leads : Place → Place → Prop} {start : Place}
    (finite : {place | Relation.ReflTransGen leads start place}.Finite)
    (acyclic : ∀ place, Relation.ReflTransGen leads start place →
      ¬ Relation.TransGen leads place place) :
    Acc (fun later earlier => leads earlier later) start := by
  let Reached := {place // Relation.ReflTransGen leads start place}
  let onward : Reached → Reached → Prop :=
    fun later earlier => Relation.TransGen leads earlier.1 later.1
  have : Finite Reached := finite
  have : IsTrans Reached onward := ⟨fun _ _ _ second first => first.trans second⟩
  have : Std.Irrefl onward := ⟨fun place => acyclic place.1 place.2⟩
  have wellFounded : WellFounded onward := Finite.wellFounded_of_trans_of_irrefl _
  have accessible : ∀ place : Reached, Acc (fun later earlier => leads earlier later) place.1 := by
    intro place
    induction place using wellFounded.induction with
    | _ place inductionHypothesis =>
        refine Acc.intro _ fun next step => ?_
        exact inductionHypothesis ⟨next, place.2.tail step⟩ (.single step)
  exact accessible ⟨start, .refl⟩

namespace TokenStream

variable {graph : Graph} {tokenizer : Tokenizer}

/-! ## Requests -/

/-- From some request on, every request is answered with nothing. -/
def Ends (graph : Graph) (tokenizer : Tokenizer) (stream : TokenStream) : Prop :=
  ∃ count, ∀ later, count ≤ later →
    ((stream.afterRequests graph tokenizer later).next graph tokenizer).answer = .ok none

theorem ends_of_finished {stream : TokenStream} (finished : stream.finished = true) :
    stream.Ends graph tokenizer := by
  refine ⟨0, fun later _ => ?_⟩
  rw [afterRequests_of_finished finished, next_of_finished finished]

/-- A stream ends if it ends after the next token. -/
theorem ends_of_next {stream : TokenStream}
    (endsLater : ∀ token, (stream.next graph tokenizer).answer = .ok (some token) →
      (stream.next graph tokenizer).stream.Ends graph tokenizer) :
    stream.Ends graph tokenizer := by
  have ends : (stream.next graph tokenizer).stream.Ends graph tokenizer := by
    rcases stream.next_token_or_finished with ⟨token, answered⟩ | finished
    · exact endsLater token answered
    · exact ends_of_finished finished
  obtain ⟨count, nothing⟩ := ends
  refine ⟨count + 1, fun later enough => ?_⟩
  obtain ⟨later, rfl⟩ := Nat.exists_eq_add_of_le' (Nat.le_of_add_left_le enough)
  exact nothing later (Nat.le_of_add_le_add_right enough)

/-! ## Entering grammars without taking a character -/

/-- At a position of the text, an active grammar enters another one without taking a character. -/
inductive OpensEmpty (graph : Graph) (tokenizer : Tokenizer) (text : Text) (index : Nat) :
    Active → Active → Prop where
  | intro {level : Active} {rule : Rule} {m : Match} {name : String} {stop : PatternId}
      {grammar : Grammar} (decides : Decides graph tokenizer text index level rule m)
      (empty : m.stop = index) (kind : rule.kind = .switch name stop)
      (known : tokenizer.grammar? name = some grammar) :
      OpensEmpty graph tokenizer text index level
        { grammar, stop := some stop, openedEmptyAt := some index }

/-- What the rules of a grammar can enter without taking a character. -/
def emptyTargets (tokenizer : Tokenizer) (index : Nat) (grammar : Grammar) : List Active :=
  grammar.rules.filterMap fun rule =>
    match rule.kind with
    | .switch name stop => (tokenizer.grammar? name).map fun grammar =>
        { grammar, stop := some stop, openedEmptyAt := some index }
    | _ => none

section Levels

variable {text : Text} {index : Nat} {level next : Active}

theorem OpensEmpty.target (opens : OpensEmpty graph tokenizer text index level next) :
    next ∈ emptyTargets tokenizer index level.grammar ∧ next.grammar ∈ tokenizer.grammars := by
  cases opens with
  | intro decides empty kind known =>
      refine ⟨List.mem_filterMap.mpr ⟨_, decides.member, ?_⟩, List.mem_of_find?_eq_some known⟩
      rw [kind]
      simp only [known, Option.map_some]

/-- Only finitely many grammars with their end patterns can be entered one from another. -/
theorem finite_opensEmpty (level : Active) :
    {other | Relation.ReflTransGen (OpensEmpty graph tokenizer text index) level other}.Finite := by
  let grammars := level.grammar :: tokenizer.grammars
  let levels := level :: grammars.flatMap (emptyTargets tokenizer index)
  refine (List.finite_toSet levels).subset fun other reached => ?_
  have found : other ∈ levels ∧ other.grammar ∈ grammars := by
    induction reached with
    | refl => exact ⟨List.mem_cons_self, List.mem_cons_self⟩
    | tail _ opens inductionHypothesis =>
        obtain ⟨target, known⟩ := opens.target
        exact ⟨List.mem_cons_of_mem _ (List.mem_flatMap.mpr ⟨_, inductionHypothesis.2, target⟩),
          List.mem_cons_of_mem _ known⟩
  exact found.1

end Levels

section Forward

variable {stream : TokenStream} {level next : Active} {outer : List Active}

theorem search_of_first {before after : List Rule} {rule : Rule} {m : Match}
    (fail : ∀ other ∈ before,
      answerAt graph tokenizer.config stream.input.text stream.index other.pattern = .ok none)
    (found : stream.Finds graph tokenizer rule.pattern m) :
    (stream.search graph tokenizer.config (before ++ rule :: after)).result =
      .ok (some (rule, m)) := by
  induction before generalizing stream with
  | nil =>
      have matched : (stream.attempt graph tokenizer.config rule.pattern).result = .ok (some m) :=
        found
      simp only [List.nil_append, search, matched]
  | cons first before inductionHypothesis =>
      have failed : (stream.attempt graph tokenizer.config first.pattern).result = .ok none :=
        fail first List.mem_cons_self
      have text := @text_attempt graph tokenizer.config first.pattern stream
      simp only [List.cons_append, search, failed]
      refine inductionHypothesis (fun other member => ?_) ?_
      · rw [text]
        exact fail other (List.mem_cons_of_mem first member)
      · unfold Finds at found ⊢
        rwa [text]

/-- The stream has entered the grammar, and stands where it did. -/
structure Entered (stream : TokenStream) (next : Active) (later : TokenStream) : Prop where
  goesOn : later.finished = false
  active : later.active = next :: stream.active
  index : later.index = stream.index
  text : later.input.text = stream.input.text

/-- The move goes into the grammar, seen from `stream`. -/
def Move.Enters (stream : TokenStream) (next : Active) : Move → Prop
  | .skip _ _ => False
  | .answer reading =>
      (∃ token, reading.answer = .ok (some token)) ∧ stream.Entered next reading.stream

theorem Move.Enters.after {move : Move} (enters : move.Enters stream next)
    (trace : List TraceEntry) : (move.after trace).Enters stream next := by
  cases move with
  | answer reading => exact enters
  | skip later more => exact enters

theorem moveByRules_enters {input : Input} (goesOn : stream.finished = false)
    (sameText : input.text = stream.input.text)
    (opens : OpensEmpty graph tokenizer stream.input.text stream.index level next) :
    (({ stream with input } : TokenStream).moveByRules graph tokenizer level.grammar).Enters stream
      next := by
  cases opens with
  | @intro rule m name stop grammar decides empty kind known =>
      obtain ⟨before, after, split, fail⟩ := decides.first
      have found := decides.found
      rw [← sameText] at fail found
      have chosen := @search_of_first graph tokenizer { stream with input } before after rule m fail
        found
      have text := @text_search graph tokenizer.config { stream with input }
        level.grammar.rules
      rw [← split] at chosen
      simp only [moveByRules, chosen]
      refine Move.Enters.after ?_ _
      simp only [apply, kind, enter, known]
      refine ⟨⟨_, rfl⟩, goesOn, ?_, empty, text.trans sameText⟩
      simp only [empty, Nat.lt_irrefl, if_false]

theorem move_enters (goesOn : stream.finished = false) (active : stream.active = level :: outer)
    (opens : OpensEmpty graph tokenizer stream.input.text stream.index level next) :
    (stream.move graph tokenizer).Enters stream next := by
  unfold move
  split
  · next none => cases none.symm.trans active
  · next same =>
      cases same.symm.trans active
      split
      · exact moveByRules_enters goesOn rfl opens
      · next stop ends =>
          have failed : (stream.attempt graph tokenizer.config stop).result = .ok none := by
            cases opens with
            | intro decides => exact decides.stop stop ends
          simp only [failed]
          exact (moveByRules_enters goesOn (text_attempt ..) opens).after _

/-- Where a grammar can be entered without taking a character, the next token enters it. -/
theorem next_enters (goesOn : stream.finished = false) (active : stream.active = level :: outer)
    (opens : OpensEmpty graph tokenizer stream.input.text stream.index level next) :
    (∃ token, (stream.next graph tokenizer).answer = .ok (some token)) ∧
      stream.Entered next (stream.next graph tokenizer).stream := by
  have enters := move_enters goesOn active opens
  cases moved : stream.move graph tokenizer with
  | skip later trace =>
      rw [moved] at enters
      exact enters.elim
  | answer reading =>
      rw [moved] at enters
      obtain ⟨⟨token, answered⟩, entered⟩ := enters
      have same : stream.next graph tokenizer = reading := by
        simp only [TokenStream.next, goesOn, read_of_answer moved, answered, Bool.false_eq_true,
          if_false]
      rw [same]
      exact ⟨⟨token, answered⟩, entered⟩

end Forward

/-! ## Streams that end -/

/-- A stream stands where a grammar leads back to itself without taking a character. -/
def OnEmptyCycle (graph : Graph) (tokenizer : Tokenizer) (stream : TokenStream) : Prop :=
  stream.finished = false ∧ ∃ level outer, stream.active = level :: outer ∧
    Relation.TransGen (OpensEmpty graph tokenizer stream.input.text stream.index) level level

/-- No request takes the stream to an empty cycle. -/
def AvoidsEmptyCycles (graph : Graph) (tokenizer : Tokenizer) (stream : TokenStream) : Prop :=
  ∀ count, ¬ (stream.afterRequests graph tokenizer count).OnEmptyCycle graph tokenizer

section Endings

variable {stream later : TokenStream} {text : Text} {index : Nat} {level inner : Active}
  {outer : List Active}

theorem AvoidsEmptyCycles.next (avoids : stream.AvoidsEmptyCycles graph tokenizer) :
    (stream.next graph tokenizer).stream.AvoidsEmptyCycles graph tokenizer :=
  fun count => avoids (count + 1)

/-- A token that enters a grammar without taking a character is due to the rules of the grammar
that was active before. -/
theorem Goes.opensEmpty {token : Option Token} (goes : stream.Goes graph tokenizer token later)
    (stays : later.index = stream.index) (active : stream.active = level :: outer)
    (entered : later.active = inner :: stream.active) :
    OpensEmpty graph tokenizer stream.input.text stream.index level inner := by
  have longer := congrArg List.length entered
  rw [List.length_cons] at longer
  cases goes.change with
  | closed activeNow =>
      rw [activeNow, List.length_cons] at longer
      dsimp only at longer
      omega
  | @switched _ _ _ _ _ _ m _ activeNow decides kind known =>
      cases activeNow.symm.trans active
      have empty : m.stop = stream.index := stays
      have same := (List.cons.inj entered).1
      simp only [empty, Nat.lt_irrefl, if_false] at same
      rw [← same]
      exact .intro decides empty kind known
  | plain | skipped => exact absurd longer (Nat.ne_of_lt (Nat.lt_succ_self _))

/-- A request takes the stream further, or it is a single move at the position. -/
theorem next_further {token : Token} (placed : stream.Placed) (phase : stream.InPhase)
    (answered : (stream.next graph tokenizer).answer = .ok (some token))
    (result : later = (stream.next graph tokenizer).stream) :
    later.Placed ∧ later.InPhase ∧ later.input.text = stream.input.text ∧
      (stream.index < later.index ∨
        later.index = stream.index ∧ stream.Goes graph tokenizer (some token) later) := by
  obtain ⟨skips, last, run, areSkips, goes⟩ := next_goes answered
  rw [← result] at goes
  obtain ⟨placedLast, phaseLast, upToLast, textLast⟩ := run.keeps placed phase
  obtain ⟨advances, placedLater⟩ := goes.advances placedLast
  have forth : last.index ≤ later.index := advances.forth
  refine ⟨placedLater, goes.inPhase placedLast phaseLast, advances.text.trans textLast, ?_⟩
  cases run with
  | done =>
      rcases Nat.lt_or_eq_of_le forth with further | stays
      · exact Or.inl further
      · exact Or.inr ⟨stays.symm, goes⟩
  | @step _ first _ token _ skip rest =>
      have noToken : token = none := areSkips ⟨stream, token, first⟩ List.mem_cons_self
      subst noToken
      have placedFirst := (skip.advances placed).2
      have rest := (rest.keeps placedFirst (skip.inPhase placed phase)).2.2.1
      refine Or.inl ?_
      cases skip.change with
      | skipped _ progressed => exact Nat.lt_of_lt_of_le progressed (Nat.le_trans rest forth)

/-- What can be entered without taking a character is entered by some request. -/
theorem exists_request_of_opensEmpty {other : Active}
    (reached : Relation.ReflTransGen (OpensEmpty graph tokenizer text index) level other)
    (goesOn : stream.finished = false) (sameText : stream.input.text = text)
    (here : stream.index = index) (active : stream.active = level :: outer) :
    ∃ count others, (stream.afterRequests graph tokenizer count).finished = false ∧
      (stream.afterRequests graph tokenizer count).active = other :: others ∧
      (stream.afterRequests graph tokenizer count).input.text = text ∧
      (stream.afterRequests graph tokenizer count).index = index := by
  induction reached using Relation.ReflTransGen.head_induction_on generalizing stream outer with
  | refl => exact ⟨0, outer, goesOn, active, sameText, here⟩
  | head opens _ inductionHypothesis =>
      subst sameText here
      obtain ⟨_, entered⟩ := next_enters goesOn active opens
      obtain ⟨count, others, found⟩ :=
        inductionHypothesis entered.goesOn entered.text entered.index entered.active
      exact ⟨count + 1, others, found⟩

/-- From a grammar that is active only finitely many grammars are entered in a row without taking a
character. -/
theorem acc_opensEmpty (avoids : stream.AvoidsEmptyCycles graph tokenizer)
    (goesOn : stream.finished = false) (active : stream.active = level :: outer) :
    Acc (fun later earlier => OpensEmpty graph tokenizer stream.input.text stream.index earlier
      later) level := by
  refine acc_of_finite_of_acyclic (finite_opensEmpty level) fun other reached cycle => ?_
  obtain ⟨count, others, stillGoesOn, activeThen, sameText, stays⟩ :=
    exists_request_of_opensEmpty reached goesOn rfl rfl active
  refine avoids count ⟨stillGoesOn, other, others, activeThen, ?_⟩
  rwa [sameText, stays]

section AtPosition

variable (endsBeyond : ∀ later : TokenStream, later.Placed → later.InPhase →
  later.AvoidsEmptyCycles graph tokenizer → later.input.text = text → index < later.index →
  later.Ends graph tokenizer)
include endsBeyond

/-- A stream that has just entered a grammar at its position ends if it ends beyond. -/
theorem ends_of_accessible
    (accessible : Acc (fun later earlier => OpensEmpty graph tokenizer text index earlier later)
      level)
    (placed : stream.Placed) (avoids : stream.AvoidsEmptyCycles graph tokenizer)
    (sameText : stream.input.text = text) (here : stream.index = index)
    (active : stream.active = level :: outer) (opened : level.openedEmptyAt = some index) :
    stream.Ends graph tokenizer := by
  -- Each grammar that is entered here is one step further along the accessible relation.
  induction accessible generalizing stream outer with
  | intro level _ inductionHypothesis =>
      have justOpened : stream.JustOpened := ⟨level, outer, active, here ▸ opened⟩
      refine ends_of_next fun token answered => ?_
      obtain ⟨placedLater, phaseLater, textLater, further | ⟨stays, goes⟩⟩ :=
        next_further placed (Or.inr (Or.inr justOpened)) answered rfl
      · exact endsBeyond _ placedLater phaseLater avoids.next (textLater.trans sameText)
          (here ▸ further)
      · rcases justOpened.goes goes stays with ⟨⟨inner, entered⟩, opened⟩ | ends
        · have opens := goes.opensEmpty stays active entered
          rw [sameText, here] at opens
          have openedHere : inner.openedEmptyAt = some index := by
            obtain ⟨innermost, _, activeLater, openedLater⟩ := opened
            cases entered.symm.trans activeLater
            rw [openedLater, stays, here]
          exact inductionHypothesis inner opens placedLater avoids.next (textLater.trans sameText)
            (stays.trans here) entered openedHere
        · exact ends_of_finished ends.finished

theorem ends_of_justOpened (placed : stream.Placed)
    (avoids : stream.AvoidsEmptyCycles graph tokenizer) (sameText : stream.input.text = text)
    (here : stream.index = index) (opened : stream.JustOpened) : stream.Ends graph tokenizer := by
  cases goesOn : stream.finished with
  | true => exact ends_of_finished goesOn
  | false =>
      obtain ⟨level, outer, active, openedHere⟩ := opened
      have accessible := acc_opensEmpty avoids goesOn active
      rw [sameText, here] at accessible
      exact ends_of_accessible endsBeyond accessible placed avoids sameText here active
        (here ▸ openedHere)

/-- A stream that has entered no grammar at its position ends if it ends beyond. -/
theorem ends_of_fresh (placed : stream.Placed)
    (avoids : stream.AvoidsEmptyCycles graph tokenizer) (sameText : stream.input.text = text)
    (here : stream.index = index) (fresh : stream.Fresh) : stream.Ends graph tokenizer := by
  -- The stream can leave no more grammars than are active.
  induction sameLength : stream.active.length using Nat.strong_induction_on
    generalizing stream with
  | _ size inductionHypothesis =>
      refine ends_of_next fun token answered => ?_
      obtain ⟨placedLater, phaseLater, textLater, further | ⟨stays, goes⟩⟩ :=
        next_further placed (Or.inr (Or.inl fresh)) answered rfl
      · exact endsBeyond _ placedLater phaseLater avoids.next (textLater.trans sameText)
          (here ▸ further)
      · have textLater := textLater.trans sameText
        have hereLater := stays.trans here
        rcases fresh.goes goes stays with ⟨⟨level, left⟩, freshLater⟩ | ⟨_, opened⟩ | ends
        · have fewer : (stream.next graph tokenizer).stream.active.length < size := by
            have one := congrArg List.length left
            rw [sameLength, List.length_cons] at one
            exact one ▸ Nat.lt_succ_self _
          exact inductionHypothesis _ fewer placedLater avoids.next textLater hereLater
            freshLater rfl
        · exact ends_of_justOpened endsBeyond placedLater avoids.next textLater hereLater opened
        · exact ends_of_finished ends.finished

end AtPosition

/-- A stream ends if it comes to no empty cycle. -/
theorem ends_of_avoidsEmptyCycles (placed : stream.Placed) (phase : stream.InPhase)
    (avoids : stream.AvoidsEmptyCycles graph tokenizer) : stream.Ends graph tokenizer := by
  induction left : stream.input.text.length - stream.index using Nat.strong_induction_on
    generalizing stream with
  | _ left inductionHypothesis =>
      have endsBeyond : ∀ later : TokenStream, later.Placed → later.InPhase →
          later.AvoidsEmptyCycles graph tokenizer → later.input.text = stream.input.text →
          stream.index < later.index → later.Ends graph tokenizer := by
        intro later placedLater phaseLater avoidsLater sameText further
        have inside := placedLater.index
        refine inductionHypothesis _ ?_ placedLater phaseLater avoidsLater rfl
        rw [sameText] at inside ⊢
        omega
      rcases phase with finished | fresh | opened
      · exact ends_of_finished finished
      · exact ends_of_fresh endsBeyond placed avoids rfl rfl fresh
      · exact ends_of_justOpened endsBeyond placed avoids rfl rfl opened

/-- On an empty cycle every request is answered with a token, and goes round the cycle. -/
theorem OnEmptyCycle.next (cycle : stream.OnEmptyCycle graph tokenizer) :
    (∃ token, (stream.next graph tokenizer).answer = .ok (some token)) ∧
      (stream.next graph tokenizer).stream.OnEmptyCycle graph tokenizer := by
  obtain ⟨goesOn, level, outer, active, around⟩ := cycle
  obtain ⟨inner, opens, back⟩ := Relation.TransGen.head'_iff.mp around
  obtain ⟨answered, entered⟩ := next_enters goesOn active opens
  refine ⟨answered, entered.goesOn, inner, stream.active, entered.active, ?_⟩
  rw [entered.text, entered.index]
  exact Relation.TransGen.tail' back opens

theorem OnEmptyCycle.afterRequests (cycle : stream.OnEmptyCycle graph tokenizer) (count : Nat) :
    (stream.afterRequests graph tokenizer count).OnEmptyCycle graph tokenizer := by
  induction count generalizing stream with
  | zero => exact cycle
  | succ count inductionHypothesis => exact inductionHypothesis cycle.next.2

theorem OnEmptyCycle.not_ends (cycle : stream.OnEmptyCycle graph tokenizer) :
    ¬ stream.Ends graph tokenizer := by
  intro ⟨count, nothing⟩
  obtain ⟨token, answered⟩ := (cycle.afterRequests count).next.1
  rw [nothing count (Nat.le_refl count)] at answered
  cases answered

/-- A stream that ends has ended after some requests too. -/
theorem Ends.afterRequests (ends : stream.Ends graph tokenizer) (more : Nat) :
    (stream.afterRequests graph tokenizer more).Ends graph tokenizer := by
  obtain ⟨count, nothing⟩ := ends
  refine ⟨count, fun later enough => ?_⟩
  rw [← afterRequests_add]
  exact nothing _ (Nat.le_trans enough (Nat.le_add_left ..))

end Endings

/-- A stream of tokens ends, unless some request takes it to a grammar that leads back to itself
by rules that enter grammars without taking a character. -/
theorem ends_iff_avoidsEmptyCycles {text : Text} {offset : Int} {start : TokenStream}
    {trace : List TraceEntry} (begins : tokenizer.tokens text offset = .ok (start, trace)) :
    start.Ends graph tokenizer ↔ start.AvoidsEmptyCycles graph tokenizer := by
  obtain ⟨placed, _⟩ := tokenizer.placed_of_tokens begins
  refine ⟨fun ends count cycle => cycle.not_ends (ends.afterRequests count), ?_⟩
  exact ends_of_avoidsEmptyCycles placed (Or.inr (Or.inl (fresh_of_tokens begins)))

theorem ends_iff_avoidsEmptyCycles_gaps :
    ∃ start trace, gaps.tokens (.ofString "") 0 = .ok (start, trace) ∧
      start.Ends gapPatterns gaps := by
  let start : TokenStream :=
    { input := { text := .ofString "" }, index := 0, active := [⟨outerGaps, none, none⟩] }
  have begins : gaps.tokens (.ofString "") 0 = .ok (start, [entering "outer" 0]) := rfl
  refine ⟨start, _, begins, (ends_iff_avoidsEmptyCycles begins).mpr fun count onCycle => ?_⟩
  obtain ⟨goesOn, level, outer, active, around⟩ := onCycle
  match count with
  | 0 =>
      -- A grammar that starts the stream was not entered from another one.
      cases active
      obtain ⟨_, _, opens⟩ := Relation.TransGen.tail'_iff.mp around
      cases opens
  | 1 =>
      cases active
      obtain ⟨_, opens, _⟩ := Relation.TransGen.head'_iff.mp around
      cases opens with
      | intro decides _ kind =>
          cases List.mem_singleton.mp decides.member
          cases kind
  | count + 2 =>
      have finished : (start.afterRequests gapPatterns gaps 2).finished = true := rfl
      rw [Nat.add_comm, afterRequests_add, afterRequests_of_finished finished, finished] at goesOn
      cases goesOn

/-- A grammar that enters itself without taking a character. -/
def reopening : Tokenizer where
  grammars := [{ name := "outer", rules := [.switch 0 "outer" 1] }]
  initial := "outer"

theorem not_ends_reopening :
    Tokenizer.ofGrammars "outer" [{ name := "outer", rules := [.switch 0 "outer" 1] }] =
        .ok reopening ∧
      ∃ start trace, reopening.tokens (.ofString "b") 0 = .ok (start, trace) ∧
        ∀ count, ∃ token,
          ((start.afterRequests gapPatterns reopening count).next gapPatterns reopening).answer =
            .ok (some token) := by
  refine ⟨rfl, _, _, rfl, fun count => ?_⟩
  cases count with
  | zero => exact ⟨_, rfl⟩
  | succ count =>
      have entered : OnEmptyCycle gapPatterns reopening (TokenStream.next gapPatterns reopening
          { input := { text := .ofString "b" }, index := 0,
            active := [⟨⟨"outer", [.switch 0 "outer" 1]⟩, none, none⟩] }).stream := by
        refine ⟨rfl, _, _, rfl, .single (.intro ⟨?_, ⟨[], [], rfl, nofun⟩, rfl⟩ rfl rfl rfl)⟩
        intro stop ends
        cases ends
        rfl
      exact (entered.afterRequests count).next.1

end TokenStream

end PegEngine
