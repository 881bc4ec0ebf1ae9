import PegEngine.Proofs.Matching.Extension
import PegEngine.Proofs.Reachability

/-!
Contract: where matches lie.

A match that is answered for a position begins at it or after it, ends where it begins or later, and
ends inside the text. The matches of callbacks and transforms are no exception, since their spans
are checked. What nodes make of matches themselves keeps to this, and to some other laws as well.

Owns:
- `Match.Within`, for the matches of one position;
- `Matching.Ensures`, for what holds of the value that an action ends with;
- `SpanLaw`, a law about matches and positions that nodes keep to, and `PartLaw`, which says nothing
  of nodes that change what is captured, with one lemma for each kind of node that makes calls;
- `Kind.isForeign`, for the nodes whose matches are up to functions from outside, `HandsOver`, for
  what these functions give them, and `foreign_answers`, by which only what passes the check counts;
- `Graph.matchIn_answers_of_calls` for every such law, and `Graph.matchIn_within`.
-/

namespace PegEngine

/-- The match is one of position `i`, inside the text. -/
structure Match.Within (m : Match) (text : Text) (i : Nat) : Prop where
  start : i ≤ m.start
  order : m.start ≤ m.stop
  stop : m.stop ≤ text.length

namespace Match.Within

variable {text : Text} {i : Nat} {m part : Match}

theorem le_stop (within : m.Within text i) : i ≤ m.stop :=
  Nat.le_trans within.start within.order

/-- A part from where a match ends keeps the match inside the text. -/
theorem append (within : m.Within text i) (next : part.Within text (min m.stop text.length)) :
    (m.append part).Within text i := by
  have clamped : min m.stop text.length = m.stop := Nat.min_eq_left within.stop
  rw [clamped] at next
  exact ⟨within.start, Nat.le_trans within.order next.le_stop, next.stop⟩

end Match.Within

/-- The match is up to a function from outside. -/
def Kind.isForeign : Kind → Bool
  | .function _ | .transform _ _ => true
  | _ => false

/-- What the match captures is not just what its parts capture. -/
def Kind.changesCaptures : Kind → Bool
  | .function _ | .transform _ _ | .capture _ | .value _ | .group _ _ | .position | .line | .column
  | .stackCapture _ _ | .stackSize _ _ | .positive _ | .select _ _ _ => true
  | _ => false

namespace Matching

/-! ## Values that actions end with -/

/-- A value that the action ends with has the property. -/
def Ensures {α : Type} (property : α → Prop) (action : MatchM α) : Prop :=
  ∀ state value reached, action state = .ok value reached → property value

namespace Ensures

variable {α β : Type} {property : α → Prop} {later : β → Prop}

theorem pure {value : α} (holds : property value) : Ensures property (Pure.pure value) := by
  intro state other reached ended
  cases ended
  exact holds

theorem throw (error : MatchError) : Ensures property (MonadExcept.throw error : MatchM α) :=
  fun _ _ _ ended => nomatch ended

theorem bind {action : MatchM α} {next : α → MatchM β} (first : Ensures property action)
    (rest : ∀ value, property value → Ensures later (next value)) :
    Ensures later (action >>= next) := by
  intro state value reached ended
  rw [bind_apply] at ended
  cases endedFirst : action state with
  | ok middle between =>
      rw [endedFirst] at ended
      exact rest middle (first state middle between endedFirst) between value reached ended
  | error error between =>
      rw [endedFirst] at ended
      cases ended

/-- An action whose value says nothing. -/
theorem bind_any {action : MatchM α} {next : α → MatchM β}
    (rest : ∀ value, Ensures later (next value)) :
    Ensures later (action >>= next) := by
  have anything : Ensures (fun _ => True) action := fun _ _ _ _ => trivial
  exact anything.bind fun value _ => rest value

theorem orThrow {result : Except MatchError α}
    (holds : ∀ value, result = .ok value → property value) :
    Ensures property (Matching.orThrow result) := by
  cases result with
  | ok value => exact pure (holds value rfl)
  | error error => exact throw error

end Ensures

/-! ## Laws that nodes keep to -/

/-- A law about the matches of a position that holds of matches without captures, and of a whole if
it holds of the parts. -/
structure PartLaw (text : Text) (law : Nat → Match → Prop) : Prop where
  plain {i stop : Nat} (later : i ≤ stop) (inside : stop ≤ text.length) :
    law i (text.matchOver i stop)
  append {i : Nat} {m part : Match} (first : law i m)
    (next : law (min m.stop text.length) part) : law i (m.append part)

/-- A law about the matches of a position. What a node makes itself keeps to it, and so does what it
makes of matches that do. -/
structure SpanLaw (text : Text) (law : Nat → Match → Prop) : Prop where
  made {i stop : Nat} (captures : List Capture) (later : i ≤ stop) (inside : stop ≤ text.length) :
    law i { source := text, start := i, stop, captures }
  append {i : Nat} {m part : Match} (first : law i m)
    (next : law (min m.stop text.length) part) : law i (m.append part)
  recapture {i : Nat} {m : Match} (captures : List Capture) (holds : law i m) :
    law i { m with captures }
  /-- A match with no width in the place of another one. -/
  looked {i : Nat} {m : Match} (inside : i ≤ text.length) (holds : law i m) :
    law i { m with start := i, stop := i }
  /-- A match from the position itself in the place of another one. -/
  covered {i : Nat} {m : Match} (captures : List Capture) (holds : law i m) :
    law i { source := text, start := i, stop := m.stop, captures }

theorem SpanLaw.parts {text : Text} {law : Nat → Match → Prop} (keeps : SpanLaw text law) :
    PartLaw text law :=
  ⟨keeps.made [], keeps.append⟩

/-- Matches lie in the rest of the text. -/
theorem spanLaw_within (text : Text) : SpanLaw text fun i m => m.Within text i where
  made _ later inside := ⟨Nat.le_refl _, later, inside⟩
  append first next := first.append next
  recapture _ holds := ⟨holds.start, holds.order, holds.stop⟩
  looked inside _ := ⟨Nat.le_refl _, Nat.le_refl _, inside⟩
  covered _ holds := ⟨Nat.le_refl _, holds.le_stop, holds.stop⟩

/-- Matches begin at the position itself. -/
theorem spanLaw_start (text : Text) : SpanLaw text fun i m => m.start = i where
  made _ _ _ := rfl
  append first _ := first
  recapture _ holds := holds
  looked _ _ := rfl
  covered _ _ := rfl

/-- The match of an outcome, if there is one, keeps to the law. -/
def Answers (law : Nat → Match → Prop) (i : Nat) (outcome : Option Match) : Prop :=
  ∀ m, outcome = some m → law i m

section Nodes

variable {text : Text} {law : Nat → Match → Prop} {i : Nat}

theorem answers_none : Answers law i none :=
  fun _ found => nomatch found

theorem answers_some {m : Match} (holds : law i m) : Answers law i (some m) :=
  fun _ found => Option.some.inj found ▸ holds

theorem Answers.ite {outcome : Option Match} {condition : Prop} [Decidable condition]
    (answers : condition → Answers law i outcome) :
    Answers law i (if condition then outcome else none) := by
  split
  · next holds => exact answers holds
  · exact answers_none

theorem Answers.map {outcome : Option Match} {change : Match → Match}
    (answers : Answers law i outcome) (keeps : ∀ m, law i m → law i (change m)) :
    Answers law i (outcome.map change) := by
  cases outcome with
  | none => exact answers_none
  | some m => exact answers_some (keeps m (answers m rfl))

section Laws

variable (parts : PartLaw text law)

include parts

theorem answers_matchOver {stop : Nat} (later : i ≤ stop) (inside : stop ≤ text.length) :
    Answers law i (some (text.matchOver i stop)) :=
  answers_some (parts.plain later inside)

theorem zeroWidthIf_answers (inside : i ≤ text.length) (accepts : Bool) :
    Answers law i (zeroWidthIf text i accepts) :=
  .ite fun _ => answers_matchOver parts (Nat.le_refl i) inside

theorem literalAt_answers (literal : List Char) : Answers law i (literalAt text i literal) := by
  refine .ite fun occurs => answers_matchOver parts (Nat.le_add_right ..) ?_
  simp only [Text.occursAt, Bool.and_eq_true, decide_eq_true_eq] at occurs
  exact occurs.1

theorem charAt_answers (set : CharSet) : Answers law i (charAt text i set) := by
  unfold charAt
  split
  · next found =>
      have inside : i < text.length := (Array.getElem?_eq_some_iff.mp found).1
      exact .ite fun _ => answers_matchOver parts (Nat.le_succ i) inside
  · exact answers_none

theorem charsAt_answers (inside : i ≤ text.length) (count : Nat) :
    Answers law i (charsAt text i count) := by
  refine .ite fun enough => answers_matchOver parts (Nat.le_add_right ..) ?_
  omega

theorem restAt_answers (inside : i ≤ text.length) (count : Nat) :
    Answers law i (restAt text i count) :=
  .ite fun _ => answers_matchOver parts inside (Nat.le_refl _)

theorem stackEntryAt_answers (inside : i ≤ text.length) (entry expected : Option Capture) :
    Answers law i (stackEntryAt text i entry expected) := by
  unfold stackEntryAt
  split
  · exact answers_none
  · exact zeroWidthIf_answers parts inside _
  · exact literalAt_answers parts _
  · exact answers_matchOver parts (Nat.le_refl i) inside

end Laws

theorem zeroWidthValue_answers (keeps : SpanLaw text law) (inside : i ≤ text.length)
    (value : Capture) :
    Answers law i (zeroWidthValue text i value) :=
  answers_some (keeps.made [value] (Nat.le_refl i) inside)

theorem stackSizeAt_answers (keeps : SpanLaw text law) (inside : i ≤ text.length) (size : Nat)
    (expected : Option Nat) :
    Answers law i (stackSizeAt text i size expected) := by
  cases expected with
  | none => exact zeroWidthValue_answers keeps inside _
  | some expected => exact zeroWidthIf_answers keeps.parts inside _

/-! ## Nodes that make calls -/

variable {call : Caller} {body : PatternId}

/-- The answers of the pattern's calls keep to the law. -/
def CallsAnswer (text : Text) (law : Nat → Match → Prop) (call : Caller) (pattern : PatternId) :
    Prop :=
  ∀ index, Ensures (Answers law (min index text.length)) (call pattern index)

theorem CallsAnswer.at {pattern : PatternId} (calls : CallsAnswer text law call pattern)
    (inside : i ≤ text.length) : Ensures (Answers law i) (call pattern i) := by
  have clamped := calls i
  rwa [Nat.min_eq_left inside] at clamped

theorem matchChoice_answers (inside : i ≤ text.length) {items : List PatternId}
    (calls : ∀ item ∈ items, CallsAnswer text law call item) :
    Ensures (Answers law i) (matchChoice call i items) := by
  induction items with
  | nil => exact .pure answers_none
  | cons item rest inductionHypothesis =>
      refine .bind ((calls item (by simp)).at inside) fun outcome answers => ?_
      cases outcome with
      | none => exact inductionHypothesis fun next member => calls next (by simp [member])
      | some m => exact .pure answers

theorem matchReference_answers (inside : i ≤ text.length) {graph : Graph} {name : String}
    {cell : CellId}
    (calls : ∀ rule, graph.target? cell = some rule → CallsAnswer text law call rule) :
    Ensures (Answers law i) (matchReference graph call i name cell) := by
  unfold matchReference
  split
  · next rule target => exact (calls rule target).at inside
  · exact .bind_any fun _ => .pure answers_none

theorem matchBackCapture_answers (inside : i ≤ text.length)
    (calls : CallsAnswer text law call body) (name : String) (index : Option Int) :
    Ensures (Answers law i) (matchBackCapture call i name body index) := by
  refine .bind (calls.at inside) fun outcome answers => ?_
  cases outcome with
  | none => exact .pure answers_none
  | some m => exact .bind_any fun _ => .bind_any fun _ => .pure answers

section Laws

variable (parts : PartLaw text law)

include parts

theorem matchSequence_answers {items : List PatternId}
    (calls : ∀ item ∈ items, CallsAnswer text law call item) {soFar : Match}
    (holds : law i soFar) : Ensures (Answers law i) (matchSequence call items soFar) := by
  induction items generalizing soFar with
  | nil => exact .pure (answers_some holds)
  | cons item rest inductionHypothesis =>
      refine .bind (calls item (by simp) soFar.stop) fun outcome part => ?_
      cases outcome with
      | none => exact .pure answers_none
      | some m =>
          exact inductionHypothesis (fun next member => calls next (by simp [member]))
            (parts.append holds (part m rfl))

theorem matchUpTo_answers (calls : CallsAnswer text law call body) (most done : Nat)
    {soFar : Match} (holds : law i soFar) :
    Ensures (fun counted => law i counted.2) (matchUpTo call body most done soFar) := by
  induction most generalizing done soFar with
  | zero => exact .pure holds
  | succ most inductionHypothesis =>
      refine .bind (calls soFar.stop) fun outcome part => ?_
      cases outcome with
      | none => exact .pure holds
      | some m => exact inductionHypothesis _ (parts.append holds (part m rfl))

theorem matchAtLeast_answers (calls : CallsAnswer text law call body)
    (minimum left done : Nat) {soFar : Match} (holds : law i soFar) :
    Ensures (Answers law i) (matchAtLeast call body minimum left done soFar) := by
  induction left generalizing done soFar with
  | zero =>
      unfold matchAtLeast
      refine .bind (calls soFar.stop) fun outcome part => ?_
      cases outcome with
      | none => exact .pure (.ite fun _ => answers_some holds)
      | some m =>
          have appended := answers_some (parts.append holds (part m rfl))
          dsimp only
          split <;> exact .pure appended
  | succ left inductionHypothesis =>
      unfold matchAtLeast
      refine .bind (calls soFar.stop) fun outcome part => ?_
      cases outcome with
      | none => exact .pure (.ite fun _ => answers_some holds)
      | some m =>
          have appended := parts.append holds (part m rfl)
          dsimp only
          split
          · exact .pure (answers_some appended)
          · exact inductionHypothesis _ appended

theorem matchRepetition_answers (inside : i ≤ text.length)
    (calls : CallsAnswer text law call body) (count : RepeatCount) :
    Ensures (Answers law i) (matchRepetition text call i body count) := by
  have nothing : law i (text.matchOver i i) := parts.plain (Nat.le_refl i) inside
  cases count with
  | atLeast minimum => exact matchAtLeast_answers parts calls _ _ _ nothing
  | atMost maximum =>
      exact .bind (matchUpTo_answers parts calls _ _ nothing) fun _ holds =>
        .pure (answers_some holds)
  | exactly count =>
      exact .bind (matchUpTo_answers parts calls _ _ nothing) fun _ holds =>
        .pure (.ite fun _ => answers_some holds)

theorem matchBackReference_answers (name : String) :
    Ensures (Answers law i) (matchBackReference text i name) := by
  refine .bind_any fun state => ?_
  split
  · exact .throw _
  · exact .pure (literalAt_answers parts _)

end Laws

theorem matchStackCapture_answers (keeps : SpanLaw text law) (inside : i ≤ text.length)
    (calls : CallsAnswer text law call body) (stack : String) :
    Ensures (Answers law i) (matchStackCapture call i stack body) := by
  refine .bind (calls.at inside) fun outcome answers => ?_
  cases outcome with
  | none => exact .pure answers_none
  | some m => exact .bind_any fun _ => .pure (answers_some (keeps.recapture [] (answers m rfl)))

end Nodes

/-- Every kind of node keeps to a law of parts if its calls do, and if the nodes that change what is
captured keep to it. -/
theorem matchKind_answers_of_parts {setup : Setup} {law : Nat → Match → Prop}
    (parts : PartLaw setup.text law) {call : Caller} {i : Nat} (inside : i ≤ setup.text.length)
    {pattern : PatternId}
    (calls : ∀ next, setup.graph.Calls pattern next → CallsAnswer setup.text law call next)
    (changing : (setup.graph.kind pattern).changesCaptures = true →
      Ensures (Answers law i) (matchKind setup call i (setup.graph.kind pattern))) :
    Ensures (Answers law i) (matchKind setup call i (setup.graph.kind pattern)) := by
  have part : ∀ child ∈ (setup.graph.kind pattern).children,
      CallsAnswer setup.text law call child :=
    fun child member => calls child (Or.inl (Or.inl member))
  generalize found : setup.graph.kind pattern = kind at part changing ⊢
  cases kind with
  | function | transform | capture | value | group | position | line | column | stackCapture
  | stackSize | positive | select => exact changing rfl
  | literal chars => exact .pure (literalAt_answers parts chars)
  | charSet set => exact .pure (charAt_answers parts set)
  | chars count => exact .pure (charsAt_answers parts inside count)
  | rest count => exact .pure (restAt_answers parts inside count)
  | constant | startOfLine | endOfLine => exact .pure (zeroWidthIf_answers parts inside _)
  | backReference name => exact matchBackReference_answers parts name
  | backCapture name body index =>
      exact matchBackCapture_answers inside (part body (by simp [Kind.children])) name index
  | stackPop stack count =>
      exact .bind_any fun _ => .bind_any fun _ => .bind_any fun _ =>
        .pure (answers_matchOver parts (Nat.le_refl i) inside)
  | stackMatch stack index expected =>
      exact .bind_any fun _ => .pure (stackEntryAt_answers parts inside _ expected)
  | sequence items => exact matchSequence_answers parts part (parts.plain (Nat.le_refl i) inside)
  | choice items => exact matchChoice_answers inside part
  | negative body => exact .bind_any fun _ => .pure (zeroWidthIf_answers parts inside _)
  | repetition body count =>
      exact matchRepetition_answers parts inside (part body (by simp [Kind.children])) count
  | reference name cell =>
      exact matchReference_answers inside fun rule target =>
        calls rule (Or.inl (Graph.leads_of_target? found target))

/-- Every kind of node keeps to a law if its calls do, and if the law holds of the matches that come
from outside. -/
theorem matchKind_answers {setup : Setup} {law : Nat → Match → Prop}
    (keeps : SpanLaw setup.text law) {call : Caller} {i : Nat} (inside : i ≤ setup.text.length)
    {pattern : PatternId}
    (calls : ∀ next, setup.graph.Calls pattern next → CallsAnswer setup.text law call next)
    (foreign : (setup.graph.kind pattern).isForeign = true →
      Ensures (Answers law i) (matchKind setup call i (setup.graph.kind pattern))) :
    Ensures (Answers law i) (matchKind setup call i (setup.graph.kind pattern)) := by
  refine matchKind_answers_of_parts keeps.parts inside calls fun changing => ?_
  have own : ∀ child, (setup.graph.kind pattern).children = [child] →
      CallsAnswer setup.text law call child :=
    fun child only => calls child (Or.inl (Or.inl (by simp [only])))
  generalize setup.graph.kind pattern = kind at own foreign changing ⊢
  cases kind with
  | function | transform => exact foreign rfl
  | value | position | line | column => exact .pure (zeroWidthValue_answers keeps inside _)
  | capture body =>
      exact .bind ((own body rfl).at inside) fun _ answers =>
        .pure (answers.map fun _ => keeps.recapture _)
  | group body dropEmpty =>
      refine .bind ((own body rfl).at inside) fun _ answers => .pure (answers.map fun m holds => ?_)
      unfold collectCaptures
      split
      · exact holds
      · exact keeps.recapture _ holds
  | stackCapture stack body => exact matchStackCapture_answers keeps inside (own body rfl) stack
  | stackSize stack expected =>
      exact .bind_any fun _ => .pure (stackSizeAt_answers keeps inside _ expected)
  | positive body =>
      exact .bind ((own body rfl).at inside) fun _ answers =>
        .pure (answers.map fun _ => keeps.looked inside)
  | select body index default =>
      exact .bind ((own body rfl).at inside) fun _ answers =>
        .pure (answers.map fun _ => keeps.covered _)
  | _ => cases changing

/-! ## Matches from outside -/

/-- A function from outside hands over a match at position `i`: the callback of a function node, or
the transform of what the body of a node has matched. -/
inductive HandsOver (text : Text) (call : Caller) (i : Nat) :
    Kind → MatchState → Match → MatchState → Prop where
  | function {callback : Callback} {state reached : MatchState} {m : Match}
      (ran : runProgram call (callback.program text i) state = .ok (.found m) reached) :
      HandsOver text call i (.function callback) state m reached
  | transform {body : PatternId} {change : Transform} {state reached : MatchState}
      {m changed : Match} (matched : call body i state = .ok (some m) reached)
      (turned : change m = some changed) :
      HandsOver text call i (.transform body change) state changed reached

theorem checkSpan_passed {text : Text} {i : Nat} {m checked : Match}
    (passed : checkSpan text i m = .ok checked) :
    checked = m ∧ m.Within text i ∧ m.source.length = text.length := by
  unfold checkSpan at passed
  split at passed
  · next holds =>
      obtain ⟨start, order, stop, sameLength⟩ := holds
      exact ⟨(Except.ok.inj passed).symm, ⟨start, order, stop⟩, sameLength⟩
  · cases passed

section Foreign

variable {setup : Setup} {law : Nat → Match → Prop} {call : Caller} {i : Nat}

/-- What passes the check keeps to a law if the match from outside does. -/
theorem checkSpan_answers {m : Match}
    (handed : m.Within setup.text i → m.source.length = setup.text.length → law i m) :
    Ensures (Answers law i)
      (do return some (← Matching.orThrow (checkSpan setup.text i m)) : MatchM (Option Match)) := by
  have passes : Ensures (law i) (Matching.orThrow (checkSpan setup.text i m)) := by
    refine .orThrow fun checked passed => ?_
    obtain ⟨rfl, within, sameLength⟩ := checkSpan_passed passed
    exact handed within sameLength
  exact passes.bind fun _ holds => .pure (answers_some holds)

theorem ofOutcome_answers (parts : PartLaw setup.text law) (inside : i ≤ setup.text.length)
    {outcome : CallbackOutcome}
    (handed : ∀ m, outcome = .found m →
      m.Within setup.text i → m.source.length = setup.text.length → law i m) :
    Ensures (Answers law i) (ofOutcome setup.text i outcome) := by
  cases outcome with
  | found m => exact checkSpan_answers (handed m rfl)
  | accept => exact .pure (answers_matchOver parts (Nat.le_refl i) inside)
  | stopAt stop =>
      dsimp only [ofOutcome]
      split
      · next holds => exact .pure (answers_matchOver parts holds.1 holds.2)
      · exact .pure answers_none
  | reject => exact .pure answers_none

/-- A node whose matches are up to a function from outside keeps to a law if those matches do that
the function hands over and that pass the check. -/
theorem foreign_answers (parts : PartLaw setup.text law) (inside : i ≤ setup.text.length)
    {kind : Kind} (foreign : kind.isForeign = true)
    (handed : ∀ state m reached, HandsOver setup.text call i kind state m reached →
      m.Within setup.text i → m.source.length = setup.text.length → law i m) :
    Ensures (Answers law i) (matchKind setup call i kind) := by
  cases kind with
  | function callback =>
      have ran : Ensures (fun outcome => ∀ m, outcome = .found m → ∃ state reached,
          HandsOver setup.text call i (.function callback) state m reached)
          (runProgram call (callback.program setup.text i)) :=
        fun state _ reached ended m same => ⟨state, reached, .function (same ▸ ended)⟩
      refine ran.bind fun outcome origin => ofOutcome_answers parts inside fun m same => ?_
      obtain ⟨state, reached, hands⟩ := origin m same
      exact handed state m reached hands
  | transform body change =>
      have matched : Ensures (fun outcome => ∀ m, outcome = some m → ∃ state reached,
          call body i state = .ok (some m) reached) (call body i) :=
        fun state _ reached ended m same => ⟨state, reached, same ▸ ended⟩
      refine matched.bind fun outcome origin => ?_
      cases outcome with
      | none => exact .pure answers_none
      | some m =>
          obtain ⟨state, reached, found⟩ := origin m rfl
          dsimp only
          split
          · exact .pure answers_none
          · next changed turned =>
              exact checkSpan_answers (handed state changed reached (.transform found turned))
  | _ => cases foreign

end Foreign

/-- Matches from outside are checked. -/
theorem foreign_within {setup : Setup} {call : Caller} {i : Nat} {kind : Kind}
    (inside : i ≤ setup.text.length) (foreign : kind.isForeign = true) :
    Ensures (Answers (fun i m => m.Within setup.text i) i) (matchKind setup call i kind) :=
  foreign_answers (spanLaw_within setup.text).parts inside foreign fun _ _ _ _ within _ => within

/-! ## Calls -/

/-- The protocol of pattern calls passes on the match of the body. -/
theorem guarded_ok {setup : Setup} {pattern : PatternId} {i : Nat} {body : MatchM (Option Match)}
    {entry reached : MatchState} {m : Match}
    (ended : guarded setup pattern i body entry = .ok (some m) reached) :
    ∃ state before, body before = .ok (some m) state := by
  unfold guarded at ended
  dsimp only at ended
  split at ended
  · next outcome state endedBody =>
      cases outcome with
      | some found =>
          cases ended
          exact ⟨state, _, endedBody⟩
      | none =>
          dsimp only at ended
          split at ended <;> cases ended
  · cases ended

/-- The matches from outside that a match of the pattern can come to keep to the law. -/
def ForeignAnswers (setup : Setup) (law : Nat → Match → Prop) (pattern : PatternId) : Prop :=
  ∀ origin, setup.graph.Reaches pattern origin → (setup.graph.kind origin).isForeign = true →
    ∀ call i, i ≤ setup.text.length →
      Ensures (Answers law i) (matchKind setup call i (setup.graph.kind origin))

/-- What a node keeps to, its calls keep to. The position is clamped before the node sees it. -/
theorem call_answers_of_node {setup : Setup} {law : Nat → Match → Prop} {room : Nat}
    {pattern : PatternId}
    (node : ∀ i ≤ setup.text.length, Ensures (Answers law i)
      (matchKind setup (call setup room) i (setup.graph.kind pattern))) :
    CallsAnswer setup.text law (call setup (room + 1)) pattern := by
  intro index entry outcome reached ended m found
  subst found
  simp only [call] at ended
  split at ended
  · cases ended
  · obtain ⟨_, _, endedBody⟩ := guarded_ok ended
    exact node _ (Nat.min_le_right ..) _ _ _ endedBody m rfl

/-- What every node keeps to if its calls do, whole calls keep to. -/
theorem call_answers_of_nodes {setup : Setup} {law : Nat → Match → Prop} (room : Nat)
    {pattern : PatternId}
    (nodes : ∀ origin, setup.graph.Reaches pattern origin →
      ∀ call i, i ≤ setup.text.length →
        (∀ next, setup.graph.Calls origin next → CallsAnswer setup.text law call next) →
          Ensures (Answers law i) (matchKind setup call i (setup.graph.kind origin))) :
    CallsAnswer setup.text law (call setup room) pattern := by
  induction room generalizing pattern with
  | zero => exact fun _ => .throw _
  | succ room inductionHypothesis =>
      exact call_answers_of_node fun i inside => nodes pattern .refl (call setup room) i inside
        fun next step => inductionHypothesis fun origin reaches =>
          nodes origin (.of_calls step reaches)

theorem call_answers {setup : Setup} {law : Nat → Match → Prop} (keeps : SpanLaw setup.text law)
    (room : Nat) {pattern : PatternId} (foreign : ForeignAnswers setup law pattern) :
    CallsAnswer setup.text law (call setup room) pattern :=
  call_answers_of_nodes room fun origin reaches call i inside calls =>
    matchKind_answers keeps inside calls fun own => foreign origin reaches own call i inside

/-- The calls of every pattern answer with matches in the rest of the text. -/
theorem call_within (setup : Setup) (room : Nat) (pattern : PatternId) :
    CallsAnswer setup.text (fun i m => m.Within setup.text i) (call setup room) pattern :=
  call_answers (spanLaw_within setup.text) room
    fun _ _ foreign _ _ inside => foreign_within inside foreign

end Matching

namespace Graph

variable {graph : Graph} {pattern : PatternId} {input : Input} {index : Nat} {context : Context}
  {m : Match}

theorem matchIn_answers_of_calls {law : Nat → Match → Prop}
    (calls : ∀ room, Matching.CallsAnswer input.text law
      (Matching.call (context.setup graph input.text) room) pattern)
    (found : (graph.matchIn pattern input index context).result = .ok (some m)) :
    law (min index input.text.length) m := by
  unfold matchIn at found
  split at found
  · next outcome state ended => exact calls _ index _ _ _ ended m (Except.ok.inj found)
  · cases found

theorem matchIn_answers {law : Nat → Match → Prop} (keeps : Matching.SpanLaw input.text law)
    (foreign : Matching.ForeignAnswers (context.setup graph input.text) law pattern)
    (found : (graph.matchIn pattern input index context).result = .ok (some m)) :
    law (min index input.text.length) m :=
  matchIn_answers_of_calls (fun room => Matching.call_answers keeps room foreign) found

/-- The match of a pattern at a position lies in the rest of the text. -/
theorem matchIn_within
    (found : (graph.matchIn pattern input index context).result = .ok (some m)) :
    m.Within input.text (min index input.text.length) :=
  matchIn_answers (Matching.spanLaw_within input.text)
    (fun _ _ foreign _ _ inside => Matching.foreign_within inside foreign) found

end Graph

end PegEngine
