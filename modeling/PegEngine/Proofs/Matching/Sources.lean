import PegEngine.Proofs.Matching.Isolation
import PegEngine.Proofs.Matching.Spans

/-!
Contract: the text that a match is made on.

A match carries the text that it was made on. What nodes make themselves is made on the text of the
input, and nodes that pass a match on leave its text alone, so another text can only come in through
a function from outside. There the check looks at the span and at the length of the match's text. A
text of another length is turned down; one of the same length is taken for the text of the input.

Owns:
- `Match.BelongsTo`, for matches made on the text itself;
- `Setup.HandsOverOwn`, for functions from outside that hand over no match of a lookalike, that is
  of another text with the same length;
- `Graph.matchIn_belongs`: without lookalikes a match belongs to its input, what is captured is cut
  out of it, and every other match from outside is an invalid span;
- `Graph.matchIn_handing`, by which lookalikes cannot be left out;
- `Graph.length_value_of_matchIn`, which needs nothing of the functions from outside.
-/

namespace PegEngine

/-- The match is one of position `i`, made on the text itself. -/
structure Match.BelongsTo (m : Match) (text : Text) (i : Nat) : Prop extends m.Within text i where
  source : m.source = text

/-- The value of a match is the slice of the text that it belongs to. -/
theorem Match.BelongsTo.value {m : Match} {text : Text} {i : Nat} (belongs : m.BelongsTo text i) :
    m.value = text.slice m.start m.stop := by
  rw [Match.value, belongs.source]

theorem Text.length_slice (text : Text) (start stop : Nat) :
    (text.slice start stop).length = min stop text.length - start := by
  rw [slice, String.length_ofList, length_span]

namespace Matching

/-- Matches are made on the text. -/
theorem spanLaw_belongs (text : Text) : SpanLaw text fun i m => m.BelongsTo text i where
  made _ later inside := ⟨⟨Nat.le_refl _, later, inside⟩, rfl⟩
  append first next := ⟨first.toWithin.append next.toWithin, first.source⟩
  recapture _ holds := ⟨⟨holds.start, holds.order, holds.stop⟩, holds.source⟩
  looked inside holds := ⟨⟨Nat.le_refl _, Nat.le_refl _, inside⟩, holds.source⟩
  covered _ holds := ⟨⟨Nat.le_refl _, holds.le_stop, holds.stop⟩, rfl⟩

/-- Matches are made on a text of the same length. -/
theorem spanLaw_sameLength (text : Text) :
    SpanLaw text fun _ m => m.source.length = text.length where
  made _ _ _ := rfl
  append first _ := first
  recapture _ holds := holds
  looked _ holds := holds
  covered _ _ := rfl

theorem call_sameLength (setup : Setup) (room : Nat) (pattern : PatternId) :
    CallsAnswer setup.text (fun _ m => m.source.length = setup.text.length) (call setup room)
      pattern :=
  call_answers (spanLaw_sameLength setup.text) room fun _ _ foreign _ _ inside =>
    foreign_answers (spanLaw_sameLength setup.text).parts inside foreign
      fun _ _ _ _ _ sameLength => sameLength

end Matching

open Matching

/-- The functions from outside that a match of the pattern comes to hand over no match of a text as
long as the text itself but those of the text itself, provided that the matches that they are given
belong to it. Matches of texts of other lengths may be handed over. -/
def Setup.HandsOverOwn (setup : Setup) (pattern : PatternId) : Prop :=
  ∀ origin, setup.graph.Reaches pattern origin → ∀ call, ∀ i ≤ setup.text.length,
    (∀ next, setup.graph.Calls origin next →
      CallsAnswer setup.text (fun i m => m.BelongsTo setup.text i) call next) →
    ∀ state m reached, HandsOver setup.text call i (setup.graph.kind origin) state m reached →
      m.source.length = setup.text.length → m.source = setup.text

theorem Setup.HandsOverOwn.of_calls {setup : Setup} {pattern next : PatternId}
    (own : setup.HandsOverOwn pattern) (step : setup.graph.Calls pattern next) :
    setup.HandsOverOwn next :=
  fun origin reaches => own origin (.of_calls step reaches)

theorem Setup.HandsOverOwn.of_reaches {setup : Setup} {pattern other : PatternId}
    (own : setup.HandsOverOwn pattern) (reaches : setup.graph.Reaches pattern other) :
    setup.HandsOverOwn other :=
  fun origin below => own origin (reaches.trans below)

/-- Whenever a capture node that a match of the pattern can come to matches, it captures the slice
of the text that it matches. -/
def Setup.CapturesSlices (setup : Setup) (pattern : PatternId) : Prop :=
  ∀ origin body, setup.graph.Reaches pattern origin → setup.graph.kind origin = .capture body →
    ∀ room index entry m reached, call setup room origin index entry = .ok (some m) reached →
      ∃ inner, m.captures = .text (setup.text.slice m.start m.stop) :: inner

/-- Whenever a function from outside that a match of the pattern can come to hands over a match, the
call of its node has that match if it belongs to the text, and else ends with an invalid span. -/
def Setup.RefusesOthers (setup : Setup) (pattern : PatternId) : Prop :=
  ∀ origin, setup.graph.Reaches pattern origin →
    ∀ room index entry m reached, entry.depth < setup.limit →
      let i := min index setup.text.length
      HandsOver setup.text (call setup room) i (setup.graph.kind origin)
          (started setup origin i entry) m reached →
        (m.BelongsTo setup.text i →
          answerOf (call setup (room + 1) origin index entry) = .ok (some m)) ∧
        (¬ m.BelongsTo setup.text i →
          answerOf (call setup (room + 1) origin index entry) =
            .error (.invalidSpan m.start m.stop i))

namespace Matching

section Calls

variable {setup : Setup} {pattern : PatternId} {m : Match} {i : Nat}

theorem call_belongs (own : setup.HandsOverOwn pattern) (room : Nat) :
    CallsAnswer setup.text (fun i m => m.BelongsTo setup.text i) (call setup room) pattern :=
  call_answers_of_nodes room fun origin reaches call i inside calls =>
    matchKind_answers (spanLaw_belongs setup.text) inside calls fun foreign =>
      foreign_answers (spanLaw_belongs setup.text).parts inside foreign
        fun state m reached handed within sameLength =>
          ⟨within, own origin reaches call i inside calls state m reached handed sameLength⟩

/-! ## Captures -/

theorem captureText_slice (belongs : m.BelongsTo setup.text i) :
    ∃ inner, (captureText m).captures =
      .text (setup.text.slice (captureText m).start (captureText m).stop) :: inner :=
  ⟨m.captures, congrArg (Capture.text · :: m.captures) belongs.value⟩

theorem capturesSlices (own : setup.HandsOverOwn pattern) : setup.CapturesSlices pattern := by
  intro origin body reaches isCapture room index entry m reached ended
  have part : setup.graph.Calls origin body := Or.inl (Or.inl (by simp [isCapture, Kind.children]))
  have ownBody : setup.HandsOverOwn body := (own.of_reaches reaches).of_calls part
  have node (room i : Nat) (inside : i ≤ setup.text.length) :
      Ensures (Answers (fun _ m => ∃ inner, m.captures =
        .text (setup.text.slice m.start m.stop) :: inner) i)
        (matchKind setup (call setup room) i (setup.graph.kind origin)) := by
    rw [isCapture]
    refine .bind ((call_belongs ownBody room).at inside) fun outcome belongs => .pure ?_
    cases outcome with
    | none => exact answers_none
    | some inner => exact answers_some (captureText_slice (belongs inner rfl))
  cases room with
  | zero => cases ended
  | succ room => exact call_answers_of_node (node room) index entry (some m) reached ended m rfl

/-! ## Matches from outside -/

/-- The answer of a call whose body ends with a match or an error. -/
theorem answerOf_guarded {body : MatchM (Option Match)} {entry : MatchState}
    {answer : Except MatchError Match}
    (ended : answerOf (body (started setup pattern i entry)) = answer.map some) :
    answerOf (guarded setup pattern i body entry) =
      (answer.map some).mapError (·.inPattern (setup.graph.name? pattern)) := by
  cases bodyEnded : body (started setup pattern i entry) with
  | ok outcome reached =>
      rw [bodyEnded] at ended
      cases answer with
      | ok m =>
          cases ended
          rw [guarded_of_found bodyEnded]
          rfl
      | error error => cases ended
  | error error reached =>
      rw [bodyEnded] at ended
      cases answer with
      | ok m => cases ended
      | error other =>
          cases ended
          exact guarded_of_failed bodyEnded

theorem HandsOver.answerOf_matchKind {state reached : MatchState} {call : Caller} {kind : Kind}
    (handed : HandsOver setup.text call i kind state m reached) :
    answerOf (matchKind setup call i kind state) = (checkSpan setup.text i m).map some := by
  have passedOn : ∀ result : Except MatchError Match,
      answerOf ((do return some (← Matching.orThrow result) : MatchM (Option Match)) reached) =
        result.map some := by
    intro result
    cases result <;> rfl
  rw [← passedOn]
  cases handed with
  | function ran => simp only [matchKind, bind_apply, ran, ofOutcome]
  | transform matched turned => simp only [matchKind, matchTransform, bind_apply, matched, turned]

/-- The answer of a node is the match that a function from outside hands over, if it passes the
check. -/
theorem HandsOver.answerOf_call {room index : Nat} {entry reached : MatchState}
    (handed : HandsOver setup.text (call setup room) (min index setup.text.length)
      (setup.graph.kind pattern) (started setup pattern (min index setup.text.length) entry) m
      reached)
    (free : entry.depth < setup.limit) :
    answerOf (call setup (room + 1) pattern index entry) =
      (checkSpan setup.text (min index setup.text.length) m).map some := by
  simp only [call, if_neg (Nat.not_le_of_lt free)]
  rw [answerOf_guarded handed.answerOf_matchKind]
  unfold checkSpan
  split <;> rfl

/-- The answer of a capture node whose body ends with a match or an error. -/
theorem answerOf_call_capture {body : PatternId} {room index : Nat} {entry : MatchState}
    {answer : Except MatchError Match} (isCapture : setup.graph.kind pattern = .capture body)
    (ended : answerOf (call setup room body (min index setup.text.length)
      (started setup pattern (min index setup.text.length) entry)) = answer.map some)
    (free : entry.depth < setup.limit) :
    answerOf (call setup (room + 1) pattern index entry) =
      (answer.map fun m => some (captureText m)).mapError
        (·.inPattern (setup.graph.name? pattern)) := by
  have captured : answerOf (matchKind setup (call setup room) (min index setup.text.length)
      (.capture body) (started setup pattern (min index setup.text.length) entry)) =
        (answer.map captureText).map some := by
    simp only [matchKind, bind_apply]
    cases bodyEnded : call setup room body (min index setup.text.length)
        (started setup pattern (min index setup.text.length) entry) <;>
      rw [bodyEnded] at ended <;> cases answer <;> cases ended <;> rfl
  simp only [call, if_neg (Nat.not_le_of_lt free), isCapture]
  rw [answerOf_guarded captured]
  cases answer <;> rfl

theorem checkSpan_of_belongs (belongs : m.BelongsTo setup.text i) :
    checkSpan setup.text i m = .ok m :=
  if_pos ⟨belongs.start, belongs.order, belongs.stop, congrArg Text.length belongs.source⟩

theorem checkSpan_of_not_belongs (others : ¬ m.BelongsTo setup.text i)
    (noLookalike : m.source.length = setup.text.length → m.source = setup.text) :
    checkSpan setup.text i m = .error (.invalidSpan m.start m.stop i) :=
  if_neg fun ⟨start, order, stop, sameLength⟩ =>
    others ⟨⟨start, order, stop⟩, noLookalike sameLength⟩

theorem refusesOthers (own : setup.HandsOverOwn pattern) : setup.RefusesOthers pattern := by
  intro origin reaches room index entry m reached free i handed
  have noLookalike : m.source.length = setup.text.length → m.source = setup.text :=
    own origin reaches (call setup room) i (Nat.min_le_right ..)
      (fun next step => call_belongs ((own.of_reaches reaches).of_calls step) room)
      _ m reached handed
  have answer := handed.answerOf_call free
  constructor
  case left =>
    intro belongs
    rw [answer, checkSpan_of_belongs belongs]
    rfl
  case right =>
    intro others
    rw [answer, checkSpan_of_not_belongs others noLookalike]
    rfl

end Calls

end Matching

namespace Graph

variable {graph : Graph} {pattern : PatternId} {input : Input} {index : Nat} {context : Context}

/-- Whatever functions from outside do, the value of a match has a character for each position that
the match spans. -/
theorem length_value_of_matchIn {m : Match}
    (found : (graph.matchIn pattern input index context).result = .ok (some m)) :
    m.value.length = m.stop - m.start := by
  have within := matchIn_within found
  have calls (room : Nat) := call_sameLength (context.setup graph input.text) room pattern
  have sameLength : m.source.length = input.text.length := matchIn_answers_of_calls calls found
  rw [Match.value, Text.length_slice, sameLength, Nat.min_eq_left within.stop]

/-- If no function from outside hands over a match of a lookalike, a match belongs to the input that
it was made on: its text is that of the input and its value is cut out of it, and so is what capture
nodes capture. A match from outside that does not belong to the input is an invalid span. -/
theorem matchIn_belongs (own : (context.setup graph input.text).HandsOverOwn pattern)
    (index : Nat) :
    (∀ m, (graph.matchIn pattern input index context).result = .ok (some m) →
      m.source = input.text ∧ m.value = input.text.slice m.start m.stop) ∧
    (context.setup graph input.text).CapturesSlices pattern ∧
    (context.setup graph input.text).RefusesOthers pattern := by
  refine ⟨fun m found => ?_, capturesSlices own, refusesOthers own⟩
  have belongs : m.BelongsTo input.text (min index input.text.length) :=
    matchIn_answers_of_calls (call_belongs own) found
  exact ⟨belongs.source, belongs.value⟩

/-- A letter that a function has matched and hands over is captured, and a transform takes the match
a character further. The other choice is a function that hands over a text of two letters. -/
def borrowing : Graph where
  slots := #[
    some { kind := .chars 1 },
    some { kind := .function (Script.callback { steps := [.run 0 0], verdict := .last }) },
    some { kind := .capture 1 },
    some { kind := .transform 2 (.shiftSpan 0 1) },
    some { kind := .function (Script.callback {
      steps := [], verdict := .spanOf (.ofString "xy") 0 2 [] }) },
    some { kind := .choice [3, 4] }]

theorem matchIn_belongs_borrowing :
    let input := Input.ofString "abc"
    let setup := Context.setup {} borrowing input.text
    setup.HandsOverOwn 5 ∧
      (∃ m, (borrowing.matchIn 5 input 0 {}).result = .ok (some m) ∧ m.source = input.text ∧
        m.value = input.text.slice 0 2 ∧ m.captures = [.text (input.text.slice 0 1)]) ∧
      answerOf (call setup 1 4 3 {}) = .error (.invalidSpan 0 2 3) := by
  intro input setup
  have own : setup.HandsOverOwn 5 := by
    intro origin _ call i inside calls state m reached handed sameLength
    match origin with
    | 0 | 2 | 5 => cases handed
    | 1 =>
        -- What it hands over is a match that it has been given.
        have letter := calls 0 (Or.inr ⟨_, setup.text, i, rfl, state.view, Or.inl rfl⟩)
        change HandsOver setup.text call i (.function _) state m reached at handed
        cases handed with
        | function ran =>
            simp only [Script.callback, Script.proceed, runProgram] at ran
            split at ran
            · next outcome between matched =>
                cases outcome with
                | none => cases ran
                | some inner =>
                    cases ran
                    exact (letter _ _ _ _ matched m rfl).source
            · cases ran
    | 3 =>
        have cut := calls 2 (Or.inl (Or.inl (by decide)))
        change HandsOver setup.text call i (.transform 2 (.shiftSpan 0 1)) state m reached at handed
        cases handed with
        | transform matched turned =>
            cases turned
            exact (cut.at inside _ _ _ matched _ rfl).source
    | 4 =>
        change HandsOver setup.text call i (.function _) state m reached at handed
        cases handed with
        | function ran =>
            -- No lookalike: its text is too short.
            cases ran
            exact absurd sameLength (by decide)
    | origin + 6 => cases handed
  obtain ⟨belongs, _, refuses⟩ := matchIn_belongs own 0
  let m : Match :=
    { source := input.text, start := 0, stop := 2, captures := [.text (input.text.slice 0 1)] }
  have ended : call setup 256 5 0 (Context.state {} input) = .ok (some m) _ :=
    eq_ok_of_value (by decide +kernel)
  have found : (borrowing.matchIn 5 input 0 {}).result = .ok (some m) := by
    rw [matchIn_eq]
    exact congrArg answerOf ended
  refine ⟨own, ⟨m, found, (belongs m found).1, (belongs m found).2, rfl⟩, ?_⟩
  have reached : borrowing.Reaches 5 4 := .single (Or.inl (Or.inl (by decide)))
  exact (refuses 4 reached 0 3 {} _ _ (by decide) (.function rfl)).2 fun others =>
    absurd (congrArg Text.length others.source) (by decide)

/-! ## Lookalikes -/

/-- A capture node around a function from outside that hands over the whole of another text. -/
def handing (other : Text) : Graph where
  slots := #[
    some { kind := .function (Script.callback {
      steps := [], verdict := .spanOf other 0 other.length [] }) },
    some { kind := .capture 0 }]

/-- Another text is taken for the input if it has the same length, and the capture is cut out of the
other text. -/
theorem matchIn_handing (other : Text) (input : Input) :
    ((handing other).matchIn 1 input 0 {}).result =
      if other.length = input.text.length then
        .ok (some (captureText (other.matchOver 0 other.length)))
      else
        .error (.invalidSpan 0 other.length 0) := by
  let setup := Context.setup {} (handing other) input.text
  let entry := started setup 1 0 (Context.state {} input)
  have handed : HandsOver input.text (call setup 254) 0 (setup.graph.kind 0)
      (started setup 0 0 entry) (other.matchOver 0 other.length) (started setup 0 0 entry) :=
    .function rfl
  have deeper : entry.depth < setup.limit := by
    rw [depth_started]
    exact (by decide : 1 < 256)
  have answer : answerOf (call setup 255 0 0 entry) =
      (checkSpan input.text 0 (other.matchOver 0 other.length)).map some :=
    handed.answerOf_call deeper
  have capture : answerOf (call setup 256 1 0 (Context.state {} input)) = _ :=
    answerOf_call_capture rfl answer (by decide : 0 < 256)
  rw [matchIn_eq]
  refine capture.trans ?_
  by_cases same : other.length = input.text.length
  case pos =>
    rw [checkSpan, if_pos ⟨Nat.le_refl 0, Nat.zero_le _, Nat.le_of_eq same, same⟩, if_pos same]
    rfl
  case neg =>
    rw [checkSpan, if_neg fun fits => same fits.2.2.2, if_neg same]
    rfl

/-- What is captured then need not occur in the input at all. -/
theorem matchIn_takes_lookalike :
    let input := Input.ofString "abc"
    ∃ m, ((handing (.ofString "xyz")).matchIn 1 input 0 {}).result = .ok (some m) ∧
      m.source ≠ input.text ∧ m.value ≠ input.text.slice m.start m.stop ∧
      m.captures = [.text "xyz"] ∧ ∀ start stop, input.text.slice start stop ≠ "xyz" := by
  intro input
  refine ⟨captureText ((Text.ofString "xyz").matchOver 0 3),
    matchIn_handing (.ofString "xyz") input, by decide, by decide, by decide, fun start stop => ?_⟩
  intro same
  have letters : input.text.span start stop = ['x', 'y', 'z'] := String.ofList_injective same
  have isLetter : 'x' ∈ ['a', 'b', 'c'] := by
    refine List.mem_of_mem_take (i := stop) (List.mem_of_mem_drop (i := start) ?_)
    rw [show ['a', 'b', 'c'] = input.text.chars.toList from rfl, ← Text.span_eq_take_drop, letters]
    exact List.mem_cons_self
  exact absurd isLetter (by decide)

end Graph

end PegEngine
