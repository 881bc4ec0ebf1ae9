import PegEngine.Proofs.Matching.Depth
import PegEngine.Proofs.Matching.Retention
import PegEngine.Proofs.Matching.Spans
import PegEngine.Proofs.Matching.TakingBack
import PegEngine.Proofs.Pattern.Recognition
import PegEngine.Proofs.Pattern.Splicing

/-!
Contract: flat sequences and choices match as the nested ones do.

A node of its own takes one more call, and takes back on its own account what its items did when
they do not match. Neither makes a difference as long as the limit is not reached. An inner choice
has nothing to take back, since each of its items has done so itself. An inner sequence has, but then
the outer one does not match either and takes back all of it. There the callbacks matter: what they
have committed, or restored from below their entry, may be there for the outer node and not for the
inner one.

Owns:
- `Matching.EndsFlat`, by which the ends of the nested match stand to those of the flat one;
- `matchSequence_endsFlat` and `matchChoice_endsFlat`, by induction on what is spliced in;
- `Grouping.flat_matches_as_nested`, for matches from the outside.
-/

namespace PegEngine

/-- No callback that the pattern comes to goes by the nesting: none looks at it, and all pass on that
a match of theirs has ended at the limit. -/
structure Graph.DepthFree (graph : Graph) (text : Text) (pattern : PatternId) : Prop where
  ignores : graph.IgnoresDepth text pattern
  passes : graph.PassesLimit text pattern

theorem Graph.DepthFree.of_calls {graph : Graph} {text : Text} {pattern next : PatternId}
    (free : graph.DepthFree text pattern) (step : graph.Calls pattern next) :
    graph.DepthFree text next :=
  ⟨free.ignores.of_calls step, free.passes.of_calls step⟩

theorem Graph.calls_of_plain {graph : Graph} {joint : Joint} {pattern part : PatternId}
    {items : List PatternId} (plain : graph.node pattern = { kind := joint.kind items })
    (member : part ∈ items) : graph.Calls pattern part := by
  have kind : graph.kind pattern = joint.kind items := congrArg Node.kind plain
  refine Or.inl (Or.inl ?_)
  rwa [kind, Joint.children_kind]

namespace MatchState.Deeper

variable {depth gap : Nat} {state other : MatchState}

/-- Reports are seen in the trace only, also if one side does without. -/
theorem reported (same : state.Deeper depth gap other) (setup : Setup) (pattern : PatternId) (i : Nat)
    (phase : Phase) : (state.report setup pattern i phase).Deeper depth gap other := by
  obtain ⟨trace, reported⟩ := Matching.report_eq setup pattern i phase state
  rw [reported]
  exact ⟨same.bindings, same.stackTable, same.options, same.level, same.deeper⟩

/-- A call of a plain node adds one to the gap. -/
theorem started (same : state.Deeper depth gap other) {setup : Setup} {pattern : PatternId}
    (plain : (setup.graph.node pattern).trace = none) (i : Nat) :
    (Matching.started setup pattern i state).Deeper depth (gap + 1) other := by
  have entered : (state.enter (setup.graph.node pattern)).Deeper depth (gap + 1) other := by
    refine ⟨same.bindings, same.stackTable, ?_, same.level, ?_⟩
    · simp [MatchState.enter, plain, same.options]
    · simp only [MatchState.enter, same.deeper]
      omega
  exact entered.reported setup pattern i .before

/-- When the call ends, the gap is as it was. -/
theorem left (same : state.Deeper depth (gap + 1) other) {node : Node} (plain : node.trace = none)
    (entry : MatchState) (under : 0 < depth) :
    (entry.leave node state).settle.Deeper depth gap other := by
  have left : (entry.leave node state).Deeper depth gap other := by
    refine ⟨same.bindings, same.stackTable, ?_, same.level, ?_⟩
    · simp [MatchState.leave, plain, same.options]
    · simp only [MatchState.leave, same.deeper]
      omega
  rwa [MatchState.settle_of_pos (by rw [left.deeper]; omega)]

end MatchState.Deeper

namespace Matching

/-! ## Nested and flat ends -/

/-- The nested match has ended at the limit, or as the flat one has. The states are the same apart
from the gap in the nesting if there is a match, and without one if they `always` are. -/
inductive EndsFlat (always : Prop) (depth gap : Nat) :
    EStateM.Result MatchError MatchState (Option Match) →
    EStateM.Result MatchError MatchState (Option Match) → Prop where
  | found {m : Match} {state other : MatchState} (same : state.Deeper depth gap other) :
      EndsFlat always depth gap (.ok (some m) state) (.ok (some m) other)
  | missed {state other : MatchState} (same : always → state.Deeper depth gap other) :
      EndsFlat always depth gap (.ok none state) (.ok none other)
  | failed {error : MatchError} {state other : MatchState}
      (same : always → state.Deeper depth gap other) :
      EndsFlat always depth gap (.error error state) (.error error other)
  | limit {ended other : EStateM.Result MatchError MatchState (Option Match)}
      (limited : atLimit (answerOf ended)) : EndsFlat always depth gap ended other

namespace EndsFlat

variable {always : Prop} {depth gap : Nat}
  {ended flatEnded : EStateM.Result MatchError MatchState (Option Match)}

theorem of_endsDeeper (ends : EndsDeeper depth gap ended flatEnded) :
    EndsFlat always depth gap ended flatEnded := by
  cases ends with
  | @ok outcome state other same =>
      cases outcome with
      | none => exact .missed fun _ => same
      | some m => exact .found same
  | error same => exact .failed fun _ => same
  | limit _ limited => exact .limit limited

theorem missed_of {other : MatchState} (answer : answerOf ended = .ok none)
    (same : always → (stateOf ended).Deeper depth gap other) :
    EndsFlat always depth gap ended (.ok none other) := by
  cases ended with
  | ok outcome state =>
      cases answer
      exact .missed same
  | error error state => cases answer

theorem failed_of {error : MatchError} {other : MatchState} (answer : answerOf ended = .error error)
    (same : always → (stateOf ended).Deeper depth gap other) :
    EndsFlat always depth gap ended (.error error other) := by
  cases ended with
  | ok outcome state => cases answer
  | error error state =>
      cases answer
      exact .failed same

theorem answer (ends : EndsFlat always depth gap ended flatEnded)
    (below : ¬ atLimit (answerOf ended)) : answerOf flatEnded = answerOf ended := by
  cases ends with
  | found | missed | failed => rfl
  | limit limited => exact absurd limited below

/-- Where states always are the same, ends that are not at the limit are the same but for the gap. -/
theorem endsDeeper (ends : EndsFlat always depth gap ended flatEnded)
    (below : ¬ atLimit (answerOf ended))
    (either : always ∨ ∃ m, answerOf ended = .ok (some m)) :
    EndsDeeper depth gap ended flatEnded := by
  cases ends with
  | found same => exact .ok same
  | missed same =>
      rcases either with holds | ⟨m, found⟩
      · exact .ok (same holds)
      · cases found
  | failed same =>
      rcases either with holds | ⟨m, found⟩
      · exact .error (same holds)
      · cases found
  | limit limited => exact absurd limited below

variable {action flatAction : MatchM (Option Match)} {state other : MatchState}

/-- What comes after a match, as in a sequence. -/
theorem andThen (ends : EndsFlat always depth gap (action state) (flatAction other))
    (never : ¬ always) {next flatNext : Match → MatchM (Option Match)}
    (rest : ∀ m reached flatReached, action state = .ok (some m) reached →
      reached.Deeper depth gap flatReached →
        EndsFlat always depth gap (next m reached) (flatNext m flatReached)) :
    EndsFlat always depth gap
      ((do match ← action with | none => pure none | some m => next m) state)
      ((do match ← flatAction with | none => pure none | some m => flatNext m) other) := by
  rw [bind_apply, bind_apply]
  generalize ended : action state = result at ends
  generalize flatAction other = flatResult at ends
  cases ends with
  | found same => exact rest _ _ _ ended same
  | missed => exact .missed fun holds => absurd holds never
  | failed => exact .failed fun holds => absurd holds never
  | limit limited =>
      cases result with
      | ok outcome reached => cases limited
      | error error reached => exact .limit limited

/-- What comes after no match, as in a choice. -/
theorem orElse (ends : EndsFlat always depth gap (action state) (flatAction other))
    (holds : always) {next flatNext : MatchM (Option Match)}
    (rest : ∀ reached flatReached, reached.Deeper depth gap flatReached →
      EndsFlat always depth gap (next reached) (flatNext flatReached)) :
    EndsFlat always depth gap
      ((do match ← action with | some m => pure (some m) | none => next) state)
      ((do match ← flatAction with | some m => pure (some m) | none => flatNext) other) := by
  rw [bind_apply, bind_apply]
  generalize action state = result at ends
  generalize flatAction other = flatResult at ends
  cases ends with
  | found same => exact .found same
  | missed same => exact rest _ _ (same holds)
  | failed same => exact .failed same
  | limit limited =>
      cases result with
      | ok outcome reached => cases limited
      | error error reached => exact .limit limited

end EndsFlat

section Calls

variable {setup : Setup} {joint : Joint} {item : PatternId} {inner : List PatternId} {i room : Nat}

/-- A call of a plain node that the limit leaves room for. -/
theorem call_plain (plain : setup.graph.node item = { kind := joint.kind inner }) (index : Nat)
    {entry : MatchState} (shallow : ¬ setup.limit ≤ entry.depth) :
    call setup (room + 1) item index entry =
      let i := min index setup.text.length
      guarded setup item i (matchKind setup (call setup room) i (joint.kind inner)) entry := by
  have kind : setup.graph.kind item = joint.kind inner := congrArg Node.kind plain
  simp only [call, if_neg shallow, kind]

/-- An error at the limit ends the calls around it, too. -/
theorem atLimit_guarded {body : MatchM (Option Match)} {entry : MatchState}
    (limited : atLimit (answerOf (body (started setup item i entry)))) :
    atLimit (answerOf (guarded setup item i body entry)) := by
  cases ended : body (started setup item i entry) with
  | ok outcome reached =>
      rw [ended] at limited
      cases limited
  | error error reached =>
      rw [ended] at limited
      rw [guarded_of_failed ended]
      exact (error.isLimit_inPattern _).trans limited

/-- A plain node ends as its body does where its answer is that of its body and where it has nothing
to take back that matters. -/
theorem guarded_endsFlat {always : Prop} {depth gap : Nat}
    (plain : setup.graph.node item = { kind := joint.kind inner }) (under : 0 < depth)
    {body : MatchM (Option Match)} {entry : MatchState}
    {flatEnded : EStateM.Result MatchError MatchState (Option Match)}
    (ends : EndsFlat always depth (gap + 1) (body (started setup item i entry)) flatEnded)
    (answers : answerOf (guarded setup item i body entry) =
      (answerOf (body (started setup item i entry))).mapError
        (·.inPattern (setup.graph.name? item)))
    (takesBack : always → TakesBack entry (body (started setup item i entry))) :
    EndsFlat always depth gap (guarded setup item i body entry) flatEnded := by
  have trace : (setup.graph.node item).trace = none := by rw [plain]
  have plainName : setup.graph.name? item = none := by simp [Graph.name?, plain]
  generalize ended : body (started setup item i entry) = bodyEnded at ends answers takesBack
  cases ends with
  | found same =>
      rw [guarded_of_found ended]
      exact .found ((same.reported ..).left trace entry under)
  | missed same =>
      refine .missed_of answers fun holds => ?_
      cases takesBack holds with
      | missed bindings journal =>
          rw [guarded_of_missed ended bindings journal]
          exact ((same holds).reported ..).left trace entry under
  | @failed error _ _ same =>
      have raised := guarded_of_failed ended
      rw [plainName, error.inPattern_none] at raised
      refine .failed_of raised fun holds => ?_
      cases takesBack holds with
      | failed bindings journal =>
          rw [state_guarded_of_failed ended bindings journal]
          exact (same holds).left trace entry under
  | limit limited =>
      rw [← ended] at limited
      exact .limit (atLimit_guarded limited)

end Calls

/-! ## Sequences -/

/-- The end of a sequence that goes on after the first part of its items. -/
theorem matchSequence_append (call : Caller) (first second : List PatternId) (soFar : Match) :
    matchSequence call (first ++ second) soFar = (do
      match ← matchSequence call first soFar with
      | none => pure none
      | some m => matchSequence call second m) := by
  induction first generalizing soFar with
  | nil => simp [matchSequence]
  | cons item rest inductionHypothesis =>
      simp only [List.cons_append, matchSequence, bind_assoc]
      congr 1
      funext outcome
      cases outcome with
      | none => simp
      | some m => exact inductionHypothesis (soFar.append m)

/-- A sequence that goes on from a match is the match and the sequence by itself. -/
theorem matchSequence_from (call : Caller) (items : List PatternId) (first soFar : Match) :
    matchSequence call items (first.append soFar) =
      do return (← matchSequence call items soFar).map first.append := by
  induction items generalizing soFar with
  | nil => simp [matchSequence]
  | cons item rest inductionHypothesis =>
      have sameStop : (first.append soFar).stop = soFar.stop := rfl
      simp only [matchSequence, sameStop, bind_assoc]
      congr 1
      funext outcome
      cases outcome with
      | none => simp
      | some m => simpa only [Match.append_append] using inductionHypothesis (soFar.append m)

/-- Items that are spliced in match as a sequence by itself. -/
theorem matchSequence_splice (call : Caller) (text : Text) (inner rest : List PatternId)
    (soFar : Match) :
    matchSequence call (inner ++ rest) soFar = (do
      match ← matchSequence call inner (text.matchOver soFar.stop soFar.stop) with
      | none => pure none
      | some m => matchSequence call rest (soFar.append m)) := by
  have alone := matchSequence_from call inner soFar (text.matchOver soFar.stop soFar.stop)
  rw [Match.append_nothing] at alone
  rw [matchSequence_append, alone]
  simp only [bind_assoc, pure_bind]
  congr 1
  funext outcome
  cases outcome <;> rfl

section Splicing

variable {setup : Setup} {items flat : List PatternId} {room depth gap i : Nat} {always : Prop}
  {state other : MatchState}

theorem stop_le_of_call {item : PatternId} {m : Match} {reached : MatchState}
    (found : call setup room item i state = .ok (some m) reached) (inside : i ≤ setup.text.length) :
    m.stop ≤ setup.text.length := by
  have within : m.Within setup.text i :=
    (call_within setup room item).at inside state (some m) reached found m rfl
  exact within.stop

/-- An item that is left as it is ends the same on both sides. -/
theorem call_endsFlat {item : PatternId} (free : setup.graph.DepthFree setup.text item)
    (under : 0 < depth) (i : Nat) (same : state.Deeper depth gap other) :
    EndsFlat always depth gap (call setup room item i state)
      (call setup (room + gap) item i other) :=
  .of_endsDeeper (call_sameDeeper room (.refl setup.graph item) (fun _ => free.ignores)
    (fun _ => free.passes) (Or.inr under) i state other same)

/-- A plain node keeps bindings if the callbacks below it do. -/
theorem guarded_retained_of_plain {joint : Joint} {item : PatternId} {inner : List PatternId}
    (keeps : setup.KeepsBindings item) (plain : setup.graph.node item = { kind := joint.kind inner })
    (inside : i ≤ setup.text.length) (roomLeft : setup.limit - (state.depth + 1) = room) :
    let body := matchKind setup (call setup room) i (joint.kind inner)
    GuardedRetained setup item state (body (started setup item i state))
      (guarded setup item i body state) := by
  have kind : setup.graph.kind item = joint.kind inner := congrArg Node.kind plain
  have retains := matchKind_retains inside keeps roomLeft fun next step index =>
    call_retains (keeps.of_calls step) roomLeft index
  rw [kind] at retains
  exact guarded_retained retains

/-- An item that was spliced in ends as its body does. -/
theorem call_endsFlat_of_plain {joint : Joint} {item : PatternId} {inner : List PatternId}
    (plain : setup.graph.node item = { kind := joint.kind inner }) (under : 0 < depth)
    (roomLeft : setup.limit - (depth + gap) = room) (inside : i ≤ setup.text.length)
    (same : state.Deeper depth gap other) (flatAction : Nat → MatchM (Option Match))
    (ends : ∀ fewer, setup.limit - (depth + (gap + 1)) = fewer →
      EndsFlat always depth (gap + 1)
        (matchKind setup (call setup fewer) i (joint.kind inner) (started setup item i state))
        (flatAction (fewer + (gap + 1)) other))
    (answers : ∀ fewer, setup.limit - (depth + (gap + 1)) = fewer →
      let body := matchKind setup (call setup fewer) i (joint.kind inner)
      answerOf (guarded setup item i body state) =
        (answerOf (body (started setup item i state))).mapError
          (·.inPattern (setup.graph.name? item)))
    (takesBack : always → ∀ fewer, TakesBack state
      (matchKind setup (call setup fewer) i (joint.kind inner) (started setup item i state))) :
    EndsFlat always depth gap (call setup room item i state) (flatAction (room + gap) other) := by
  cases room with
  | zero => exact .limit rfl
  | succ fewer =>
      have shallow : ¬ setup.limit ≤ state.depth := by
        rw [same.deeper]
        omega
      have roomInside : setup.limit - (depth + (gap + 1)) = fewer := by omega
      have sameRoom : fewer + 1 + gap = fewer + (gap + 1) := by omega
      rw [call_plain plain i shallow, Nat.min_eq_left inside, sameRoom]
      exact guarded_endsFlat plain under (ends fewer roomInside) (answers fewer roomInside)
        fun holds => takesBack holds fewer

/-- A sequence matches as the one that its plain items are spliced into. -/
theorem matchSequence_endsFlat (spliced : setup.graph.Spliced .sequence items flat)
    (never : ¬ always) (free : ∀ item ∈ items, setup.graph.DepthFree setup.text item)
    (keeps : ∀ item ∈ items, setup.KeepsBindings item) (under : 0 < depth)
    (roomLeft : setup.limit - (depth + gap) = room) {soFar : Match}
    (inside : soFar.stop ≤ setup.text.length) (same : state.Deeper depth gap other) :
    EndsFlat always depth gap (matchSequence (call setup room) items soFar state)
      (matchSequence (call setup (room + gap)) flat soFar other) := by
  induction spliced generalizing room gap soFar state other with
  | nil => exact .found same
  | @keep items flat item _ inductionHypothesis =>
      have first : EndsFlat always depth gap (call setup room item soFar.stop state)
          (call setup (room + gap) item soFar.stop other) :=
        call_endsFlat (free item List.mem_cons_self) under soFar.stop same
      refine first.andThen never fun m reached flatReached found same => ?_
      have within := stop_le_of_call found inside
      exact inductionHypothesis (fun next member => free next (List.mem_cons_of_mem item member))
        (fun next member => keeps next (List.mem_cons_of_mem item member)) roomLeft within same
  | @opened item inner innerFlat items flat plain _ _ innerHypothesis restHypothesis =>
      have calls : ∀ part ∈ inner, setup.graph.Calls item part :=
        fun _ => Graph.calls_of_plain plain
      have first : EndsFlat always depth gap (call setup room item soFar.stop state)
          (matchSequence (call setup (room + gap)) innerFlat
            (setup.text.matchOver soFar.stop soFar.stop) other) := by
        refine call_endsFlat_of_plain plain under roomLeft inside same
          (fun room => matchSequence (call setup room) innerFlat
            (setup.text.matchOver soFar.stop soFar.stop)) (fun fewer roomInside => ?_)
          (fun fewer roomInside => ?_) fun holds => absurd holds never
        · exact innerHypothesis
            (fun part member => (free item List.mem_cons_self).of_calls (calls part member))
            (fun part member => (keeps item List.mem_cons_self).of_calls (calls part member))
            roomInside inside (same.started (by rw [plain]) soFar.stop)
        · exact (guarded_retained_of_plain (keeps item List.mem_cons_self) plain inside
            (by rw [same.deeper]; omega)).answer
      rw [matchSequence_splice _ setup.text]
      refine first.andThen never fun m reached flatReached found same => ?_
      have within := stop_le_of_call found inside
      exact restHypothesis (fun next member => free next (List.mem_cons_of_mem item member))
        (fun next member => keeps next (List.mem_cons_of_mem item member)) roomLeft within same

theorem matchChoice_append (call : Caller) (i : Nat) (first second : List PatternId) :
    matchChoice call i (first ++ second) = (do
      match ← matchChoice call i first with
      | some m => pure (some m)
      | none => matchChoice call i second) := by
  induction first with
  | nil => simp [matchChoice]
  | cons item rest inductionHypothesis =>
      simp only [List.cons_append, matchChoice, bind_assoc]
      congr 1
      funext outcome
      cases outcome with
      | none => exact inductionHypothesis
      | some m => simp

/-- A choice matches as the one that its plain items are spliced into, and always leaves the same. -/
theorem matchChoice_endsFlat (spliced : setup.graph.Spliced .choice items flat) (holds : always)
    (free : ∀ item ∈ items, setup.graph.DepthFree setup.text item) (under : 0 < depth)
    (roomLeft : setup.limit - (depth + gap) = room) (inside : i ≤ setup.text.length)
    (same : state.Deeper depth gap other) :
    EndsFlat always depth gap (matchChoice (call setup room) i items state)
      (matchChoice (call setup (room + gap)) i flat other) := by
  induction spliced generalizing room gap state other with
  | nil => exact .missed fun _ => same
  | @keep items flat item _ inductionHypothesis =>
      have first : EndsFlat always depth gap (call setup room item i state)
          (call setup (room + gap) item i other) :=
        call_endsFlat (free item List.mem_cons_self) under i same
      refine first.orElse holds fun reached flatReached same => ?_
      exact inductionHypothesis (fun next member => free next (List.mem_cons_of_mem item member))
        roomLeft same
  | @opened item inner innerFlat items flat plain _ _ innerHypothesis restHypothesis =>
      have calls : ∀ part ∈ inner, setup.graph.Calls item part :=
        fun _ => Graph.calls_of_plain plain
      have takesBack : ∀ fewer, TakesBack state
          (matchChoice (call setup fewer) i inner (started setup item i state)) := fun fewer =>
        .of_started (matchChoice_takesBack (fun item => call_takesBack setup fewer item i) _)
      have first : EndsFlat always depth gap (call setup room item i state)
          (matchChoice (call setup (room + gap)) i innerFlat other) := by
        refine call_endsFlat_of_plain plain under roomLeft inside same
          (fun room => matchChoice (call setup room) i innerFlat)
          (fun fewer roomInside => ?_) (fun fewer roomInside => ?_) fun _ => takesBack
        · exact innerHypothesis
            (fun part member => (free item List.mem_cons_self).of_calls (calls part member))
            roomInside (same.started (by rw [plain]) i)
        · exact answer_guarded_of_takesBack (takesBack fewer)
      rw [matchChoice_append]
      refine first.orElse holds fun reached flatReached same => ?_
      exact restHypothesis (fun next member => free next (List.mem_cons_of_mem item member))
        roomLeft same

theorem matchKind_endsFlat {joint : Joint} (spliced : setup.graph.Spliced joint items flat)
    (free : ∀ item ∈ items, setup.graph.DepthFree setup.text item)
    (keeps : joint = .sequence → ∀ item ∈ items, setup.KeepsBindings item) (under : 0 < depth)
    (roomLeft : setup.limit - (depth + gap) = room) (inside : i ≤ setup.text.length)
    (same : state.Deeper depth gap other) :
    EndsFlat (joint = .choice) depth gap
      (matchKind setup (call setup room) i (joint.kind items) state)
      (matchKind setup (call setup (room + gap)) i (joint.kind flat) other) := by
  cases joint with
  | sequence =>
      exact matchSequence_endsFlat spliced (fun same => nomatch same) free (keeps rfl) under roomLeft
        inside same
  | choice => exact matchChoice_endsFlat spliced rfl free under roomLeft inside same

end Splicing

/-! ## Calls of both -/

/-- The call of the flat node ends as that of the nested one. It leaves the same if there is a match,
and in any case if the nodes are choices. Without a match the bindings are the same. -/
structure Flattened (joint : Joint) (depth : Nat)
    (ended flatEnded : EStateM.Result MatchError MatchState (Option Match)) : Prop where
  answer : answerOf flatEnded = answerOf ended
  bindings : (stateOf flatEnded).bindings = (stateOf ended).bindings
  same (either : joint = .choice ∨ ∃ m, answerOf ended = .ok (some m)) :
    EndsDeeper depth 0 ended flatEnded

theorem Flattened.of_endsDeeper {joint : Joint} {depth : Nat}
    {ended flatEnded : EStateM.Result MatchError MatchState (Option Match)}
    (ends : EndsDeeper depth 0 ended flatEnded) : Flattened joint depth ended flatEnded := by
  have all := ends
  cases ends with
  | ok same | error same => exact ⟨rfl, same.bindings.symm, fun _ => all⟩
  | limit positive => exact absurd positive (Nat.lt_irrefl 0)

section Nodes

variable (setup : Setup) {joint : Joint} {nested flat : PatternId} {items flatItems : List PatternId}
  (nestedNode : setup.graph.node nested = { kind := joint.kind items })
  (flatNode : setup.graph.node flat = { kind := joint.kind flatItems })

include nestedNode flatNode

/-- Two plain nodes end the same if their bodies do so far. Sequences that do not match need not have
left the same, but they take it back if the callbacks keep bindings. -/
theorem guarded_flattened {i : Nat} {body flatBody : MatchM (Option Match)} {entry : MatchState}
    (ends : EndsFlat (joint = .choice) (entry.depth + 1) 0 (body (started setup nested i entry))
      (flatBody (started setup flat i entry)))
    (below : ¬ atLimit (answerOf (guarded setup nested i body entry)))
    (retained : joint = .sequence →
      GuardedRetained setup nested entry (body (started setup nested i entry))
          (guarded setup nested i body entry) ∧
        GuardedRetained setup flat entry (flatBody (started setup flat i entry))
          (guarded setup flat i flatBody entry)) :
    Flattened joint entry.depth (guarded setup nested i body entry)
      (guarded setup flat i flatBody entry) := by
  have sameName : setup.graph.name? flat = setup.graph.name? nested := by
    simp [Graph.name?, nestedNode, flatNode]
  have sameTrace : (setup.graph.node flat).trace = (setup.graph.node nested).trace := by
    rw [nestedNode, flatNode]
  have belowBody : ¬ atLimit (answerOf (body (started setup nested i entry))) :=
    fun limited => below (atLimit_guarded limited)
  by_cases either : joint = .choice ∨ ∃ m, answerOf (body (started setup nested i entry)) =
    .ok (some m)
  · exact .of_endsDeeper (guarded_endsDeeper sameName sameTrace (Or.inl rfl)
      ⟨rfl, rfl, rfl, rfl, rfl⟩ (ends.endsDeeper belowBody either))
  · have sequence : joint = .sequence := by
      cases joint with
      | sequence => rfl
      | choice => exact absurd (Or.inl rfl) either
    obtain ⟨nestedRetained, flatRetained⟩ := retained sequence
    have answer := flatRetained.answer
    rw [ends.answer belowBody, sameName, ← nestedRetained.answer] at answer
    have noMatch : ∀ m, answerOf (guarded setup nested i body entry) ≠ .ok (some m) :=
      fun m found => either (Or.inr ⟨m, nestedRetained.found found⟩)
    refine ⟨answer, ?_, fun either => ?_⟩
    · rw [nestedRetained.bindings noMatch]
      exact flatRetained.bindings fun m found => noMatch m (answer.symm.trans found)
    · rcases either with choice | ⟨m, found⟩
      · cases sequence.symm.trans choice
      · exact absurd found (noMatch m)

theorem call_flattened (spliced : setup.graph.Spliced joint items flatItems)
    (free : setup.graph.DepthFree setup.text nested)
    (keeps : joint = .sequence → setup.KeepsBindings nested ∧ setup.KeepsBindings flat) {room : Nat}
    {index : Nat} (entry : MatchState) (roomLeft : setup.limit - entry.depth = room)
    (below : ¬ atLimit (answerOf (call setup room nested index entry))) :
    Flattened joint entry.depth (call setup room nested index entry)
      (call setup room flat index entry) := by
  cases room with
  | zero => exact absurd rfl below
  | succ room =>
      have shallow : ¬ setup.limit ≤ entry.depth := by omega
      have roomInside : setup.limit - (entry.depth + 1) = room := by omega
      have inside := Nat.min_le_right index setup.text.length
      rw [call_plain nestedNode index shallow] at below ⊢
      rw [call_plain flatNode index shallow]
      dsimp only at below ⊢
      generalize min index setup.text.length = i at below inside ⊢
      have sameTrace : (setup.graph.node flat).trace = (setup.graph.node nested).trace := by
        rw [nestedNode, flatNode]
      have entries : entry.Deeper entry.depth 0 entry := ⟨rfl, rfl, rfl, rfl, rfl⟩
      have calls : ∀ item ∈ items, setup.graph.Calls nested item :=
        fun _ => Graph.calls_of_plain nestedNode
      refine guarded_flattened setup nestedNode flatNode ?_ below fun sequence => ?_
      · exact matchKind_endsFlat spliced (fun item member => free.of_calls (calls item member))
          (fun sequence item member => (keeps sequence).1.of_calls (calls item member))
          (Nat.succ_pos entry.depth) roomInside inside
          ((entries.enter sameTrace).report setup setup nested flat i .before)
      · obtain ⟨keepsNested, keepsFlat⟩ := keeps sequence
        exact ⟨guarded_retained_of_plain keepsNested nestedNode inside roomInside,
          guarded_retained_of_plain keepsFlat flatNode inside roomInside⟩

end Nodes

end Matching

/-! ## Matches from the outside -/

namespace Graph

variable {graph : Graph} {joint : Joint} {nested flat : PatternId} {items flatItems : List PatternId}

/-- What is spliced in is part of the items. -/
theorem Spliced.reaches (spliced : graph.Spliced joint items flatItems) {part : PatternId}
    (member : part ∈ flatItems) : ∃ item ∈ items, graph.Reaches item part := by
  induction spliced with
  | nil => cases member
  | keep item _ inductionHypothesis =>
      rcases List.mem_cons.mp member with rfl | among
      · exact ⟨part, List.mem_cons_self, .refl⟩
      · obtain ⟨next, nextMember, reaches⟩ := inductionHypothesis among
        exact ⟨next, List.mem_cons_of_mem item nextMember, reaches⟩
  | @opened item inner _ _ _ plain _ _ innerHypothesis restHypothesis =>
      rcases List.mem_append.mp member with among | among
      · obtain ⟨next, nextMember, reaches⟩ := innerHypothesis among
        exact ⟨item, List.mem_cons_self, .of_calls (calls_of_plain plain nextMember) reaches⟩
      · obtain ⟨next, nextMember, reaches⟩ := restHypothesis among
        exact ⟨next, List.mem_cons_of_mem item nextMember, reaches⟩

/-- The callbacks below the flat node are below the nested one. -/
theorem reaches_function_of_spliced
    (nestedNode : graph.node nested = { kind := joint.kind items })
    (flatNode : graph.node flat = { kind := joint.kind flatItems })
    (spliced : graph.Spliced joint items flatItems) {origin : PatternId} {callback : Callback}
    (reaches : graph.Reaches flat origin) (function : graph.kind origin = .function callback) :
    graph.Reaches nested origin := by
  have flatKind : graph.kind flat = joint.kind flatItems := congrArg Node.kind flatNode
  rcases Relation.ReflTransGen.cases_head reaches with rfl | ⟨part, step, rest⟩
  · rw [flatKind] at function
    cases joint <;> cases function
  · have member : part ∈ flatItems := by
      rcases step with (child | ⟨name, cell, reference, _⟩) | ⟨other, _, _, found, _⟩
      · rwa [flatKind, Joint.children_kind] at child
      · rw [flatKind] at reference
        cases joint <;> cases reference
      · rw [flatKind] at found
        cases joint <;> cases found
    obtain ⟨item, itemMember, further⟩ := spliced.reaches member
    exact .of_calls (calls_of_plain nestedNode itemMember) (further.trans rest)

end Graph

/-- What two matches that are not found leave is the same if both leave what there was. -/
theorem MatchRun.Isolates.endsLike {run other : MatchRun} {input : Input} {context : Context}
    (isolates : run.Isolates input context) (otherIsolates : other.Isolates input context)
    (result : run.result = other.result) (noMatch : ∀ m, other.result ≠ .ok (some m))
    (room : 0 < context.config.limit) : run.EndsLike other := by
  have runNoMatch : ∀ m, run.result ≠ .ok (some m) := fun m => result ▸ noMatch m
  have bindings := (isolates.bindings runNoMatch).trans (otherIsolates.bindings noMatch).symm
  have text := isolates.text.trans otherIsolates.text.symm
  have journal : run.context.stackTable.journal = other.context.stackTable.journal := by
    rcases Nat.eq_zero_or_pos context.depth with outermost | nested
    · exact (isolates.settled outermost room).trans (otherIsolates.settled outermost room).symm
    · exact (isolates.journal runNoMatch nested).trans (otherIsolates.journal noMatch nested).symm
  constructor
  · exact result
  · generalize run.input = left, other.input = otherLeft at bindings text
    cases left
    cases otherLeft
    cases bindings
    cases text
    rfl
  · exact isolates.config.trans otherIsolates.config.symm
  · exact isolates.depth.trans otherIsolates.depth.symm
  · refine ⟨fun stack => ?_, journal⟩
    exact (isolates.entries runNoMatch stack).trans (otherIsolates.entries noMatch stack).symm

/-- How the flat match ends, given how the nested one does. Without a match a sequence may have left
other entries on the stacks if the callbacks are not lawful. -/
structure MatchRun.FlatOf (joint : Joint) (lawful : Prop) (flatRun run : MatchRun) : Prop where
  result : flatRun.result = run.result
  input : flatRun.input = run.input
  same (either : joint = .choice ∨ ∃ m, run.result = .ok (some m)) : flatRun.EndsAs run
  alike (holds : lawful) : flatRun.EndsLike run

namespace Grouping

section Both

variable (joint : Joint) (grouping : Grouping) (graph : Graph)

/-- The graph in which the nested pattern was built, and the flat one after it. -/
def together : Graph :=
  (grouping.flat joint (grouping.nested joint graph).2).2

def nestedRun (input : Input) (index : Nat) (context : Context) : MatchRun :=
  (grouping.together joint graph).matchIn (grouping.nested joint graph).1 input index context

def flatRun (input : Input) (index : Nat) (context : Context) : MatchRun :=
  (grouping.together joint graph).matchIn (grouping.flat joint (grouping.nested joint graph).2).1
    input index context

end Both

variable {joint : Joint} {grouping : Grouping} {graph : Graph}

theorem flatRun_of_nestedRun
    (inside : ∀ pattern ∈ grouping.patterns, pattern < graph.slots.size) (input : Input)
    (index : Nat) (context : Context)
    (free : (grouping.together joint graph).DepthFree input.text (grouping.nested joint graph).1)
    (keeps : joint = .sequence → (context.setup (grouping.together joint graph)
      input.text).KeepsBindings (grouping.nested joint graph).1)
    (below : ¬ atLimit (grouping.nestedRun joint graph input index context).result) :
    (grouping.flatRun joint graph input index context).FlatOf joint
      ((grouping.together joint graph).Lawful input.text (grouping.nested joint graph).1)
      (grouping.nestedRun joint graph input index context) := by
  let run := grouping.nestedRun joint graph input index context
  let flatRun := grouping.flatRun joint graph input index context
  let nested := (grouping.nested joint graph).1
  let flat := (grouping.flat joint (grouping.nested joint graph).2).1
  obtain ⟨items, flatItems, nestedNode, flatNode, spliced⟩ :=
    grouping.nested_spliced_flat joint graph inside
  let setup := context.setup (grouping.together joint graph) input.text
  let ended := Matching.call setup (context.config.limit - context.depth) nested index
    (context.state input)
  let flatEnded := Matching.call setup (context.config.limit - context.depth) flat index
    (context.state input)
  have same : run = .ofState (Matching.answerOf ended) input context (Matching.stateOf ended) :=
    Graph.matchIn_eq _ nested input index context
  have sameFlat : flatRun =
      .ofState (Matching.answerOf flatEnded) input context (Matching.stateOf flatEnded) :=
    Graph.matchIn_eq _ flat input index context
  have belowEnded : ¬ atLimit (Matching.answerOf ended) := by
    change ¬ atLimit run.result at below
    rw [same] at below
    exact below
  have functions {origin : PatternId} {callback : Callback}
      (reaches : setup.graph.Reaches flat origin)
      (function : setup.graph.kind origin = .function callback) :
      setup.graph.Reaches nested origin :=
    Graph.reaches_function_of_spliced nestedNode flatNode spliced reaches function
  have keepsBoth (sequence : joint = .sequence) :
      setup.KeepsBindings nested ∧ setup.KeepsBindings flat :=
    ⟨keeps sequence, fun origin callback reaches function =>
      keeps sequence origin callback (functions reaches function) function⟩
  have ends : Matching.Flattened joint context.depth ended flatEnded :=
    Matching.call_flattened setup nestedNode flatNode spliced free keepsBoth (context.state input)
      rfl belowEnded
  have result : flatRun.result = run.result := by
    rw [same, sameFlat]
    exact ends.answer
  have endsAs (either : joint = .choice ∨ ∃ m, run.result = .ok (some m)) : flatRun.EndsAs run := by
    rw [same] at either ⊢
    rw [sameFlat]
    exact (MatchRun.endsAs_of_endsDeeper input context (ends.same either)).symm
  refine ⟨result, ?_, endsAs, fun lawful => ?_⟩
  · change flatRun.input = run.input
    rw [same, sameFlat]
    exact congrArg (fun bindings => { input with bindings }) ends.bindings
  · by_cases either : joint = .choice ∨ ∃ m, run.result = .ok (some m)
    · exact (endsAs either).endsLike
    · have room : 0 < context.config.limit := by
        refine Nat.pos_of_ne_zero fun noLimit => belowEnded ?_
        have noRoom : context.config.limit - context.depth = 0 := by omega
        simp only [ended, noRoom]
        rfl
      have lawfulFlat : setup.graph.Lawful input.text flat := fun origin callback reaches function =>
        lawful origin callback (functions reaches function) function
      exact (Graph.matchIn_isolated lawfulFlat index context).1.endsLike
        (Graph.matchIn_isolated lawful index context).1 result
        (fun m found => either (Or.inr ⟨m, found⟩)) room

/-- Graphs are built flat, and it makes no difference to a match that is not at the limit, given that
callbacks do not go by the nesting and, in sequences, do not cut the bindings from before them. What
is left without a match is the same for choices, and for sequences up to the stacks, which are the
same if the callbacks are lawful. -/
theorem flat_matches_as_nested :
    (∀ graph : Graph, graph.Composed → graph.Flat) ∧
    ∀ (joint : Joint) (grouping : Grouping) (graph : Graph),
      (∀ pattern ∈ grouping.patterns, pattern < graph.slots.size) →
      ∀ (input : Input) (index : Nat) (context : Context),
        let both := grouping.together joint graph
        let nested := (grouping.nested joint graph).1
        let run := grouping.nestedRun joint graph input index context
        both.DepthFree input.text nested →
        (joint = .sequence → (context.setup both input.text).KeepsBindings nested) →
        ¬ atLimit run.result →
          (grouping.flatRun joint graph input index context).FlatOf joint
            (both.Lawful input.text nested) run :=
  ⟨fun _ composed => composed.flat, fun _ _ _ inside input index context free keeps below =>
    flatRun_of_nestedRun inside input index context free keeps below⟩

/-- A letter that is bound, a callback that matches the letter after it has pushed a value, and
another letter. -/
def pushedLetters : Graph where
  slots := #[
    some { kind := .literal ['a'] },
    some { kind := .backCapture "x" 0 none },
    some { kind := .function (Script.callback {
      steps := [.push "s" (.text "1"), .run 0 0]
      verdict := .last }) },
    some { kind := .literal ['b'] }]

/-- The letters one after the other, in sequences within sequences. -/
def lettersInGroups : Grouping :=
  .pattern 1 (.group (.pattern 2 (.group (.pattern 3 .nil) .nil)) .nil)

theorem flat_matches_as_nested_pushedLetters :
    let both := lettersInGroups.together .sequence pushedLetters
    let nested := (lettersInGroups.nested .sequence pushedLetters).1
    let input := Input.ofString "aac"
    let run := lettersInGroups.nestedRun .sequence pushedLetters input 0 {}
    let flatRun := lettersInGroups.flatRun .sequence pushedLetters input 0 {}
    both.DepthFree input.text nested ∧
      (Context.setup {} both input.text).KeepsBindings nested ∧
      both.Lawful input.text nested ∧
      run.result.toOption = some none ∧ flatRun.EndsLike run := by
  intro both nested input run flatRun
  have scripts : ∀ origin callback, both.kind origin = .function callback →
      ∃ script : Script, callback = script.callback ∧ script.verdict ≠ .state ∧
        (∀ step ∈ script.steps, step.keepsOlder) ∧ ∀ step ∈ script.steps, step.keepsBindings := by
    intro origin callback found
    match origin with
    | 2 =>
        cases found
        exact ⟨_, rfl, by decide, by decide, by decide⟩
    | 0 | 1 | 3 | 4 | 5 | 6 | 7 | 8 | 9 => cases found
    | origin + 10 => cases found
  have free : both.DepthFree input.text nested := by
    constructor
    · intro origin callback _ found
      obtain ⟨script, rfl, noState, -⟩ := scripts origin callback found
      exact Script.ignoresDepth noState _
    · intro origin callback _ found
      obtain ⟨script, rfl, -⟩ := scripts origin callback found
      exact script.passesLimit _
  have keeps : (Context.setup {} both input.text).KeepsBindings nested := by
    intro origin callback _ found
    obtain ⟨script, rfl, -, -, keeps⟩ := scripts origin callback found
    exact Script.keepsBindings keeps _
  have lawful : both.Lawful input.text nested := by
    intro origin callback _ found
    obtain ⟨script, rfl, -, keepsOlder, -⟩ := scripts origin callback found
    exact Script.lawful keepsOlder _
  have below : ¬ atLimit run.result := by decide +kernel
  have inside : ∀ pattern ∈ lettersInGroups.patterns, pattern < pushedLetters.slots.size := by decide
  exact ⟨free, keeps, lawful, by decide +kernel,
    (flat_matches_as_nested.2 .sequence lettersInGroups pushedLetters inside input 0 {} free
      (fun _ => keeps) below).alike lawful⟩

/-- After a letter that is bound, a group whose callback cuts the bindings. -/
def restoring : Graph where
  slots := #[
    some { kind := .literal ['a'] },
    some { kind := .backCapture "x" 0 none },
    some { kind := .function (Script.callback { steps := [.restore 0], verdict := .accept }) },
    some { kind := .literal ['b'] }]

/-- After a callback that commits, a group that pushes a value and never matches. -/
def committingFirst : Graph where
  slots := #[
    some { kind := .function (Script.callback { steps := [.commit], verdict := .accept }) },
    some { kind := .value (.text "b") },
    some { kind := .stackCapture "s" 1 },
    some { kind := .constant false }]

/-- A callback that takes any error of its match for no match. -/
def swallowing : Graph where
  slots := #[
    some { kind := .constant true },
    some { kind := .positive 0 },
    some { kind := .function {
      program := fun _ i => .run 1 i fun
        | .ok _ => .finish .accept
        | .error _ => .finish .reject
      patterns := [1] } }]

/-- The nested match and the flat one of a sequence, from a state in which the stack has an entry and
with room for four calls. -/
def bothRuns (grouping : Grouping) (graph : Graph) (text : String) : MatchRun × MatchRun :=
  let context : Context :=
    { config := { limit := 4 }, stackTable := StackTable.push {} "s" (.text "a") }
  (grouping.nestedRun .sequence graph (.ofString text) 0 context,
    grouping.flatRun .sequence graph (.ofString text) 0 context)

/-- No callback looks at the nesting, wherever it stands in the graph. -/
theorem flat_differs_from_nested :
    let bound : Grouping := .pattern 1 (.group (.pattern 2 (.pattern 3 .nil)) .nil)
    let pushed : Grouping := .pattern 0 (.group (.pattern 2 (.pattern 3 .nil)) .nil)
    let swallowed : Grouping := .group (.pattern 2 .nil) .nil
    ((∀ origin callback, (bound.together .sequence restoring).kind origin = .function callback →
        ∀ text, callback.IgnoresDepth text) ∧
      (bound.bothRuns restoring "ac").1.result = .error (.backCaptureUnderflow 1 0) ∧
      (bound.bothRuns restoring "ac").2.result = .ok none) ∧
    ((∀ origin callback,
        (pushed.together .sequence committingFirst).kind origin = .function callback →
          ∀ text, callback.IgnoresDepth text) ∧
      (pushed.bothRuns committingFirst "").1.result = .ok none ∧
      (pushed.bothRuns committingFirst "").1.context.stackTable.entries "s" = [.text "a"] ∧
      (pushed.bothRuns committingFirst "").2.context.stackTable.entries "s" =
        [.text "a", .text "b"]) ∧
    ((∀ origin callback, (swallowed.together .sequence swallowing).kind origin = .function callback →
        ∀ text, callback.IgnoresDepth text) ∧
      (swallowed.bothRuns swallowing "").1.result.toOption = some none ∧
      (swallowed.bothRuns swallowing "").2.result.toOption =
        some (some ((Text.ofString "").matchOver 0 0))) := by
  refine ⟨⟨?_, by rfl, by rfl⟩, ⟨?_, by rfl, by rfl, by rfl⟩,
    ⟨?_, by decide +kernel, by decide +kernel⟩⟩
  · intro origin callback found
    match origin with
    | 2 =>
        cases found
        exact Script.ignoresDepth (by decide)
    | 0 | 1 | 3 | 4 | 5 | 6 | 7 => cases found
    | origin + 8 => cases found
  · intro origin callback found
    match origin with
    | 0 =>
        cases found
        exact Script.ignoresDepth (by decide)
    | 1 | 2 | 3 | 4 | 5 | 6 | 7 => cases found
    | origin + 8 => cases found
  · intro origin callback found
    match origin with
    | 2 =>
        cases found
        rintro text i - (answer | error) <;> trivial
    | 0 | 1 | 3 | 4 | 5 | 6 => cases found
    | origin + 7 => cases found

end Grouping

end PegEngine
