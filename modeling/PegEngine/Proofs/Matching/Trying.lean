import PegEngine.Proofs.Matching.Surroundings

/-!
Contract: what a pattern that is tried inside others answers, and what it leaves behind.

A pattern is tried over and over from where the bindings and the stacks are those of one beginning.
It answers as it does in the beginning itself, and when it does not match, or only helps to decide,
the next try begins with the same again.

Owns:
- `MatchState.AsBegun` and `MatchState.GrownFrom`, for states in the course of that;
- `Matching.Replies`, that an action has a certain answer, whatever state like the beginning it is
  carried out in, and leaves a certain kind of state, unless it ends at the limit;
- `call_replies_tried` and `matchSequence_replies_tried`, for a pattern that is called, and for a
  plain sequence whose items are spliced in.
-/

namespace PegEngine

/-! ## States -/

namespace MatchState

/-- At a depth, with the bindings and with the entries and the changes of the stacks as in the
beginning. -/
structure AsBegun (state begun : MatchState) (depth : Nat) : Prop where
  bindings : state.bindings = begun.bindings
  stackTable : state.stackTable.Alike begun.stackTable
  level : state.depth = depth

/-- At a depth, reached from the beginning by changes that can be taken back. -/
structure GrownFrom (state begun : MatchState) (depth : Nat) : Prop where
  bindings : begun.bindings.newestFirst <:+ state.bindings.newestFirst
  stackTable : state.stackTable.Extends begun.stackTable
  level : state.depth = depth

variable {state entry begun : MatchState} {depth : Nat}

namespace AsBegun

theorem refl (begun : MatchState) : begun.AsBegun begun begun.depth :=
  ⟨rfl, .refl _, rfl⟩

theorem akin (same : state.AsBegun begun depth) : state.Akin depth begun.depth begun :=
  ⟨same.bindings, same.stackTable, same.level, rfl⟩

theorem grownFrom (same : state.AsBegun begun depth) : state.GrownFrom begun depth :=
  ⟨same.bindings ▸ List.suffix_refl _, .of_alike same.stackTable, same.level⟩

theorem started (same : state.AsBegun begun depth) (setup : Setup) (pattern : PatternId) (i : Nat) :
    (Matching.started setup pattern i state).AsBegun begun (depth + 1) := by
  obtain ⟨trace, reported⟩ :=
    Matching.report_eq setup pattern i .before (state.enter (setup.graph.node pattern))
  unfold Matching.started
  rw [reported]
  exact ⟨same.bindings, same.stackTable, congrArg (· + 1) same.level⟩

end AsBegun

namespace GrownFrom

theorem report (grown : state.GrownFrom begun depth) (setup : Setup) (pattern : PatternId) (i : Nat)
    (phase : Phase) : (state.report setup pattern i phase).GrownFrom begun depth := by
  obtain ⟨trace, reported⟩ := Matching.report_eq setup pattern i phase state
  rw [reported]
  exact ⟨grown.bindings, grown.stackTable, grown.level⟩

theorem leave (grown : state.GrownFrom begun (depth + 1)) (node : Node) (entry : MatchState) :
    (entry.leave node state).GrownFrom begun depth :=
  ⟨grown.bindings, grown.stackTable, congrArg (· - 1) grown.level⟩

/-- What was added since the beginning can be taken back. -/
theorem backtrack (grown : state.GrownFrom begun depth) {entryDepth : Nat}
    (same : entry.AsBegun begun entryDepth) :
    ∃ restored, entry.backtrack state = (.ok (), restored) ∧ restored.AsBegun begun depth := by
  refine ⟨_, backtrack_of_suffix (same.bindings ▸ grown.bindings), same.bindings, ?_, grown.level⟩
  rw [same.stackTable.checkpoint]
  exact grown.stackTable.rollback

end GrownFrom

end MatchState

namespace Matching

/-! ## Replies -/

variable {α β : Type} {begun : MatchState} {depth : Nat} {left : MatchState → Prop}

/-- Carried out in a state like the beginning, the action has this answer and leaves a state of this
kind, unless it ends at the limit. -/
def Replies (begun : MatchState) (depth : Nat) (left : MatchState → Prop) (action : MatchM α)
    (answer : Except MatchError α) : Prop :=
  ∀ state : MatchState, state.AsBegun begun depth →
    atLimit (answerOf (action state)) ∨
      (answerOf (action state) = answer ∧ left (stateOf (action state)))

/-- The action leaves everything as it was. -/
abbrev RepliesStill (begun : MatchState) (depth : Nat) (action : MatchM α)
    (answer : Except MatchError α) : Prop :=
  Replies begun depth (·.AsBegun begun depth) action answer

namespace Replies

variable {action : MatchM α} {answer : Except MatchError α} {next : α → MatchM β}

theorem mono {other : MatchState → Prop} (replies : Replies begun depth left action answer)
    (imp : ∀ state, left state → other state) : Replies begun depth other action answer :=
  fun state same => (replies state same).imp id fun ⟨isAnswer, leaves⟩ => ⟨isAnswer, imp _ leaves⟩

theorem pure (value : α) : RepliesStill begun depth (Pure.pure value : MatchM α) (.ok value) :=
  fun _ same => Or.inr ⟨rfl, same⟩

theorem bind {value : α} {after : Except MatchError β}
    (first : RepliesStill begun depth action (.ok value))
    (rest : Replies begun depth left (next value) after) :
    Replies begun depth left (action >>= next) after := by
  intro state same
  rw [bind_apply]
  rcases first state same with limited | ⟨isAnswer, leaves⟩
  · left
    cases ended : action state with
    | ok value reached =>
        rw [ended] at limited
        cases limited
    | error error reached =>
        rw [ended] at limited
        exact limited
  · cases ended : action state with
    | ok value reached =>
        rw [ended] at isAnswer leaves
        cases isAnswer
        exact rest reached leaves
    | error error reached =>
        rw [ended] at isAnswer
        cases isAnswer

theorem bind_error {error : MatchError} (first : Replies begun depth left action (.error error)) :
    Replies begun depth left (action >>= next) (.error error) := by
  intro state same
  have ends := first state same
  rw [bind_apply]
  cases ended : action state with
  | ok value reached =>
      rw [ended] at ends
      rcases ends with limited | ⟨isAnswer, -⟩
      · cases limited
      · cases isAnswer
  | error other reached =>
      rw [ended] at ends
      exact ends.imp id fun ⟨isAnswer, leaves⟩ => ⟨congrArg _ (Except.error.inj isAnswer), leaves⟩

theorem map (f : α → β) (replies : Replies begun depth left action answer) :
    Replies begun depth left (do return f (← action)) (answer.map f) := by
  intro state same
  have ends := replies state same
  rw [bind_apply]
  cases ended : action state with
  | ok value reached =>
      rw [ended] at ends
      refine ends.imp (fun limited => nomatch limited) fun ⟨isAnswer, leaves⟩ => ?_
      cases isAnswer
      exact ⟨rfl, leaves⟩
  | error other reached =>
      rw [ended] at ends
      refine ends.imp id fun ⟨isAnswer, leaves⟩ => ?_
      cases isAnswer
      exact ⟨rfl, leaves⟩

end Replies

/-! ## Calls -/

section Calls

variable {setup : Setup} {room i index : Nat} {pattern : PatternId}
  {body : MatchM (Option Match)} {answer : Except MatchError (Option Match)}

/-- The state has the bindings and the stacks of one that is left inside. -/
def LeftInside (left : MatchState → Prop) (depth : Nat) (state : MatchState) : Prop :=
  ∃ reached, left reached ∧ state.bindings = reached.bindings ∧
    state.stackTable = reached.stackTable ∧ state.depth = depth

/-- A pattern without a name has the answer of its body. It leaves what the body has left with a
match, and everything as it was without one. -/
theorem Replies.enclosed (unnamed : setup.graph.name? pattern = none)
    (bodies : Replies begun (depth + 1) left body answer)
    (grown : ∀ state, left state → state.GrownFrom begun (depth + 1)) :
    Replies begun depth
      (fun state => (∀ m, answer = .ok (some m) → LeftInside left depth state) ∧
        ((∀ m, answer ≠ .ok (some m)) → state.AsBegun begun depth))
      (enclosed setup pattern i body) answer := by
  intro entry same
  have ends := bodies _ (same.started setup pattern i)
  cases ended : body (started setup pattern i entry) with
  | error error reached =>
      rw [ended] at ends
      rw [enclosed_of_error ended, unnamed, error.inPattern_none]
      rcases ends with limited | ⟨isAnswer, leaves⟩
      · exact Or.inl limited
      · obtain ⟨restored, undone, back⟩ :=
          ((grown _ leaves).leave (setup.graph.node pattern) entry).backtrack same
        subst isAnswer
        simp only [stateOf] at undone
        rw [undone]
        refine Or.inr ⟨rfl, fun m found => ?_, fun _ => back⟩
        cases found
  | ok outcome reached =>
      rw [ended] at ends
      obtain ⟨isAnswer, leaves⟩ := ends.resolve_left Bool.false_ne_true
      subst isAnswer
      have reports := report_eq setup pattern i (.after outcome) reached
      cases outcome with
      | some m =>
          obtain ⟨trace, reported⟩ := reports
          rw [enclosed_of_found ended, reported]
          refine Or.inr ⟨rfl, fun _ _ => ⟨reached, leaves, rfl, rfl, ?_⟩,
            fun noMatch => absurd rfl (noMatch m)⟩
          exact congrArg (· - 1) (grown _ leaves).level
      | none =>
          obtain ⟨restored, undone, back⟩ :=
            (((grown _ leaves).report setup pattern i (.after none)).leave
              (setup.graph.node pattern) entry).backtrack same
          rw [enclosed_of_missed ended undone]
          refine Or.inr ⟨rfl, fun m found => ?_, fun _ => back⟩
          cases found

/-- A call that is not refused is one of its body. -/
theorem Replies.callUnsettled
    (bodies : ∀ fewer, room = fewer + 1 → Replies begun depth left
      (Matching.enclosed setup pattern (min index setup.text.length)
        (matchKind setup (call setup fewer) (min index setup.text.length)
          (setup.graph.kind pattern))) answer) :
    Replies begun depth left (callUnsettled setup room pattern index) answer := by
  intro state same
  cases room with
  | zero => exact Or.inl rfl
  | succ room =>
      by_cases full : setup.limit ≤ state.depth
      · rw [callUnsettled_of_full full]
        exact Or.inl rfl
      · rw [callUnsettled_of_room full]
        exact bodies room rfl state same

theorem Replies.call (under : 0 < depth) (level : ∀ state, left state → state.depth = depth)
    (unsettled :
      Replies begun depth left (Matching.callUnsettled setup room pattern index) answer) :
    Replies begun depth left (Matching.call setup room pattern index) answer := by
  intro state same
  rcases unsettled state same with limited | ⟨isAnswer, leaves⟩
  · exact Or.inl (answerOf_call ▸ limited)
  · rw [call_eq_unsettled (level _ leaves ▸ under)]
    exact Or.inr ⟨isAnswer, leaves⟩

/-- Patterns without a name that leave everything as it was. -/
theorem Replies.callUnsettled_still (unnamed : setup.graph.name? pattern = none)
    (bodies : ∀ fewer, room = fewer + 1 → RepliesStill begun (depth + 1)
      (matchKind setup (Matching.call setup fewer) (min index setup.text.length)
        (setup.graph.kind pattern)) answer) :
    RepliesStill begun depth (Matching.callUnsettled setup room pattern index) answer := by
  refine .callUnsettled fun fewer isSucc => ?_
  refine ((bodies fewer isSucc).enclosed unnamed fun _ same => same.grownFrom).mono ?_
  intro state ⟨found, missed⟩
  by_cases matched : ∃ m, answer = .ok (some m)
  · obtain ⟨m, isFound⟩ := matched
    obtain ⟨reached, same, bindings, stackTable, level⟩ := found m isFound
    exact ⟨bindings.trans same.bindings, stackTable ▸ same.stackTable, level⟩
  · exact missed fun m isFound => matched ⟨m, isFound⟩

theorem Replies.call_still (under : 0 < depth) (unnamed : setup.graph.name? pattern = none)
    (bodies : ∀ fewer, room = fewer + 1 → RepliesStill begun (depth + 1)
      (matchKind setup (Matching.call setup fewer) (min index setup.text.length)
        (setup.graph.kind pattern)) answer) :
    RepliesStill begun depth (Matching.call setup room pattern index) answer :=
  .call under (fun _ same => same.level) (.callUnsettled_still unnamed bodies)

/-- Calls of patterns without a name that do not match, and take back what they did. -/
theorem Replies.call_missed (under : 0 < depth) (unnamed : setup.graph.name? pattern = none)
    (noMatch : ∀ m, answer ≠ .ok (some m))
    (bodies : ∀ fewer, room = fewer + 1 → Replies begun (depth + 1)
      (·.GrownFrom begun (depth + 1))
      (matchKind setup (Matching.call setup fewer) (min index setup.text.length)
        (setup.graph.kind pattern)) answer) :
    RepliesStill begun depth (Matching.call setup room pattern index) answer := by
  refine .call under (fun _ same => same.level) (.callUnsettled fun fewer isSucc => ?_)
  exact ((bodies fewer isSucc).enclosed unnamed fun _ grown => grown).mono
    fun state leaves => leaves.2 noMatch

end Calls

/-! ## Trying a pattern -/

section Trying

variable {setup : Setup} {room full index : Nat} {pattern : PatternId}

/-- A pattern that is tried inside others does as it does in the beginning. -/
theorem call_replies_tried (under : 0 < depth) (deeper : begun.depth ≤ depth) (wider : room ≤ full)
    (ignores : setup.graph.IgnoresSurroundings setup.text pattern) (index : Nat) :
    let tried := callUnsettled setup full pattern index begun
    Replies begun depth (·.Akin depth begun.depth (stateOf tried))
      (call (haltingSetup setup) room pattern index) (answerOf tried) := by
  intro tried
  refine .call under (fun _ akin => akin.level) fun state same => ?_
  have ends := callUnsettled_doesAlike wider deeper ignores index state begun same.akin
  by_cases limited : atLimit
      (answerOf (callUnsettled (haltingSetup setup) room pattern index state))
  · exact Or.inl limited
  · exact Or.inr (ends.answer limited)

/-- What is akin to the end of a try has grown from the beginning, and is as it was unless there is
a match. -/
theorem asBegun_of_isolated {state other : MatchState} {answer : Except MatchError (Option Match)}
    (isolated : Isolated begun answer other) {otherDepth : Nat}
    (akin : state.Akin depth otherDepth other) :
    state.GrownFrom begun depth ∧
      ((∀ m, answer ≠ .ok (some m)) → state.AsBegun begun depth) := by
  have grown := isolated.extends
  refine ⟨⟨akin.bindings ▸ grown.bindings, ?_, akin.level⟩, fun noMatch => ?_⟩
  · exact (StackTable.Extends.of_alike akin.stackTable).trans grown.stackTable
  · cases isolated with
    | found => exact absurd rfl (noMatch _)
    | missed restored | failed restored =>
        exact ⟨akin.bindings.trans restored.bindings, akin.stackTable.trans restored.stackTable,
          akin.level⟩

/-- A plain sequence whose items are spliced in elsewhere does there as it does in the beginning. -/
theorem matchSequence_replies_tried {items : List PatternId} {k : Nat}
    (plain : setup.graph.node pattern = { kind := .sequence items })
    (inside : k ≤ setup.text.length) (free : ¬ setup.limit ≤ begun.depth)
    (lawful : setup.graph.Lawful setup.text pattern)
    (ignores : setup.graph.IgnoresSurroundings setup.text pattern) :
    let tried := callUnsettled setup (room + 1) pattern k begun
    Replies begun (begun.depth + 1)
      (fun state => state.GrownFrom begun (begun.depth + 1) ∧
        ∀ m, answerOf tried = .ok (some m) →
          state.Akin (begun.depth + 1) begun.depth (stateOf tried))
      (matchSequence (call (haltingSetup setup) room) items (setup.text.matchOver k k))
      (answerOf tried) := by
  let kindBody := matchKind setup (call setup room) k (setup.graph.kind pattern)
  have kind : setup.graph.kind pattern = .sequence items := congrArg Node.kind plain
  have grows := matchKind_isolated inside lawful fun next step index state under =>
    call_isolated setup room (lawful.of_calls step) index under
  have isTried : callUnsettled setup (room + 1) pattern k begun =
      enclosed setup pattern k kindBody begun := by
    rw [callUnsettled_of_room free, Nat.min_eq_left inside]
  intro tried state same
  have began := (MatchState.AsBegun.refl begun).started setup pattern k
  have extended := (grows (started setup pattern k begun) (began.level ▸ Nat.succ_pos _)).1
  have ends : EndsAkin (begun.depth + 1) (begun.depth + 1)
      (matchSequence (call (haltingSetup setup) room) items (setup.text.matchOver k k) state)
      (kindBody (started setup pattern k begun)) := by
    have alike : DoesAlike (begun.depth + 1) (begun.depth + 1)
        (matchSequence (call (haltingSetup setup) room) items (setup.text.matchOver k k))
        (matchSequence (call setup room) items (setup.text.matchOver k k)) := by
      refine (doesAlike_accesses _ _).matchSequence (fun item member => ?_) _
      have step : setup.graph.Calls pattern item := by
        refine Or.inl (Or.inl ?_)
        rwa [kind]
      exact call_doesAlike (Nat.le_refl _) (Nat.le_refl _) (Nat.succ_pos _) (ignores.of_calls step)
    simp only [kindBody, kind]
    exact alike state _ ⟨same.bindings.trans began.bindings.symm,
      same.stackTable.trans began.stackTable.symm, same.level, began.level⟩
  by_cases limited : atLimit (answerOf
      (matchSequence (call (haltingSetup setup) room) items (setup.text.matchOver k k) state))
  · exact Or.inl limited
  · obtain ⟨sameAnswer, akin⟩ := ends.answer limited
    right
    have grown : (stateOf (matchSequence (call (haltingSetup setup) room) items
        (setup.text.matchOver k k) state)).GrownFrom begun (begun.depth + 1) := by
      refine ⟨?_, ?_, akin.level⟩
      · rw [akin.bindings, ← began.bindings]
        exact extended.bindings
      · exact (StackTable.Extends.of_alike akin.stackTable).trans
          (extended.stackTable.trans (.of_alike began.stackTable))
    have unnamed : setup.graph.name? pattern = none := congrArg Node.name plain
    have closes := @enclosed_ends setup pattern k kindBody _ grows begun
    rw [← isTried] at closes
    change EnclosedEnds setup pattern k kindBody begun tried at closes
    rw [sameAnswer]
    generalize tried = result at closes ⊢
    cases closes with
    | @found m reached ended _ =>
        rw [ended] at akin ⊢
        refine ⟨rfl, grown, fun _ _ => ?_⟩
        obtain ⟨trace, reported⟩ := report_eq setup pattern k (.after (some m)) reached
        rw [reported]
        exact ⟨akin.bindings, akin.stackTable, akin.level, congrArg (· - 1) akin.otherLevel⟩
    | missed ended _ =>
        rw [ended]
        exact ⟨rfl, grown, nofun⟩
    | @failed error _ _ ended _ =>
        rw [ended, unnamed, error.inPattern_none]
        exact ⟨rfl, grown, nofun⟩

end Trying

end Matching

end PegEngine
