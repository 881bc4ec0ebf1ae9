import PegEngine.Proofs.Matching.Access
import PegEngine.Proofs.Matching.Refinement
import PegEngine.Proofs.Matching.TracedCalls

/-!
Contract: what a pattern does not mention does not matter.

Two matches begin in states that differ in one stack and in the bindings of one name. All stacks
share one journal and all names one list of bindings, so that lengths and places differ throughout.
A pattern that mentions neither goes through the same changes in both matches.

Owns:
- `SameBeside`, for states that differ in one stack and one name, and `GrownAlike`, for states that
  two such states come to by the same changes;
- `Graph.Unmentioned`, that no pattern below mentions the stack or the name;
- `Matching.call_parallel` and `Graph.matchIn_unmentioned`.
-/

namespace PegEngine

/-! ## Bindings -/

namespace Bindings

/-- The bindings of a name, hidden ones included. -/
def ofName (bindings : Bindings) (name : String) : List (String × Capture) :=
  bindings.newestFirst.filter (·.1 = name)

/-- The bindings of all other names. -/
def beside (bindings : Bindings) (name : String) : List (String × Capture) :=
  bindings.newestFirst.filter (·.1 ≠ name)

theorem lookup?_beside {name other : String} (different : other ≠ name) (bindings : Bindings) :
    bindings.lookup? other = (bindings.beside name).lookup other := by
  unfold lookup? beside
  induction bindings.newestFirst with
  | nil => rfl
  | cons head rest inductionHypothesis =>
      obtain ⟨first, value⟩ := head
      by_cases same : first = name
      · subst same
        simp [Named.lookup_cons, different, inductionHypothesis]
      · by_cases here : other = first <;>
          simp [Named.lookup_cons, same, here, inductionHypothesis]

/-- The same was bound on top of both, and never the name. -/
def GrownAlike (name : String) (begun otherBegun bindings other : Bindings) : Prop :=
  ∃ added : List (String × Capture), (∀ entry ∈ added, entry.1 ≠ name) ∧
    bindings.newestFirst = added ++ begun.newestFirst ∧
      other.newestFirst = added ++ otherBegun.newestFirst

variable {name : String} {begun otherBegun middle otherMiddle bindings other : Bindings}

theorem GrownAlike.trans (later : GrownAlike name middle otherMiddle bindings other)
    (earlier : GrownAlike name begun otherBegun middle otherMiddle) :
    GrownAlike name begun otherBegun bindings other := by
  obtain ⟨added, noneNamed, grown, otherGrown⟩ := earlier
  obtain ⟨more, noMoreNamed, grownMore, otherGrownMore⟩ := later
  refine ⟨more ++ added, ?_, ?_, ?_⟩
  · exact fun entry member => (List.mem_append.mp member).elim (noMoreNamed entry) (noneNamed entry)
  · rw [grownMore, grown, List.append_assoc]
  · rw [otherGrownMore, otherGrown, List.append_assoc]

theorem GrownAlike.refl (name : String) (begun otherBegun : Bindings) :
    GrownAlike name begun otherBegun begun otherBegun :=
  ⟨[], nofun, rfl, rfl⟩

theorem GrownAlike.bind {bound : String} (different : bound ≠ name) (value : Capture)
    (begun otherBegun : Bindings) :
    GrownAlike name begun otherBegun (begun.bind bound value) (otherBegun.bind bound value) :=
  ⟨[(bound, value)], by simpa using different, rfl, rfl⟩

theorem GrownAlike.beside (grown : GrownAlike name begun otherBegun bindings other)
    (same : begun.beside name = otherBegun.beside name) :
    bindings.beside name = other.beside name := by
  obtain ⟨added, _, left, right⟩ := grown
  unfold Bindings.beside at same ⊢
  rw [left, right, List.filter_append, List.filter_append, same]

/-- Each keeps its own bindings of the name. -/
theorem GrownAlike.ofName (grown : GrownAlike name begun otherBegun bindings other) :
    bindings.ofName name = begun.ofName name ∧ other.ofName name = otherBegun.ofName name := by
  obtain ⟨added, noneNamed, left, right⟩ := grown
  have nothing : added.filter (·.1 = name) = [] := by simpa using noneNamed
  unfold Bindings.ofName
  rw [left, right, List.filter_append, List.filter_append, nothing]
  exact ⟨rfl, rfl⟩

/-- What was there in the beginning still is, below what was bound. -/
theorem GrownAlike.suffix (grown : GrownAlike name begun otherBegun bindings other) :
    begun.newestFirst <:+ bindings.newestFirst ∧ otherBegun.newestFirst <:+ other.newestFirst := by
  obtain ⟨added, _, left, right⟩ := grown
  exact ⟨⟨added, left.symm⟩, ⟨added, right.symm⟩⟩

end Bindings

/-! ## Stacks -/

namespace StackTable

/-- The tables are the same but for one stack and its changes. -/
structure SameBeside (stack : String) (table other : StackTable) : Prop where
  contents : ∀ another, another ≠ stack →
    table.contents.lookup another = other.contents.lookup another
  journal : table.journal.filter (·.stack ≠ stack) = other.journal.filter (·.stack ≠ stack)

/-- The tables are the same but for one stack, and both went through the same changes, none of them
of that stack. -/
structure GrownAlike (stack : String) (begun otherBegun table other : StackTable) : Prop where
  contents : ∀ another, another ≠ stack →
    table.contents.lookup another = other.contents.lookup another
  own : table.contents.lookup stack = begun.contents.lookup stack
  otherOwn : other.contents.lookup stack = otherBegun.contents.lookup stack
  changes : ∃ changes : List StackChange, (∀ change ∈ changes, change.stack ≠ stack) ∧
    table.journal = changes ++ begun.journal ∧ other.journal = changes ++ otherBegun.journal

variable {stack : String} {begun otherBegun middle otherMiddle table other : StackTable}

theorem SameBeside.entries (same : SameBeside stack table other) {another : String}
    (different : another ≠ stack) :
    table.contents.entries another = other.contents.entries another := by
  unfold NamedStacks.entries
  rw [same.contents another different]

namespace GrownAlike

theorem refl (same : SameBeside stack begun otherBegun) :
    GrownAlike stack begun otherBegun begun otherBegun :=
  ⟨same.contents, rfl, rfl, [], nofun, rfl, rfl⟩

theorem sameBeside (grown : GrownAlike stack begun otherBegun table other)
    (same : SameBeside stack begun otherBegun) : SameBeside stack table other := by
  refine ⟨grown.contents, ?_⟩
  obtain ⟨changes, _, left, right⟩ := grown.changes
  rw [left, right, List.filter_append, List.filter_append, same.journal]

theorem trans (later : GrownAlike stack middle otherMiddle table other)
    (earlier : GrownAlike stack begun otherBegun middle otherMiddle) :
    GrownAlike stack begun otherBegun table other := by
  refine ⟨later.contents, later.own.trans earlier.own, later.otherOwn.trans earlier.otherOwn, ?_⟩
  obtain ⟨changes, noneOwn, grown, otherGrown⟩ := earlier.changes
  obtain ⟨more, noMoreOwn, grownMore, otherGrownMore⟩ := later.changes
  refine ⟨more ++ changes, ?_, ?_, ?_⟩
  · exact fun change member =>
      (List.mem_append.mp member).elim (noMoreOwn change) (noneOwn change)
  · rw [grownMore, grown, List.append_assoc]
  · rw [otherGrownMore, otherGrown, List.append_assoc]

/-- One and the same change of another stack. -/
theorem change (same : SameBeside stack begun otherBegun) {change : StackChange}
    (different : change.stack ≠ stack) (values : List Capture) :
    GrownAlike stack begun otherBegun
      { contents := Named.set change.stack values begun.contents
        journal := change :: begun.journal }
      { contents := Named.set change.stack values otherBegun.contents
        journal := change :: otherBegun.journal } := by
  refine ⟨fun another beside => ?_, ?_, ?_, [change], by simpa using different, rfl, rfl⟩
  · rw [Named.lookup_set, Named.lookup_set, same.contents another beside]
  · rw [Named.lookup_set, if_neg (Ne.symm different)]
  · rw [Named.lookup_set, if_neg (Ne.symm different)]

theorem push (same : SameBeside stack begun otherBegun) {pushed : String}
    (different : pushed ≠ stack) (value : Capture) :
    GrownAlike stack begun otherBegun (begun.push pushed value) (otherBegun.push pushed value) := by
  have alike := @change _ _ _ same (.pushed pushed) different
    (value :: begun.contents.entries pushed)
  unfold StackTable.push
  rw [← same.entries different]
  exact alike

theorem pushAll (same : SameBeside stack begun otherBegun) {pushed : String}
    (different : pushed ≠ stack) (values : List Capture) :
    GrownAlike stack begun otherBegun (begun.pushAll pushed values)
      (otherBegun.pushAll pushed values) := by
  induction values generalizing begun otherBegun with
  | nil => exact refl same
  | cons value rest inductionHypothesis =>
      have first := push same different value
      exact (inductionHypothesis (first.sameBeside same)).trans first

theorem popUpTo (same : SameBeside stack begun otherBegun) {popped : String}
    (different : popped ≠ stack) (count : Nat) :
    GrownAlike stack begun otherBegun (begun.popUpTo popped count).2
      (otherBegun.popUpTo popped count).2 := by
  induction count generalizing begun otherBegun with
  | zero => exact refl same
  | succ count inductionHypothesis =>
      have sameEntries := same.entries different
      cases held : begun.contents.entries popped with
      | nil =>
          simp only [StackTable.popUpTo, StackTable.pop, held, sameEntries ▸ held]
          exact refl same
      | cons value rest =>
          simp only [StackTable.popUpTo, StackTable.pop, held, sameEntries ▸ held]
          have first := @change _ _ _ same (.popped popped value) different rest
          exact (inductionHypothesis (first.sameBeside same)).trans first

/-- Reverting a change of another stack gives it the same entries. -/
theorem revert_eq {contents otherContents : NamedStacks} {change : StackChange}
    (same : contents.lookup change.stack = otherContents.lookup change.stack) :
    ∃ values, change.revert contents = Named.set change.stack values contents ∧
      change.revert otherContents = Named.set change.stack values otherContents := by
  have sameEntries : contents.entries change.stack = otherContents.entries change.stack :=
    congrArg (·.getD []) same
  cases change <;>
    exact ⟨_, rfl, by simp only [StackChange.revert, StackChange.stack] at *; rw [sameEntries]⟩

/-- Undoing the changes since the beginning touches none of the one stack. -/
theorem rollback (grown : GrownAlike stack begun otherBegun table other) :
    GrownAlike stack begun otherBegun (table.rollback begun.checkpoint)
      (other.rollback otherBegun.checkpoint) := by
  obtain ⟨changes, noneOwn, left, right⟩ := grown.changes
  have far : table.journal.length - begun.journal.length = changes.length := by
    rw [left, List.length_append, Nat.add_sub_cancel]
  have otherFar : other.journal.length - otherBegun.journal.length = changes.length := by
    rw [right, List.length_append, Nat.add_sub_cancel]
  unfold StackTable.rollback StackTable.checkpoint
  rw [far, otherFar]
  induction changes generalizing table other with
  | nil => exact grown
  | cons change rest inductionHypothesis =>
      have different := noneOwn change List.mem_cons_self
      obtain ⟨values, reverted, otherReverted⟩ := revert_eq (grown.contents _ different)
      simp only [List.length_cons, StackTable.undo, left, right, List.cons_append]
      refine inductionHypothesis ?_ (fun other member => noneOwn other (by simp [member])) rfl rfl
        (by simp) (by simp)
      rw [reverted, otherReverted]
      refine ⟨fun another beside => ?_, ?_, ?_, rest, ?_, rfl, rfl⟩
      · rw [Named.lookup_set, Named.lookup_set, grown.contents another beside]
      · rw [Named.lookup_set, if_neg (Ne.symm different), grown.own]
      · rw [Named.lookup_set, if_neg (Ne.symm different), grown.otherOwn]
      · exact fun other member => noneOwn other (List.mem_cons_of_mem change member)

end GrownAlike

/-- Forgetting how to undo. -/
theorem SameBeside.commit (same : SameBeside stack table other) :
    SameBeside stack table.commit other.commit :=
  ⟨same.contents, rfl⟩

end StackTable

/-! ## States -/

namespace MatchState

/-- The states are the same but for one stack, for the bindings of one name, and for the trace. -/
structure SameBeside (stack name : String) (state other : MatchState) : Prop where
  bindings : state.bindings.beside name = other.bindings.beside name
  stackTable : state.stackTable.SameBeside stack other.stackTable
  depth : state.depth = other.depth
  options : state.options = other.options

/-- From two states, two others are reached by the same changes, none of them of the one stack or of
the one name. -/
structure GrownAlike (stack name : String) (begun otherBegun state other : MatchState) : Prop where
  bindings : Bindings.GrownAlike name begun.bindings otherBegun.bindings state.bindings
    other.bindings
  stackTable : StackTable.GrownAlike stack begun.stackTable otherBegun.stackTable state.stackTable
    other.stackTable
  depth : state.depth = begun.depth ∧ other.depth = otherBegun.depth
  options : state.options = begun.options ∧ other.options = otherBegun.options

variable {stack name : String} {begun otherBegun middle otherMiddle state other : MatchState}

namespace GrownAlike

theorem refl (same : SameBeside stack name begun otherBegun) :
    GrownAlike stack name begun otherBegun begun otherBegun :=
  ⟨.refl _ _ _, .refl same.stackTable, ⟨rfl, rfl⟩, ⟨rfl, rfl⟩⟩

theorem trans (later : GrownAlike stack name middle otherMiddle state other)
    (earlier : GrownAlike stack name begun otherBegun middle otherMiddle) :
    GrownAlike stack name begun otherBegun state other where
  bindings := later.bindings.trans earlier.bindings
  stackTable := later.stackTable.trans earlier.stackTable
  depth := ⟨later.depth.1.trans earlier.depth.1, later.depth.2.trans earlier.depth.2⟩
  options := ⟨later.options.1.trans earlier.options.1, later.options.2.trans earlier.options.2⟩

theorem sameBeside (grown : GrownAlike stack name begun otherBegun state other)
    (same : SameBeside stack name begun otherBegun) : SameBeside stack name state other where
  bindings := grown.bindings.beside same.bindings
  stackTable := grown.stackTable.sameBeside same.stackTable
  depth := by rw [grown.depth.1, grown.depth.2, same.depth]
  options := by rw [grown.options.1, grown.options.2, same.options]

end GrownAlike

theorem SameBeside.enter (same : SameBeside stack name state other) (node : Node) :
    SameBeside stack name (state.enter node) (other.enter node) where
  bindings := same.bindings
  stackTable := same.stackTable
  depth := congrArg (· + 1) same.depth
  options := congrArg (node.trace <|> ·) same.options

/-- Reports tell the states apart, but change the trace alone. -/
theorem SameBeside.report (same : SameBeside stack name state other) (setup : Setup)
    (pattern : PatternId) (i : Nat) (phase : Phase) :
    SameBeside stack name (state.report setup pattern i phase)
      (other.report setup pattern i phase) := by
  obtain ⟨trace, reported⟩ := Matching.report_eq setup pattern i phase state
  obtain ⟨otherTrace, otherReported⟩ := Matching.report_eq setup pattern i phase other
  rw [reported, otherReported]
  exact ⟨same.bindings, same.stackTable, same.depth, same.options⟩

end MatchState

/-! ## Actions -/

namespace Matching

variable {stack name : String} {α : Type}

/-- The ends of two actions: the same answer, and states reached by the same changes. -/
inductive EndsParallel (stack name : String) (begun otherBegun : MatchState) :
    EStateM.Result MatchError MatchState α → EStateM.Result MatchError MatchState α → Prop where
  | ok {value : α} {state other : MatchState}
      (grown : MatchState.GrownAlike stack name begun otherBegun state other) :
      EndsParallel stack name begun otherBegun (.ok value state) (.ok value other)
  | error {error : MatchError} {state other : MatchState}
      (grown : MatchState.GrownAlike stack name begun otherBegun state other) :
      EndsParallel stack name begun otherBegun (.error error state) (.error error other)

/-- Inside a pattern call, from states that differ in the stack and the name, the two actions come
to the same answer by the same changes. -/
def Parallel (stack name : String) (action other : MatchM α) : Prop :=
  ∀ state otherState, 0 < state.depth → state.SameBeside stack name otherState →
    EndsParallel stack name state otherState (action state) (other otherState)

theorem EndsParallel.of_ok {begun otherBegun state : MatchState} {value : α}
    {otherEnded : EStateM.Result MatchError MatchState α}
    (ends : EndsParallel stack name begun otherBegun (.ok value state) otherEnded) :
    ∃ other, otherEnded = .ok value other ∧
      MatchState.GrownAlike stack name begun otherBegun state other := by
  cases ends with
  | ok grown => exact ⟨_, rfl, grown⟩

theorem EndsParallel.of_error {begun otherBegun state : MatchState} {error : MatchError}
    {otherEnded : EStateM.Result MatchError MatchState α}
    (ends : EndsParallel stack name begun otherBegun (.error error state) otherEnded) :
    ∃ other, otherEnded = .error error other ∧
      MatchState.GrownAlike stack name begun otherBegun state other := by
  cases ends with
  | error grown => exact ⟨_, rfl, grown⟩

theorem EndsParallel.trans {begun otherBegun middle otherMiddle : MatchState}
    {ended otherEnded : EStateM.Result MatchError MatchState α}
    (ends : EndsParallel stack name middle otherMiddle ended otherEnded)
    (earlier : MatchState.GrownAlike stack name begun otherBegun middle otherMiddle) :
    EndsParallel stack name begun otherBegun ended otherEnded := by
  cases ends with
  | ok grown => exact .ok (grown.trans earlier)
  | error grown => exact .error (grown.trans earlier)

/-- Calls inside other ones settle nothing. -/
theorem EndsParallel.settled_of_pos {begun otherBegun : MatchState}
    {ended otherEnded : EStateM.Result MatchError MatchState α}
    (ends : EndsParallel stack name begun otherBegun ended otherEnded) (under : 0 < begun.depth)
    (otherUnder : 0 < otherBegun.depth) :
    EndsParallel stack name begun otherBegun (settled ended) (settled otherEnded) := by
  cases ends with
  | ok grown =>
      rw [Matching.settled_of_pos (grown.depth.1 ▸ under),
        Matching.settled_of_pos (grown.depth.2 ▸ otherUnder)]
      exact .ok grown
  | error grown =>
      rw [Matching.settled_of_pos (grown.depth.1 ▸ under),
        Matching.settled_of_pos (grown.depth.2 ▸ otherUnder)]
      exact .error grown

theorem parallel_accesses (stack name : String) :
    Accesses (· ≠ name) (· ≠ stack) fun {α} => @Parallel α stack name where
  pure _ := fun _ _ _ same => .ok (.refl same)
  throw _ := fun _ _ _ same => .error (.refl same)
  bind := by
    intro α β action other next otherNext first rest state otherState under same
    have ends := first state otherState under same
    rw [bind_apply, bind_apply]
    generalize action state = ended at ends
    generalize other otherState = otherEnded at ends
    cases ends with
    | error grown => exact .error grown
    | ok grown =>
        have underStill := grown.depth.1 ▸ under
        exact (rest _ _ _ underStill (grown.sameBeside same)).trans grown
  addTrace _ := fun _ _ _ same =>
    .ok ⟨.refl _ _ _, .refl same.stackTable, ⟨rfl, rfl⟩, ⟨rfl, rfl⟩⟩
  readName {read} allowed := fun state otherState _ same => by
    have sameValue : state.bindings.lookup? read = otherState.bindings.lookup? read := by
      rw [Bindings.lookup?_beside allowed, Bindings.lookup?_beside allowed, same.bindings]
    change EndsParallel stack name state otherState (.ok (state.bindings.lookup? read) state)
      (.ok (otherState.bindings.lookup? read) otherState)
    rw [sameValue]
    exact .ok (.refl same)
  bindName allowed value := fun _ _ _ same =>
    .ok ⟨.bind allowed value _ _, .refl same.stackTable, ⟨rfl, rfl⟩, ⟨rfl, rfl⟩⟩
  readStack {read} allowed := fun state otherState _ same => by
    have sameEntries : state.stackTable.entries read = otherState.stackTable.entries read :=
      congrArg List.reverse (same.stackTable.entries allowed)
    change EndsParallel stack name state otherState (.ok (state.stackTable.entries read) state)
      (.ok (otherState.stackTable.entries read) otherState)
    rw [sameEntries]
    exact .ok (.refl same)
  pushAll allowed values := fun _ _ _ same =>
    .ok ⟨.refl _ _ _, .pushAll same.stackTable allowed values, ⟨rfl, rfl⟩, ⟨rfl, rfl⟩⟩
  popUpTo allowed count := fun _ _ _ same =>
    .ok ⟨.refl _ _ _, .popUpTo same.stackTable allowed count, ⟨rfl, rfl⟩, ⟨rfl, rfl⟩⟩

/-! ## Calls -/

variable {setup : Setup} {pattern : PatternId} {i : Nat} {body other : MatchM (Option Match)}
  {entry otherEntry reached otherReached : MatchState}

/-- Leaving a call whose body made the same changes in both. -/
theorem leave_grownAlike
    (grown : MatchState.GrownAlike stack name (started setup pattern i entry)
      (started setup pattern i otherEntry) reached otherReached) :
    MatchState.GrownAlike stack name entry otherEntry
      (entry.leave (setup.graph.node pattern) reached)
      (otherEntry.leave (setup.graph.node pattern) otherReached) := by
  obtain ⟨trace, reported⟩ :=
    report_eq setup pattern i .before (entry.enter (setup.graph.node pattern))
  obtain ⟨otherTrace, otherReported⟩ :=
    report_eq setup pattern i .before (otherEntry.enter (setup.graph.node pattern))
  unfold started at grown
  rw [reported, otherReported] at grown
  exact ⟨grown.bindings, grown.stackTable,
    ⟨MatchState.depth_leave grown.depth.1, MatchState.depth_leave grown.depth.2⟩,
    ⟨MatchState.options_leave grown.options.1, MatchState.options_leave grown.options.2⟩⟩

theorem report_grownAlike (setup : Setup) (pattern : PatternId) (i : Nat) (phase : Phase)
    (grown : MatchState.GrownAlike stack name entry otherEntry reached otherReached) :
    MatchState.GrownAlike stack name entry otherEntry (reached.report setup pattern i phase)
      (otherReached.report setup pattern i phase) := by
  obtain ⟨trace, reported⟩ := report_eq setup pattern i phase reached
  obtain ⟨otherTrace, otherReported⟩ := report_eq setup pattern i phase otherReached
  rw [reported, otherReported]
  exact ⟨grown.bindings, grown.stackTable, grown.depth, grown.options⟩

theorem backtrack_grownAlike
    (grown : MatchState.GrownAlike stack name entry otherEntry reached otherReached) :
    ∃ state otherState, entry.backtrack reached = (.ok (), state) ∧
      otherEntry.backtrack otherReached = (.ok (), otherState) ∧
        MatchState.GrownAlike stack name entry otherEntry state otherState := by
  refine ⟨_, _, MatchState.backtrack_of_suffix grown.bindings.suffix.1,
    MatchState.backtrack_of_suffix grown.bindings.suffix.2, ?_⟩
  exact ⟨.refl _ _ _, grown.stackTable.rollback, grown.depth, grown.options⟩

/-- A whole call: the same answer by the same changes. -/
theorem enclosed_endsParallel (bodies : Parallel stack name body other)
    (same : entry.SameBeside stack name otherEntry) :
    EndsParallel stack name entry otherEntry (enclosed setup pattern i body entry)
      (enclosed setup pattern i other otherEntry) := by
  have under : 0 < (started setup pattern i entry).depth := by
    rw [depth_started]
    exact Nat.succ_pos _
  have ends := bodies (started setup pattern i entry) (started setup pattern i otherEntry) under
    ((same.enter _).report setup pattern i .before)
  cases ended : body (started setup pattern i entry) with
  | ok outcome reached =>
      rw [ended] at ends
      obtain ⟨otherReached, otherEnded, grown⟩ := ends.of_ok
      have left := leave_grownAlike (report_grownAlike setup pattern i (.after outcome) grown)
      cases outcome with
      | some m =>
          rw [enclosed_of_found ended, enclosed_of_found otherEnded]
          exact .ok left
      | none =>
          obtain ⟨state, otherState, undone, otherUndone, restored⟩ := backtrack_grownAlike left
          rw [enclosed_of_missed ended undone, enclosed_of_missed otherEnded otherUndone]
          exact .ok restored
  | error error reached =>
      rw [ended] at ends
      obtain ⟨otherReached, otherEnded, grown⟩ := ends.of_error
      obtain ⟨state, otherState, undone, otherUndone, restored⟩ :=
        backtrack_grownAlike (leave_grownAlike grown)
      rw [enclosed_of_error ended, enclosed_of_error otherEnded, undone, otherUndone]
      exact .error restored

end Matching

/-! ## Patterns -/

/-- No pattern that this one comes to mentions the stack or the name. -/
def Graph.Unmentioned (graph : Graph) (stack name : String) (pattern : PatternId) : Prop :=
  ∀ origin, graph.Reaches pattern origin →
    (graph.kind origin).stack? ≠ some stack ∧ (graph.kind origin).boundName? ≠ some name

theorem Graph.Unmentioned.of_calls {graph : Graph} {stack name : String} {pattern next : PatternId}
    (unmentioned : graph.Unmentioned stack name pattern) (step : graph.Calls pattern next) :
    graph.Unmentioned stack name next :=
  fun origin reaches => unmentioned origin (.of_calls step reaches)

namespace Matching

variable {stack name : String}

/-- What a node makes of calls that are so. -/
theorem matchKind_parallel {setup : Setup} {pattern : PatternId} {call : Caller} (i : Nat)
    (free : setup.graph.FunctionFree pattern)
    (unmentioned : setup.graph.Unmentioned stack name pattern)
    (calls : ∀ next, setup.graph.Calls pattern next → ∀ index,
      Parallel stack name (call next index) (call next index)) :
    Parallel stack name (matchKind setup call i (setup.graph.kind pattern))
      (matchKind setup call i (setup.graph.kind pattern)) := by
  obtain ⟨noStack, noName⟩ := unmentioned pattern .refl
  refine (parallel_accesses stack name).matchKind rfl (fun _ _ _ => rfl) ?_ ?_ ?_ ?_ ?_
  · exact fun child member => calls child (Or.inl (Or.inl member))
  · exact fun _ _ rule reference target =>
      calls rule (Or.inl (Graph.leads_of_target? reference target))
  · exact fun bound mentions same => noName (same ▸ mentions)
  · exact fun used mentions same => noStack (same ▸ mentions)
  · exact fun callback found => absurd found (free pattern .refl callback)

theorem call_parallel (setup : Setup) (room : Nat) {pattern : PatternId}
    (free : setup.graph.FunctionFree pattern)
    (unmentioned : setup.graph.Unmentioned stack name pattern) (index : Nat) :
    Parallel stack name (call setup room pattern index) (call setup room pattern index) := by
  induction room generalizing pattern index with
  | zero => exact (parallel_accesses stack name).throw _
  | succ room inductionHypothesis =>
      intro entry otherEntry under same
      have sameDepth := same.depth
      simp only [call]
      by_cases deep : setup.limit ≤ entry.depth
      · rw [if_pos deep, if_pos (sameDepth ▸ deep)]
        exact (parallel_accesses stack name).throw _ entry otherEntry under same
      · rw [if_neg deep, if_neg (sameDepth ▸ deep)]
        have bodies := matchKind_parallel (min index setup.text.length) free unmentioned
          fun next step => inductionHypothesis (free.of_calls step) (unmentioned.of_calls step)
        rw [guarded_eq_settled, guarded_eq_settled]
        exact (enclosed_endsParallel bodies same).settled_of_pos under (sameDepth ▸ under)

end Matching

/-! ## Matches from the outside -/

namespace MatchState

/-- The one stack and the bindings of the one name are as in the beginning. -/
structure KeepsOwn (stack name : String) (state begun : MatchState) : Prop where
  stackTable : state.stackTable.entries stack = begun.stackTable.entries stack
  bindings : state.bindings.ofName name = begun.bindings.ofName name

/-- What two states that differ in one stack and one name have been led to: states that differ in
nothing else, each with its own stack and its own bindings of the name. -/
structure LedBeside (stack name : String) (begun otherBegun state other : MatchState) : Prop where
  same : state.SameBeside stack name other
  own : state.KeepsOwn stack name begun
  otherOwn : other.KeepsOwn stack name otherBegun

variable {stack name : String} {begun otherBegun state other : MatchState}

theorem GrownAlike.ledBeside (grown : GrownAlike stack name begun otherBegun state other)
    (same : SameBeside stack name begun otherBegun) :
    LedBeside stack name begun otherBegun state other where
  same := grown.sameBeside same
  own := by
    refine ⟨congrArg List.reverse ?_, grown.bindings.ofName.1⟩
    unfold NamedStacks.entries
    rw [grown.stackTable.own]
  otherOwn := by
    refine ⟨congrArg List.reverse ?_, grown.bindings.ofName.2⟩
    unfold NamedStacks.entries
    rw [grown.stackTable.otherOwn]

theorem SameBeside.settle (same : SameBeside stack name state other) :
    SameBeside stack name state.settle other.settle := by
  have sameDepth := same.depth
  unfold MatchState.settle
  by_cases outermost : state.depth = 0
  · rw [if_pos outermost, if_pos (sameDepth ▸ outermost)]
    exact ⟨same.bindings, same.stackTable.commit, sameDepth, same.options⟩
  · rw [if_neg outermost, if_neg (sameDepth ▸ outermost)]
    exact same

theorem KeepsOwn.settle (keeps : KeepsOwn stack name state begun) :
    KeepsOwn stack name state.settle begun where
  stackTable := (state.entries_settle stack).trans keeps.stackTable
  bindings := by rw [state.bindings_settle, keeps.bindings]

theorem LedBeside.settle (led : LedBeside stack name begun otherBegun state other) :
    LedBeside stack name begun otherBegun state.settle other.settle :=
  ⟨led.same.settle, led.own.settle, led.otherOwn.settle⟩

end MatchState

namespace Matching

variable {stack name : String} {begun otherBegun : MatchState}
  {ended otherEnded : EStateM.Result MatchError MatchState (Option Match)}

/-- Two outermost calls end alike: with one answer, and each state led there beside the other. -/
theorem EndsParallel.led (ends : EndsParallel stack name begun otherBegun ended otherEnded)
    (same : begun.SameBeside stack name otherBegun) :
    answerOf (settled otherEnded) = answerOf (settled ended) ∧
      MatchState.LedBeside stack name begun otherBegun (stateOf (settled ended))
        (stateOf (settled otherEnded)) := by
  cases ends with
  | ok grown | error grown => exact ⟨rfl, (grown.ledBeside same).settle⟩

/-- The outermost call, which settles. -/
theorem call_led (setup : Setup) (room : Nat) {pattern : PatternId}
    (free : setup.graph.FunctionFree pattern)
    (unmentioned : setup.graph.Unmentioned stack name pattern) (index : Nat)
    (same : begun.SameBeside stack name otherBegun) :
    answerOf (call setup room pattern index otherBegun) =
        answerOf (call setup room pattern index begun) ∧
      MatchState.LedBeside stack name begun otherBegun
        (stateOf (call setup room pattern index begun))
        (stateOf (call setup room pattern index otherBegun)) := by
  have refused : MatchState.LedBeside stack name begun otherBegun begun otherBegun :=
    (MatchState.GrownAlike.refl same).ledBeside same
  cases room with
  | zero => exact ⟨rfl, refused⟩
  | succ room =>
      have sameDepth := same.depth
      simp only [call]
      by_cases deep : setup.limit ≤ begun.depth
      · rw [if_pos deep, if_pos (sameDepth ▸ deep)]
        exact ⟨rfl, refused⟩
      · rw [if_neg deep, if_neg (sameDepth ▸ deep)]
        have bodies := matchKind_parallel (min index setup.text.length) free unmentioned
          fun next step => call_parallel setup room (free.of_calls step) (unmentioned.of_calls step)
        rw [guarded_eq_settled, guarded_eq_settled]
        exact (enclosed_endsParallel bodies same).led same

end Matching

namespace Graph

/-- Names and stacks that a grammar without callbacks does not mention make no difference to it.
Two matches that begin with different entries of the stack, and with different bindings of the name
among the others, have the same result. Each leaves its own as they were, and the rest is again the
same in both. -/
theorem matchIn_unmentioned {graph : Graph} {pattern : PatternId} {stack name : String}
    (free : graph.FunctionFree pattern) (unmentioned : graph.Unmentioned stack name pattern)
    {input otherInput : Input} {context otherContext : Context}
    (sameText : otherInput.text = input.text)
    (sameLimit : otherContext.config.limit = context.config.limit)
    (same : (context.state input).SameBeside stack name (otherContext.state otherInput))
    (index : Nat) :
    let run := graph.matchIn pattern input index context
    let otherRun := graph.matchIn pattern otherInput index otherContext
    otherRun.result = run.result ∧
      MatchState.LedBeside stack name (context.state input) (otherContext.state otherInput)
        (run.context.state run.input) (otherRun.context.state otherRun.input) := by
  have sameSetup : otherContext.setup graph otherInput.text = context.setup graph input.text := by
    simp only [Context.setup, sameText, sameLimit]
  have sameRoom : otherContext.config.limit - otherContext.depth =
      context.config.limit - context.depth := by
    rw [sameLimit, show otherContext.depth = context.depth from same.depth.symm]
  obtain ⟨sameResult, led⟩ := Matching.call_led (context.setup graph input.text)
    (context.config.limit - context.depth) free unmentioned index same
  dsimp only
  rw [matchIn_eq, matchIn_eq, sameSetup, sameRoom]
  exact ⟨sameResult, ⟨led.same.bindings, led.same.stackTable, led.same.depth, led.same.options⟩,
    ⟨led.own.stackTable, led.own.bindings⟩, ⟨led.otherOwn.stackTable, led.otherOwn.bindings⟩⟩

/-- Anything between two equal quotes, which are bound, with what opens it on a stack meanwhile. -/
def quoted : Graph where
  slots := #[
    some { kind := .chars 1 },
    some { kind := .backCapture "quote" 0 none },
    some { kind := .capture 0 },
    some { kind := .stackCapture "open" 2 },
    some { kind := .stackPop "open" 1 },
    some { kind := .backReference "quote" },
    some { kind := .sequence [1, 3, 4, 5] },
    some { kind := .choice [6, 2] }]

/-- The same text with a value more on the stack `s` and with two bindings more of the name `b`, one
of them below that of the quote. -/
theorem matchIn_unmentioned_quoted :
    let input : Input := { text := Text.ofString "-x-", bindings := ⟨[("quote", .text "=")]⟩ }
    let otherInput : Input := { input with
      bindings := ⟨[("b", .int 2), ("quote", .text "="), ("b", .int 1)]⟩ }
    let otherContext : Context := { stackTable := StackTable.push {} "s" (.text "kept") }
    (quoted.matchIn 7 otherInput 0 otherContext).result = (quoted.matchIn 7 input 0 {}).result ∧
      (quoted.matchIn 7 input 0 {}).result.toOption =
        some (some (Match.mk input.text 0 3 [])) := by
  intro input otherInput otherContext
  have free : quoted.FunctionFree 7 := by
    intro origin _ callback found
    match origin with
    | 0 | 1 | 2 | 3 | 4 | 5 | 6 | 7 => cases found
    | origin + 8 => cases found
  have unmentioned : quoted.Unmentioned "s" "b" 7 := by
    intro origin _
    match origin with
    | 0 | 1 | 2 | 3 | 4 | 5 | 6 | 7 => exact ⟨by decide, by decide⟩
    | origin + 8 => exact ⟨nofun, nofun⟩
  have same : (Context.state {} input).SameBeside "s" "b" (otherContext.state otherInput) := by
    refine ⟨by decide, ⟨fun another different => ?_, rfl⟩, rfl, rfl⟩
    exact ((Named.lookup_cons "s" another [Capture.text "kept"] []).trans (if_neg different)).symm
  obtain ⟨sameResult, _⟩ := matchIn_unmentioned free unmentioned
    (show otherInput.text = input.text from rfl)
    (show otherContext.config.limit = (Context.config {}).limit from rfl) same 0
  exact ⟨sameResult, by decide +kernel⟩

end Graph

end PegEngine
