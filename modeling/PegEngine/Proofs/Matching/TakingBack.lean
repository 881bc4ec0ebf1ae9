import PegEngine.Proofs.Matching.Isolation
import PegEngine.Proofs.Matching.TracedCalls

/-!
Contract: how much a call takes back, whatever the callbacks do.

Callbacks may commit changes of the stacks, or cut bindings that were there before, so that a call
that does not match need not leave the state as it was. But it never leaves more bindings or more
changes than there were, so that there is nothing left to take back for the calls around it.

Owns:
- `Matching.TakesBack`, for calls and for choices of calls;
- `guarded_of_missed`, for the end of a call whose body has nothing to take back.
-/

namespace PegEngine

namespace Bindings

variable {bindings cut : Bindings} {number : Nat}

theorem count_of_restore (restored : bindings.restore number = .ok cut) : cut.count = number := by
  unfold restore at restored
  split at restored
  · cases restored
  · cases restored
    simp only [count, List.length_drop]
    simp only [count] at *
    omega

theorem count_lt_of_restore {error : MatchError} (refused : bindings.restore number = .error error) :
    bindings.count < number := by
  unfold restore at refused
  split at refused
  · assumption
  · cases refused

end Bindings

namespace MatchState

/-- There is nothing to take back where no more is left than there was. -/
theorem backtrack_of_same {entry state : MatchState}
    (bindings : state.bindings.count = entry.bindings.count)
    (journal : state.stackTable.journal.length ≤ entry.stackTable.journal.length) :
    entry.backtrack state = (.ok (), state) := by
  have stackTable : state.stackTable.rollback entry.stackTable.checkpoint = state.stackTable :=
    StackTable.rollback_of_length_le journal
  unfold backtrack
  simp only [stackTable, ← bindings, Bindings.restore_count]

theorem state_backtrack_of_le {entry state : MatchState}
    (bindings : state.bindings.count ≤ entry.bindings.count)
    (journal : state.stackTable.journal.length ≤ entry.stackTable.journal.length) :
    (entry.backtrack state).2 = state := by
  rcases Nat.eq_or_lt_of_le bindings with same | fewer
  · rw [backtrack_of_same same journal]
  · have stackTable : state.stackTable.rollback entry.stackTable.checkpoint = state.stackTable :=
      StackTable.rollback_of_length_le journal
    unfold backtrack
    simp only [stackTable, Bindings.restore, if_pos fewer]

/-- Taking back leaves no more than there was. -/
theorem journal_backtrack_le (entry state : MatchState) :
    (entry.backtrack state).2.stackTable.journal.length ≤ entry.stackTable.journal.length := by
  have stackTable : (entry.backtrack state).2.stackTable =
      state.stackTable.rollback entry.stackTable.checkpoint := by
    unfold backtrack
    dsimp only
    split <;> rfl
  rw [stackTable, StackTable.length_journal_rollback]
  exact Nat.min_le_right ..

theorem count_backtrack_of_ok {entry state : MatchState} (done : (entry.backtrack state).1 = .ok ()) :
    (entry.backtrack state).2.bindings.count = entry.bindings.count := by
  unfold backtrack at done ⊢
  dsimp only at done ⊢
  cases restored : state.bindings.restore entry.bindings.count with
  | ok bindings => exact Bindings.count_of_restore restored
  | error error =>
      rw [restored] at done
      cases done

theorem count_backtrack_le (entry state : MatchState) :
    (entry.backtrack state).2.bindings.count ≤ entry.bindings.count := by
  cases done : (entry.backtrack state).1 with
  | ok _ => exact Nat.le_of_eq (count_backtrack_of_ok done)
  | error error =>
      unfold backtrack at done ⊢
      dsimp only at done ⊢
      cases restored : state.bindings.restore entry.bindings.count with
      | ok bindings =>
          rw [restored] at done
          cases done
      | error error => exact Nat.le_of_lt (Bindings.count_lt_of_restore restored)

theorem journal_settle_le (state : MatchState) :
    state.settle.stackTable.journal.length ≤ state.stackTable.journal.length := by
  unfold settle
  split
  · exact Nat.zero_le _
  · exact Nat.le_refl _

end MatchState

namespace Matching

/-- A call that began in `entry` and has not led to a match leaves no more than there was: without an
error as many bindings and no more changes of the stacks, and with an error no more of either. This
is so whatever the callbacks do. -/
inductive TakesBack (entry : MatchState) :
    EStateM.Result MatchError MatchState (Option Match) → Prop where
  | found {m : Match} {state : MatchState} : TakesBack entry (.ok (some m) state)
  | missed {state : MatchState} (bindings : state.bindings.count = entry.bindings.count)
      (journal : state.stackTable.journal.length ≤ entry.stackTable.journal.length) :
      TakesBack entry (.ok none state)
  | failed {error : MatchError} {state : MatchState}
      (bindings : state.bindings.count ≤ entry.bindings.count)
      (journal : state.stackTable.journal.length ≤ entry.stackTable.journal.length) :
      TakesBack entry (.error error state)

theorem guarded_takesBack (setup : Setup) (pattern : PatternId) (i : Nat)
    (body : MatchM (Option Match)) (entry : MatchState) :
    TakesBack entry (guarded setup pattern i body entry) := by
  -- Whatever the body has left, this much holds once it is taken back.
  have bindings (left : MatchState) : (entry.backtrack left).2.settle.bindings.count ≤
      entry.bindings.count := by
    rw [MatchState.bindings_settle]
    exact MatchState.count_backtrack_le entry left
  have journal (left : MatchState) : (entry.backtrack left).2.settle.stackTable.journal.length ≤
      entry.stackTable.journal.length :=
    Nat.le_trans (MatchState.journal_settle_le _) (MatchState.journal_backtrack_le entry left)
  unfold guarded
  dsimp only
  split
  · next outcome reached _ =>
      cases outcome with
      | some m => exact .found
      | none =>
          let left := entry.leave (setup.graph.node pattern)
            (reached.report setup pattern i (.after none))
          have fewer := bindings left
          have shorter := journal left
          have same := @MatchState.count_backtrack_of_ok entry left
          dsimp only
          generalize entry.backtrack left = taken at fewer shorter same
          obtain ⟨result, state⟩ := taken
          cases result with
          | ok _ =>
              refine .missed ?_ shorter
              rw [MatchState.bindings_settle]
              exact same rfl
          | error error => exact .failed fewer shorter
  · exact .failed (bindings _) (journal _)

/-- What is seen of the entry is the same where the body of a call starts. -/
theorem TakesBack.of_started {setup : Setup} {pattern : PatternId} {i : Nat} {entry : MatchState}
    {ended : EStateM.Result MatchError MatchState (Option Match)}
    (takesBack : TakesBack (started setup pattern i entry) ended) : TakesBack entry ended := by
  obtain ⟨trace, reported⟩ := report_eq setup pattern i .before
    (entry.enter (setup.graph.node pattern))
  unfold started at takesBack
  rw [reported] at takesBack
  cases takesBack with
  | found => exact .found
  | missed bindings journal => exact .missed bindings journal
  | failed bindings journal => exact .failed bindings journal

theorem call_takesBack (setup : Setup) (room : Nat) (pattern : PatternId) (index : Nat)
    (entry : MatchState) : TakesBack entry (call setup room pattern index entry) := by
  cases room with
  | zero => exact .failed (Nat.le_refl _) (Nat.le_refl _)
  | succ room =>
      simp only [call]
      split
      · exact .failed (Nat.le_refl _) (Nat.le_refl _)
      · exact guarded_takesBack ..

/-- Alternatives that do not match one after the other leave no more than one that does not. -/
theorem matchChoice_takesBack {call : Caller} {i : Nat} {items : List PatternId}
    (calls : ∀ item entry, TakesBack entry (call item i entry)) (entry : MatchState) :
    TakesBack entry (matchChoice call i items entry) := by
  induction items generalizing entry with
  | nil => exact .missed rfl (Nat.le_refl _)
  | cons item rest inductionHypothesis =>
      have first := calls item entry
      simp only [matchChoice, bind_apply]
      generalize call item i entry = ended at first
      cases first with
      | found => exact .found
      | failed bindings journal => exact .failed bindings journal
      | @missed state bindings journal =>
          have further := inductionHypothesis state
          dsimp only
          generalize matchChoice call i rest state = restEnded at further
          cases further with
          | found => exact .found
          | missed restBindings restJournal =>
              exact .missed (restBindings.trans bindings) (Nat.le_trans restJournal journal)
          | failed restBindings restJournal =>
              exact .failed (Nat.le_trans restBindings (Nat.le_of_eq bindings))
                (Nat.le_trans restJournal journal)

section Nothing

variable {setup : Setup} {item : PatternId} {i : Nat}

/-- A call that has nothing to take back ends in the state that its body has left. -/
theorem guarded_of_missed {entry reached : MatchState} {body : MatchM (Option Match)}
    (ended : body (started setup item i entry) = .ok none reached)
    (bindings : reached.bindings.count = entry.bindings.count)
    (journal : reached.stackTable.journal.length ≤ entry.stackTable.journal.length) :
    guarded setup item i body entry = .ok none (entry.leave (setup.graph.node item)
      (reached.report setup item i (.after none))).settle := by
  obtain ⟨trace, reported⟩ := report_eq setup item i (.after none) reached
  have nothing : entry.backtrack (entry.leave (setup.graph.node item)
      (reached.report setup item i (.after none))) =
        (.ok (), entry.leave (setup.graph.node item)
          (reached.report setup item i (.after none))) := by
    rw [reported]
    exact MatchState.backtrack_of_same bindings journal
  rw [guarded_eq_settled, enclosed_of_missed ended nothing, settled]

theorem state_guarded_of_failed {entry reached : MatchState} {body : MatchM (Option Match)}
    {error : MatchError} (ended : body (started setup item i entry) = .error error reached)
    (bindings : reached.bindings.count ≤ entry.bindings.count)
    (journal : reached.stackTable.journal.length ≤ entry.stackTable.journal.length) :
    stateOf (guarded setup item i body entry) =
      (entry.leave (setup.graph.node item) reached).settle := by
  rw [guarded_eq_settled, enclosed_of_error ended]
  exact congrArg MatchState.settle (MatchState.state_backtrack_of_le bindings journal)

/-- A call that has nothing to take back has the answer of its body. -/
theorem answer_guarded_of_takesBack {entry : MatchState} {body : MatchM (Option Match)}
    (takesBack : TakesBack entry (body (started setup item i entry))) :
    answerOf (guarded setup item i body entry) =
      (answerOf (body (started setup item i entry))).mapError
        (·.inPattern (setup.graph.name? item)) := by
  generalize ended : body (started setup item i entry) = bodyEnded at takesBack
  cases takesBack with
  | found =>
      rw [guarded_of_found ended]
      rfl
  | missed bindings journal =>
      rw [guarded_of_missed ended bindings journal]
      rfl
  | failed =>
      rw [guarded_of_failed ended]
      rfl

end Nothing

end Matching

end PegEngine
