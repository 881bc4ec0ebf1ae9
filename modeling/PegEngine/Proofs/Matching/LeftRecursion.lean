import Mathlib.Data.Fintype.Pigeonhole
import PegEngine.Proofs.Matching.Isolation
import PegEngine.Proofs.Matching.Routine

/-!
Contract: left recursion is always reported.

Most nodes begin with a call of one and the same part, at their own position and before they have
looked at or changed anything: their leftmost part. A pattern whose leftmost parts go on without end
calls them one inside the other until the limit refuses a call. The error ends all of them, so
neither a negation nor a further alternative nor an optional repetition around it gets to answer.

Owns:
- `Graph.leftmost?` and `Graph.LeftRecursive`;
- `leftRecursive_iff_returns`: in a finite graph the chain is endless if it comes back to a node;
- `Routine.ofKind_leftmost`, the first request of such a node;
- `Graph.matchIn_leftRecursive`.
-/

namespace PegEngine

namespace Graph

/-- The part that a match of the pattern calls first, whatever the text and the state. -/
def leftmost? (graph : Graph) (pattern : PatternId) : Option PatternId :=
  match graph.kind pattern with
  | .sequence items | .choice items => items.head?
  | .capture body | .group body _ | .backCapture _ body _ | .stackCapture _ body | .negative body
  | .positive body | .select body _ _ | .transform body _ => some body
  | .repetition body count =>
      match count with
      | .atMost 0 | .exactly 0 => none
      | _ => some body
  | .reference _ cell => graph.target? cell
  | _ => none

/-- The node that `count` steps from a pattern to its leftmost part lead to. -/
def leftmostAfter? (graph : Graph) : (count : Nat) → PatternId → Option PatternId
  | 0, pattern => some pattern
  | count + 1, pattern => (graph.leftmost? pattern).bind (graph.leftmostAfter? count)

/-- The chain of leftmost parts never ends. -/
def LeftRecursive (graph : Graph) (pattern : PatternId) : Prop :=
  ∀ count, (graph.leftmostAfter? count pattern).isSome

/-- The chain of leftmost parts comes back to a node on it. -/
def ReturnsLeftmost (graph : Graph) (pattern : PatternId) : Prop :=
  ∃ first again node, graph.leftmostAfter? first pattern = some node ∧
    0 < again ∧ graph.leftmostAfter? again node = some node

variable {graph : Graph} {pattern part : PatternId}

theorem leftmostAfter?_add (graph : Graph) (first later : Nat) (pattern : PatternId) :
    graph.leftmostAfter? (first + later) pattern =
      (graph.leftmostAfter? first pattern).bind (graph.leftmostAfter? later) := by
  induction first generalizing pattern with
  | zero =>
      rw [Nat.zero_add]
      rfl
  | succ first inductionHypothesis =>
      rw [Nat.succ_add]
      simp only [leftmostAfter?, Option.bind_assoc, inductionHypothesis]

/-- What begins with a part is a node of the graph. -/
theorem lt_size_of_leftmost? (begins : graph.leftmost? pattern = some part) :
    pattern < graph.slots.size := by
  cases found : graph.node? pattern with
  | some node => exact lt_size_of_node? found
  | none =>
      have gone : graph.kind pattern = .constant false := by
        simp [kind, node, found, Node.absent]
      simp [leftmost?, gone] at begins

theorem LeftRecursive.step (recursive : graph.LeftRecursive pattern) :
    ∃ part, graph.leftmost? pattern = some part ∧ graph.LeftRecursive part := by
  obtain ⟨part, begins⟩ := Option.isSome_iff_exists.mp (recursive 1)
  have begins : graph.leftmost? pattern = some part := by simpa [leftmostAfter?] using begins
  refine ⟨part, begins, fun count => ?_⟩
  simpa [leftmostAfter?, begins] using recursive (count + 1)

theorem LeftRecursive.lt_size (recursive : graph.LeftRecursive pattern) :
    pattern < graph.slots.size := by
  obtain ⟨part, begins, _⟩ := recursive.step
  exact lt_size_of_leftmost? begins

theorem LeftRecursive.after (recursive : graph.LeftRecursive pattern) {count : Nat}
    {node : PatternId} (leads : graph.leftmostAfter? count pattern = some node) :
    graph.LeftRecursive node := by
  intro later
  simpa [leftmostAfter?_add, leads] using recursive (count + later)

/-- An endless chain visits one of the finitely many nodes twice. -/
theorem LeftRecursive.returns (recursive : graph.LeftRecursive pattern) :
    graph.ReturnsLeftmost pattern := by
  let visited (count : Nat) : Fin graph.slots.size :=
    ⟨(graph.leftmostAfter? count pattern).get (recursive count),
      (recursive.after (Option.some_get (recursive count)).symm).lt_size⟩
  have visits : ∀ count, graph.leftmostAfter? count pattern = some (visited count).1 :=
    fun count => (Option.some_get (recursive count)).symm
  obtain ⟨first, second, differ, same⟩ := Finite.exists_ne_map_eq_of_infinite visited
  wlog earlier : first < second generalizing first second
  · exact this second first differ.symm same.symm (by omega)
  refine ⟨first, second - first, visited first, visits first, by omega, ?_⟩
  have split := leftmostAfter?_add graph first (second - first) pattern
  rw [Nat.add_sub_cancel' (Nat.le_of_lt earlier), visits, visits] at split
  rw [← same] at split
  exact split.symm

theorem leftmostAfter?_mul {again : Nat} (back : graph.leftmostAfter? again pattern = some pattern)
    (rounds : Nat) : graph.leftmostAfter? (again * rounds) pattern = some pattern := by
  induction rounds with
  | zero => rfl
  | succ rounds inductionHypothesis =>
      rw [Nat.mul_succ, leftmostAfter?_add, inductionHypothesis]
      exact back

theorem ReturnsLeftmost.leftRecursive (returns : graph.ReturnsLeftmost pattern) :
    graph.LeftRecursive pattern := by
  obtain ⟨first, again, node, leads, positive, back⟩ := returns
  intro count
  have long : count ≤ first + again * count := by
    have rounds := Nat.le_mul_of_pos_left count positive
    omega
  have far : graph.leftmostAfter? (first + again * count) pattern = some node := by
    rw [leftmostAfter?_add, leads]
    exact leftmostAfter?_mul back count
  obtain ⟨rest, same⟩ := Nat.exists_eq_add_of_le long
  rw [same, leftmostAfter?_add] at far
  exact Option.isSome_of_isSome_bind (by rw [far]; rfl)

/-- The chain of leftmost parts never ends exactly if it comes back to a node on it. -/
theorem leftRecursive_iff_returns : graph.LeftRecursive pattern ↔ graph.ReturnsLeftmost pattern :=
  ⟨LeftRecursive.returns, ReturnsLeftmost.leftRecursive⟩

end Graph

namespace Matching

/-- A node begins with a call of its leftmost part at its own position. -/
theorem Routine.ofKind_leftmost {setup : Setup} {pattern part : PatternId}
    (begins : setup.graph.leftmost? pattern = some part) (i : Nat) :
    ∃ next, Routine.ofKind setup i (setup.graph.kind pattern) = .invoke part i next := by
  unfold Graph.leftmost? at begins
  generalize setup.graph.kind pattern = kind at begins ⊢
  cases kind with
  | literal | charSet | chars | rest | constant | function | startOfLine | endOfLine | value
  | position | line | column | backReference | stackPop | stackMatch | stackSize => cases begins
  | capture body | group body | negative body | positive body | select body | backCapture _ body
  | stackCapture _ body | transform body =>
      cases begins
      exact ⟨_, rfl⟩
  | sequence items | choice items =>
      cases items with
      | nil => cases begins
      | cons item rest =>
          cases begins
          exact ⟨_, rfl⟩
  | repetition body count =>
      cases count with
      | atLeast minimum =>
          cases begins
          exact ⟨_, atLeast.eq_def part minimum _ 0 (setup.text.matchOver i i)⟩
      | atMost maximum | exactly maximum =>
          cases maximum with
          | zero => cases begins
          | succ maximum =>
              cases begins
              exact ⟨_, rfl⟩
  | reference name cell =>
      change setup.graph.target? cell = some part at begins
      simp only [ofKind, reference, begins]
      exact ⟨_, rfl⟩

/-- A call at `index` has ended at the limit and left what it found. -/
structure FailsAtLimit (setup : Setup) (index : Nat) (entry : MatchState)
    (ended : EStateM.Result MatchError MatchState (Option Match)) : Prop where
  answer : answerOf ended =
    .error (.recursionLimit setup.limit (min index setup.text.length))
  left : ∃ left : MatchState, left.Restores entry ∧
    (stateOf ended = left ∨ stateOf ended = left.settle)

/-- What neither restoring nor settling changes is as it was found. -/
theorem FailsAtLimit.unchanged {setup : Setup} {index : Nat} {entry : MatchState}
    {ended : EStateM.Result MatchError MatchState (Option Match)}
    (fails : FailsAtLimit setup index entry ended) {α : Type} (look : MatchState → α)
    (restores : ∀ left : MatchState, left.Restores entry → look left = look entry)
    (settles : ∀ left : MatchState, look left.settle = look left) :
    look (stateOf ended) = look entry := by
  obtain ⟨left, restored, same | same⟩ := fails.left
  · rw [same, restores left restored]
  · rw [same, settles, restores left restored]

section Protocol

variable {setup : Setup} {pattern : PatternId} {i : Nat} {entry : MatchState}

theorem refuse_failsAtLimit (setup : Setup) (index : Nat) (entry : MatchState) :
    FailsAtLimit setup index entry (refuse setup index entry) where
  answer := rfl
  left := ⟨entry, ⟨rfl, .refl _, rfl, rfl⟩, Or.inl rfl⟩

/-- The error of a call inside is the end of the node that makes it first. -/
theorem matchKind_leftmost {call : Caller} {part : PatternId}
    (begins : setup.graph.leftmost? pattern = some part)
    (fails : FailsAtLimit setup i entry (call part i entry)) :
    FailsAtLimit setup i entry (matchKind setup call i (setup.graph.kind pattern) entry) := by
  obtain ⟨next, first⟩ := Routine.ofKind_leftmost begins i
  rw [matchKind_eq, first, Routine.run, bind_apply]
  cases ended : call part i entry with
  | ok outcome reached =>
      rw [ended] at fails
      cases fails.answer
  | error error reached =>
      rw [ended] at fails
      exact ⟨fails.answer, fails.left⟩

/-- Taking back leads to what there was before the call. -/
theorem guarded_failsAtLimit {body : MatchM (Option Match)}
    (fails : FailsAtLimit setup i (started setup pattern i entry)
      (body (started setup pattern i entry))) :
    FailsAtLimit setup i entry (guarded setup pattern i body entry) := by
  have under : 0 < (started setup pattern i entry).depth := by
    rw [depth_started]
    exact Nat.succ_pos _
  have sameStart : started setup pattern i entry =
      (entry.enter (setup.graph.node pattern)).report setup pattern i .before := rfl
  unfold guarded
  dsimp only
  rw [← sameStart]
  obtain ⟨answer, left, restored, settled⟩ := fails
  cases ended : body (started setup pattern i entry) with
  | ok outcome reached =>
      rw [ended] at answer
      cases answer
  | error error reached =>
      rw [ended] at answer settled
      cases answer
      have same : reached = left := by
        rcases settled with same | same
        · exact same
        · exact same.trans (MatchState.settle_of_pos (restored.depth.symm ▸ under))
      subst same
      have grown : (entry.leave (setup.graph.node pattern) reached).Extends entry :=
        .leave (restored.extends.trans started_extends)
      obtain ⟨back, undone, restored⟩ := MatchState.backtrack_of_extends grown
      dsimp only
      rw [undone]
      exact ⟨rfl, back, restored, Or.inr rfl⟩

end Protocol

/-- A call of a left-recursive pattern goes one call deeper at the same position until the limit is
reached. -/
theorem call_failsAtLimit {setup : Setup} {pattern : PatternId}
    (recursive : setup.graph.LeftRecursive pattern) (room index : Nat) (entry : MatchState) :
    FailsAtLimit setup index entry (call setup room pattern index entry) := by
  induction room generalizing pattern index entry with
  | zero => exact refuse_failsAtLimit setup index entry
  | succ room inductionHypothesis =>
      obtain ⟨part, begins, deeper⟩ := recursive.step
      simp only [call]
      split
      · exact refuse_failsAtLimit setup index entry
      · have inside : min (min index setup.text.length) setup.text.length =
            min index setup.text.length := by omega
        obtain ⟨answer, left⟩ := guarded_failsAtLimit
          (matchKind_leftmost begins
            (inductionHypothesis deeper (min index setup.text.length)
              (started setup pattern (min index setup.text.length) entry)))
        rw [inside] at answer
        exact ⟨answer, left⟩

end Matching

namespace Graph

variable {graph : Graph} {pattern : PatternId}

/-- A chain of leftmost parts that never ends comes back to a node on it, and the match of such a
pattern is an error about the limit, at the position of the match, that leaves bindings and stacks
as they were. -/
theorem matchIn_leftRecursive (recursive : graph.LeftRecursive pattern) (input : Input)
    (index : Nat) (context : Context) :
    let run := graph.matchIn pattern input index context
    graph.ReturnsLeftmost pattern ∧
      run.result = .error (.recursionLimit context.config.limit (min index input.text.length)) ∧
      run.input = input ∧
      (∀ stack, run.context.stackTable.entries stack = context.stackTable.entries stack) ∧
      run.context.depth = context.depth ∧ run.context.config = context.config := by
  intro run
  have same : run = _ := graph.matchIn_eq pattern input index context
  have fails := @Matching.call_failsAtLimit (context.setup graph input.text) pattern recursive
    (context.config.limit - context.depth) index (context.state input)
  rw [same]
  refine ⟨recursive.returns, fails.answer, ?_, fun stack => ?_, ?_, ?_⟩
  · have bindings := fails.unchanged (·.bindings) (fun _ => (·.bindings)) (·.bindings_settle)
    exact congrArg (fun bindings => { input with bindings }) bindings
  · exact fails.unchanged (·.stackTable.entries stack) (fun _ => (·.stackTable.entries stack))
      (·.entries_settle stack)
  · exact fails.unchanged (·.depth) (fun _ => (·.depth)) (·.depth_settle)
  · have options := fails.unchanged (·.options) (fun _ => (·.options)) (·.options_settle)
    exact congrArg (fun trace => { context.config with trace }) options

/-- A rule that begins with itself behind a negation that may be left out, where other alternatives
would match. -/
def beginsWithItself : Graph where
  slots := #[
    some { kind := .literal ['a'] },
    some { kind := .reference "rule" 0 },
    some { kind := .negative 1 },
    some { kind := .repetition 2 (.atMost 1) },
    some { kind := .choice [3, 0] },
    some { kind := .sequence [4, 0], name := some "rule" }]
  cells := #[.weak 5]

theorem matchIn_leftRecursive_beginsWithItself :
    beginsWithItself.LeftRecursive 5 ∧
      (beginsWithItself.matchIn 5 (.ofString "aa") 7 {}).result =
        .error (.recursionLimit 256 2) := by
  have recursive : beginsWithItself.LeftRecursive 5 :=
    ReturnsLeftmost.leftRecursive ⟨0, 5, 5, rfl, by decide, by decide⟩
  exact ⟨recursive, (matchIn_leftRecursive recursive (.ofString "aa") 7 {}).2.1⟩

end Graph

end PegEngine
