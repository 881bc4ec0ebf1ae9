import Mathlib.Data.List.Basic
import PegEngine.Proofs.Matching.Spans

/-!
Contract: captures stand in the order of the text.

A part of a match lies behind the parts before it, and what it captures lies inside the part. So
captured positions ascend from left to right, through lists of captures as well, and captured texts
are pieces of what is matched. Nodes that take captures from elsewhere are left out: functions,
transforms, constant values and defaults. So are looks ahead, which keep captures that lie behind
their match.

Owns:
- `Capture.leaves` and `Capture.positions`, which read captures through lists;
- `Capture.InOrder`, for the captures of one part of a text, with one lemma for each way to put
  captures together;
- `Kind.capturesInPlace` and `Graph.CapturesInPlace`, for the nodes that may come up;
- `Graph.captures_inOrder`, for every match in every state.
-/

namespace PegEngine

namespace Capture

def asPosition? : Capture → Option Nat
  | .position value => some value
  | _ => none

mutual

/-- The captures in a capture that are no lists, from left to right. -/
def leaves : Capture → List Capture
  | .list items => leavesAll items
  | leaf => [leaf]

def leavesAll : List Capture → List Capture
  | [] => []
  | item :: rest => item.leaves ++ leavesAll rest

end

theorem leavesAll_append (captures others : List Capture) :
    leavesAll (captures ++ others) = leavesAll captures ++ leavesAll others := by
  induction captures with
  | nil => simp [leavesAll]
  | cons item rest inductionHypothesis => simp [leavesAll, inductionHypothesis]

/-- The positions among captures, read from left to right through lists. -/
def positions (captures : List Capture) : List Nat :=
  (leavesAll captures).filterMap asPosition?

/-- A capture that comes from the part of a text from `start` to `stop`: a position in it, or a text
that is a piece of it. Numbers that are no positions may be any. -/
def LiesIn (text : Text) (start stop : Nat) : Capture → Prop
  | .position value => start ≤ value ∧ value ≤ stop
  | .text value =>
      ∃ first last, start ≤ first ∧ first ≤ last ∧ last ≤ stop ∧ value = text.slice first last
  | _ => True

theorem LiesIn.widen {text : Text} {start stop earlier later : Nat} {capture : Capture}
    (lies : capture.LiesIn text start stop) (before : earlier ≤ start) (behind : stop ≤ later) :
    capture.LiesIn text earlier later := by
  cases capture with
  | position value =>
      obtain ⟨lower, upper⟩ := lies
      exact ⟨Nat.le_trans before lower, Nat.le_trans upper behind⟩
  | text value =>
      obtain ⟨first, last, lower, ordered, upper, same⟩ := lies
      exact ⟨first, last, Nat.le_trans before lower, ordered, Nat.le_trans upper behind, same⟩
  | _ => trivial

theorem liesIn_of_mem_positions {text : Text} {start stop value : Nat} {captures : List Capture}
    (lies : ∀ leaf ∈ leavesAll captures, leaf.LiesIn text start stop)
    (member : value ∈ positions captures) : start ≤ value ∧ value ≤ stop := by
  obtain ⟨leaf, isLeaf, isPosition⟩ := List.mem_filterMap.mp member
  cases leaf with
  | position other =>
      cases isPosition
      exact lies _ isLeaf
  | _ => cases isPosition

/-- The captures of the part of a text from `start` to `stop`: they come from it, and positions
ascend. -/
structure InOrder (text : Text) (start stop : Nat) (captures : List Capture) : Prop where
  ascending : (positions captures).Pairwise (· ≤ ·)
  within : ∀ leaf ∈ leavesAll captures, leaf.LiesIn text start stop

namespace InOrder

variable {text : Text} {start middle stop : Nat} {captures others : List Capture}

theorem nil : InOrder text start stop [] := by
  constructor <;> simp [positions, leavesAll]

theorem single {capture : Capture} (isLeaf : capture.leaves = [capture])
    (lies : capture.LiesIn text start stop) : InOrder text start stop [capture] := by
  have only : leavesAll [capture] = [capture] := by rw [leavesAll, isLeaf, leavesAll]; rfl
  refine ⟨?_, fun leaf member => ?_⟩
  · rw [positions, only, List.filterMap_cons]
    cases asPosition? capture <;> simp
  · rw [only] at member
    rwa [List.mem_singleton.mp member]

/-- What the second part captures lies behind what the first one does. -/
theorem append (first : InOrder text start middle captures)
    (second : InOrder text middle stop others) (order : start ≤ middle) (later : middle ≤ stop) :
    InOrder text start stop (captures ++ others) := by
  constructor
  case ascending =>
    rw [positions, leavesAll_append, List.filterMap_append]
    refine List.pairwise_append.mpr ⟨first.ascending, second.ascending, ?_⟩
    intro a inFirst b inSecond
    have upper := (liesIn_of_mem_positions first.within inFirst).2
    exact Nat.le_trans upper (liesIn_of_mem_positions second.within inSecond).1
  case within =>
    intro leaf member
    rw [leavesAll_append, List.mem_append] at member
    rcases member with inFirst | inSecond
    · exact (first.within leaf inFirst).widen (Nat.le_refl _) later
    · exact (second.within leaf inSecond).widen order (Nat.le_refl _)

/-- The text of the whole part goes in front of the captures of the part. -/
theorem cons_text (inOrder : InOrder text start stop captures) (order : start ≤ stop) :
    InOrder text start stop (.text (text.slice start stop) :: captures) where
  ascending := inOrder.ascending
  within leaf member := by
    rcases List.mem_cons.mp member with rfl | later
    · exact ⟨start, stop, Nat.le_refl _, order, Nat.le_refl _, rfl⟩
    · exact inOrder.within leaf later

/-- With fewer leaves in the same order. -/
theorem sublist (inOrder : InOrder text start stop captures)
    (fewer : (leavesAll others).Sublist (leavesAll captures)) :
    InOrder text start stop others :=
  ⟨inOrder.ascending.sublist (fewer.filterMap _),
    fun leaf member => inOrder.within leaf (fewer.subset member)⟩

theorem list (inOrder : InOrder text start stop captures) :
    InOrder text start stop [.list captures] :=
  inOrder.sublist (by simp [leavesAll, leaves])

theorem select (inOrder : InOrder text start stop captures) {capture : Capture}
    (member : capture ∈ captures) : InOrder text start stop [capture] := by
  refine inOrder.sublist ?_
  obtain ⟨front, rest, rfl⟩ := List.append_of_mem member
  simp [leavesAll_append, leavesAll]

end InOrder

theorem mem_of_pick? {captures : List Capture} {index : Int} {capture : Capture}
    (picked : pick? captures index = some capture) : capture ∈ captures := by
  unfold pick? at picked
  split at picked
  · split at picked
    · exact List.mem_of_getElem? picked
    · cases picked
  · exact List.mem_of_getElem? picked

end Capture

/-- What the match captures comes from the text that it spans. -/
def Kind.capturesInPlace : Kind → Bool
  | .function _ | .transform _ _ | .value _ | .positive _ | .select _ _ (some _) => false
  | _ => true

/-- All nodes that can come up in a match of the pattern capture what they match. -/
def Graph.CapturesInPlace (graph : Graph) (pattern : PatternId) : Prop :=
  ∀ origin, graph.Reaches pattern origin → (graph.kind origin).capturesInPlace

/-- A match at a position over a part of the text, whose captures are in the order of the text. -/
structure Match.CapturesInOrder (m : Match) (text : Text) (i : Nat) : Prop where
  source : m.source = text
  start : m.start = i
  order : i ≤ m.stop
  inside : m.stop ≤ text.length
  captures : Capture.InOrder text i m.stop m.captures

namespace Match.CapturesInOrder

variable {text : Text} {i : Nat} {m : Match}

theorem recapture (holds : m.CapturesInOrder text i) {captures : List Capture}
    (inOrder : Capture.InOrder text i m.stop captures) :
    Match.CapturesInOrder { m with captures } text i :=
  ⟨holds.source, holds.start, holds.order, holds.inside, inOrder⟩

theorem captureText (holds : m.CapturesInOrder text i) :
    (Matching.captureText m).CapturesInOrder text i := by
  have value : m.value = text.slice i m.stop := by
    unfold Match.value
    rw [holds.source, holds.start]
  unfold Matching.captureText
  rw [value]
  exact holds.recapture (holds.captures.cons_text holds.order)

theorem collectCaptures (holds : m.CapturesInOrder text i) (dropEmpty : Bool) :
    (Matching.collectCaptures dropEmpty m).CapturesInOrder text i := by
  unfold Matching.collectCaptures
  split
  · exact holds
  · exact holds.recapture holds.captures.list

theorem selectCapture (holds : m.CapturesInOrder text i) (index : Int) :
    (Matching.selectCapture text i index none m).CapturesInOrder text i := by
  refine ⟨rfl, rfl, holds.order, holds.inside, ?_⟩
  simp only [Matching.selectCapture]
  cases picked : m.capture? index with
  | none => exact .nil
  | some capture => exact holds.captures.select (Capture.mem_of_pick? picked)

end Match.CapturesInOrder

namespace Matching

theorem partLaw_capturesInOrder (text : Text) :
    PartLaw text fun i m => m.CapturesInOrder text i where
  plain later inside := ⟨rfl, rfl, later, inside, .nil⟩
  append := by
    intro i m part first next
    rw [Nat.min_eq_left first.inside] at next
    exact ⟨first.source, first.start, Nat.le_trans first.order next.order, next.inside,
      first.captures.append next.captures first.order next.order⟩

theorem matchKind_capturesInOrder {setup : Setup} {call : Caller} {i : Nat}
    (inside : i ≤ setup.text.length) {pattern : PatternId}
    (inPlace : (setup.graph.kind pattern).capturesInPlace)
    (calls : ∀ next, setup.graph.Calls pattern next →
      CallsAnswer setup.text (fun i m => m.CapturesInOrder setup.text i) call next) :
    Ensures (Answers (fun i m => m.CapturesInOrder setup.text i) i)
      (matchKind setup call i (setup.graph.kind pattern)) := by
  refine matchKind_answers_of_parts (partLaw_capturesInOrder _) inside calls fun changing => ?_
  have own : ∀ child, (setup.graph.kind pattern).children = [child] →
      Ensures (Answers (fun i m => m.CapturesInOrder setup.text i) i) (call child i) :=
    fun child only => (calls child (Or.inl (Or.inl (by simp [only])))).at inside
  have ofPoint : ∀ {value}, Capture.InOrder setup.text i i [value] →
      Answers (fun i m => m.CapturesInOrder setup.text i) i (zeroWidthValue setup.text i value) :=
    fun inOrder => answers_some ⟨rfl, rfl, Nat.le_refl i, inside, inOrder⟩
  generalize setup.graph.kind pattern = kind at own inPlace changing ⊢
  cases kind with
  | function | transform | value | positive => cases inPlace
  | position => exact .pure (ofPoint (.single rfl ⟨Nat.le_refl i, Nat.le_refl i⟩))
  | line | column => exact .pure (ofPoint (.single rfl trivial))
  | stackSize stack expected =>
      refine .bind_any fun _ => .pure ?_
      cases expected with
      | none => exact ofPoint (.single rfl trivial)
      | some expected => exact zeroWidthIf_answers (partLaw_capturesInOrder _) inside _
  | capture body =>
      exact .bind (own body rfl) fun _ answers =>
        .pure (answers.map fun _ holds => holds.captureText)
  | group body dropEmpty =>
      exact .bind (own body rfl) fun _ answers =>
        .pure (answers.map fun _ holds => holds.collectCaptures dropEmpty)
  | stackCapture stack body =>
      refine .bind (own body rfl) fun outcome answers => ?_
      cases outcome with
      | none => exact .pure answers_none
      | some m => exact .bind_any fun _ => .pure (answers_some ((answers m rfl).recapture .nil))
  | select body index default =>
      cases default with
      | some value => cases inPlace
      | none =>
          exact .bind (own body rfl) fun _ answers =>
            .pure (answers.map fun _ holds => holds.selectCapture index)
  | _ => cases changing

/-- The calls of a pattern answer with matches whose captures are in order. -/
theorem call_capturesInOrder {setup : Setup} (room : Nat) {pattern : PatternId}
    (inPlace : setup.graph.CapturesInPlace pattern) :
    CallsAnswer setup.text (fun i m => m.CapturesInOrder setup.text i) (call setup room) pattern :=
  call_answers_of_nodes room fun origin reaches _ _ inside calls =>
    matchKind_capturesInOrder inside (inPlace origin reaches) calls

end Matching

namespace Graph

/-- What a match captures comes from the text that it spans, with positions that ascend. Bindings
and stacks may hold anything, since neither ever gives a capture back. -/
theorem captures_inOrder {graph : Graph} {pattern : PatternId}
    (inPlace : graph.CapturesInPlace pattern) (input : Input) (index : Nat) (context : Context)
    {m : Match} (found : (graph.matchIn pattern input index context).result = .ok (some m)) :
    Capture.InOrder input.text m.start m.stop m.captures := by
  have holds : m.CapturesInOrder input.text (min index input.text.length) :=
    @matchIn_answers_of_calls graph pattern input index context m
      (fun i m => m.CapturesInOrder input.text i)
      (fun room => Matching.call_capturesInOrder room inPlace) found
  rw [holds.start]
  exact holds.captures

/-- Words with a comma behind each but the last, each in a list with the positions around it. -/
def wordList : Graph where
  slots := #[
    some { kind := .position },
    some { kind := .chars 1 },
    some { kind := .capture 1 },
    some { kind := .literal [','] },
    some { kind := .sequence [0, 2, 0, 3] },
    some { kind := .sequence [0, 2, 0] },
    some { kind := .choice [4, 5] },
    some { kind := .group 6 false },
    some { kind := .repetition 7 (.atLeast 1) },
    some { kind := .sequence [0, 8, 0] }]

/-- The last word is read twice, since no comma is behind it. -/
theorem captures_inOrder_wordList :
    let captures : List Capture := [.position 0, .list [.position 0, .text "a", .position 1],
      .list [.position 2, .text "b", .position 3], .position 3]
    wordList.CapturesInPlace 9 ∧
      (wordList.matchIn 9 { text := .ofString "a,b" } 0 {}).result =
        .ok (some { source := .ofString "a,b", start := 0, stop := 3, captures }) ∧
      Capture.InOrder (.ofString "a,b") 0 3 captures := by
  intro captures
  have inPlace : wordList.CapturesInPlace 9 := by
    intro origin _
    match origin with
    | 0 | 1 | 2 | 3 | 4 | 5 | 6 | 7 | 8 | 9 => rfl
    | origin + 10 => rfl
  have found : (wordList.matchIn 9 { text := .ofString "a,b" } 0 {}).result =
      .ok (some { source := .ofString "a,b", start := 0, stop := 3, captures }) := by
    decide +kernel
  exact ⟨inPlace, found, captures_inOrder inPlace { text := .ofString "a,b" } 0 {} found⟩

end Graph

end PegEngine
