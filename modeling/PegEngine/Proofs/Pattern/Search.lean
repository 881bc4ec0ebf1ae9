import Mathlib.Data.Nat.Find
import Mathlib.Order.Bounds.Defs
import PegEngine.Proofs.Matching.Flattening
import PegEngine.Proofs.Matching.Trying
import PegEngine.Proofs.Pattern.Splicing

/-!
Contract: a search for a pattern comes to the first place where the pattern matches.

A search tries the pattern at one place after the other, each time under a negation and inside other
calls, and it tries it once more if it goes through it. So a pattern that can tell these tries from
one on its own, or that leaves something behind after a try, may be found elsewhere or not at all.

Owns:
- `Graph.IsSearch` and `Build.makes_upTo`, the nodes that a search is made of;
- `searchEnd`, where trying one place after the other ends, with the least places that it stands for
  in `searchStops` and `searchFails`;
- `Graph.FindsFirst` and `Pattern.upTo_findsFirst`, how a search ends and what it leaves, seen from
  the tries of the pattern on their own;
- `Graph.not_findsFirst`, with callbacks that it fails for.
-/

namespace PegEngine

/-! ## Nodes -/

/-- A node of the kind leads to other patterns by its children only. -/
def Kind.isStructural : Kind → Bool
  | .function _ | .reference _ _ => false
  | _ => true

/-- The nodes of a search for a pattern, up to where it stops. -/
structure SearchNodes where
  stop : PatternId
  notHere : PatternId
  one : PatternId
  step : PatternId
  before : PatternId

namespace Graph

/-- The nodes of a search are in the graph. -/
structure HasSearch (graph : Graph) (nodes : SearchNodes) : Prop where
  notHere : graph.node nodes.notHere = { kind := .negative nodes.stop }
  one : graph.node nodes.one = { kind := .chars 1 }
  step : graph.node nodes.step =
    { kind := .sequence [nodes.notHere, nodes.one], trace := some .hidden }
  before : graph.node nodes.before = { kind := .repetition nodes.step (.atLeast 0) }

/-- The items that a pattern is replaced by in a sequence: itself, or its own items when it is a
plain sequence. -/
def ItemsOf (graph : Graph) (pattern : PatternId) (items : List PatternId) : Prop :=
  items = [pattern] ∨ graph.node pattern = { kind := .sequence items }

/-- The pattern is made to search for another one, and also to match it if it goes `through`. -/
def IsSearch (graph : Graph) (stop : PatternId) (through : Bool) (pattern : PatternId) : Prop :=
  ∃ nodes : SearchNodes, nodes.stop = stop ∧ graph.HasSearch nodes ∧
    if through then
      ∃ items, graph.ItemsOf stop items ∧
        graph.node pattern = { kind := .sequence (nodes.before :: items) }
    else
      pattern = nodes.before

variable {graph : Graph} {pattern next : PatternId} {items : List PatternId}

theorem ItemsOf.of_kind {kind : Kind} (itemsOf : graph.ItemsOf pattern items)
    (isKind : graph.kind pattern = kind) (noSequence : ∀ items, kind ≠ .sequence items) :
    items = [pattern] :=
  itemsOf.resolve_right fun plain =>
    noSequence items (isKind.symm.trans (congrArg Node.kind plain))

/-- Such a node comes to callbacks by its children. -/
theorem child_of_reaches {kind : Kind} {origin : PatternId} {callback : Callback}
    (isKind : graph.kind pattern = kind) (structural : kind.isStructural = true)
    (reaches : graph.Reaches pattern origin) (found : graph.kind origin = .function callback) :
    ∃ child ∈ kind.children, graph.Reaches child origin := by
  subst isKind
  rcases Relation.ReflTransGen.cases_head reaches with same | ⟨next, step, rest⟩
  · subst same
    rw [found] at structural
    cases structural
  · refine ⟨next, ?_, rest⟩
    rcases step with (child | ⟨name, cell, reference, -⟩) | ⟨callback, -, -, isFunction, -⟩
    · exact child
    · rw [reference] at structural
      cases structural
    · rw [isFunction] at structural
      cases structural

variable {nodes : SearchNodes} {origin : PatternId} {callback : Callback}

/-- The callbacks that a search comes to are those of the pattern that it searches for. -/
theorem HasSearch.reaches_stop (has : graph.HasSearch nodes)
    (reaches : graph.Reaches nodes.before origin)
    (found : graph.kind origin = .function callback) : graph.Reaches nodes.stop origin := by
  obtain ⟨step, isStep, reaches⟩ :=
    child_of_reaches (congrArg Node.kind has.before) rfl reaches found
  obtain rfl := List.mem_singleton.mp isStep
  obtain ⟨item, isItem, reaches⟩ :=
    child_of_reaches (congrArg Node.kind has.step) rfl reaches found
  simp only [Kind.children, List.mem_cons, List.not_mem_nil, or_false] at isItem
  rcases isItem with rfl | rfl
  · obtain ⟨stop, isStop, reaches⟩ :=
      child_of_reaches (congrArg Node.kind has.notHere) rfl reaches found
    obtain rfl := List.mem_singleton.mp isStop
    exact reaches
  · obtain ⟨child, isChild, -⟩ :=
      child_of_reaches (congrArg Node.kind has.one) rfl reaches found
    cases isChild

theorem IsSearch.reaches_stop {stop : PatternId} {through : Bool}
    (search : graph.IsSearch stop through pattern) (reaches : graph.Reaches pattern origin)
    (found : graph.kind origin = .function callback) : graph.Reaches stop origin := by
  obtain ⟨nodes, rfl, has, rest⟩ := search
  cases through with
  | false =>
      cases rest
      exact has.reaches_stop reaches found
  | true =>
      obtain ⟨items, itemsOf, isNode⟩ := rest
      obtain ⟨child, isChild, reaches⟩ :=
        child_of_reaches (congrArg Node.kind isNode) rfl reaches found
      rcases List.mem_cons.mp isChild with rfl | isItem
      · exact has.reaches_stop reaches found
      · rcases itemsOf with rfl | plain
        · obtain rfl := List.mem_singleton.mp isItem
          exact reaches
        · refine .of_calls (Or.inl (Or.inl ?_)) reaches
          rw [show graph.kind nodes.stop = .sequence items from congrArg Node.kind plain]
          exact isItem

theorem HasSearch.halting (has : graph.HasSearch nodes) : graph.halting.HasSearch nodes where
  notHere := by rw [node_halting, has.notHere]; rfl
  one := by rw [node_halting, has.one]; rfl
  step := by rw [node_halting, has.step]; rfl
  before := by rw [node_halting, has.before]; rfl

end Graph

namespace Build

variable {final : Graph}

theorem Makes.plain (kind : Kind) (noFunction : ∀ callback, kind ≠ .function callback) :
    Makes final (Pattern.ofKind kind) fun pattern => final.node pattern = { kind } :=
  .add (fun _ _ => noFunction) fun _ _ _ added => added

theorem Makes.plainSequence (items : List PatternId) :
    Makes final (Pattern.sequence items) fun pattern =>
      ∃ itemsOf, (∀ item, final.ItemsOf item (itemsOf item)) ∧
        final.node pattern = { kind := .sequence (items.flatMap itemsOf) } := by
  refine .add (fun _ _ => nofun) fun start pattern grown added => ⟨_, fun item => ?_, added⟩
  have isPlain : ∀ {node : Node} {inner : List PatternId}, node.sequenceItems? = some inner →
      node = { kind := .sequence inner } := (@Joint.items?_eq_some .sequence _ _).mp
  exact @Graph.opened_of_splice start final (fun node inner => node = { kind := .sequence inner })
    Node.sequenceItems? isPlain rfl grown item

theorem Makes.exceptNodes (body excluded : PatternId) {kind : Kind}
    (noSequence : ∀ items, kind ≠ .sequence items) :
    Makes final (Pattern.except body excluded) fun pattern => final.kind body = kind →
      ∃ notHere, final.node notHere = { kind := .negative excluded } ∧
        final.node pattern = { kind := .sequence [notHere, body] } := by
  refine .bind (.plain (.negative excluded) nofun) fun notHere => ?_
  refine (Makes.plainSequence _).mono ?_
  intro pattern ⟨itemsOf, areItems, isNode⟩ isNegative isKind
  refine ⟨notHere, isNegative, ?_⟩
  rw [isNode, List.flatMap_cons, List.flatMap_cons, List.flatMap_nil,
    (areItems notHere).of_kind (congrArg Node.kind isNegative) nofun,
    (areItems body).of_kind isKind noSequence]
  rfl

theorem makes_upTo (stop : PatternId) (through : Bool) :
    Makes final (Pattern.upTo stop through) (final.IsSearch stop through) := by
  refine .bind (.plain (.chars 1) nofun) fun one => ?_
  refine .bindCopy (fun node => { node with trace := some .hidden }) (fun _ => rfl)
    (@Makes.exceptNodes final one stop (.chars 1) nofun) (.bind fun _ => .add _) fun step => ?_
  refine .bind (.plain (.repetition step (.atLeast 0)) nofun) fun before => ?_
  have search : final.node before = { kind := .repetition step (.atLeast 0) } →
      (∃ pattern, (final.kind one = .chars 1 →
        ∃ notHere, final.node notHere = { kind := .negative stop } ∧
          final.node pattern = { kind := .sequence [notHere, one] }) ∧
        final.node step = { final.node pattern with trace := some .hidden }) →
      final.node one = { kind := .chars 1 } →
      ∃ nodes : SearchNodes, nodes.stop = stop ∧ final.HasSearch nodes ∧ nodes.before = before := by
    intro isBefore ⟨pattern, made, copied⟩ isOne
    obtain ⟨notHere, isNegative, isExcept⟩ := made (congrArg Node.kind isOne)
    rw [isExcept] at copied
    exact ⟨⟨stop, notHere, one, step, before⟩, rfl, ⟨isNegative, isOne, copied, isBefore⟩, rfl⟩
  cases through with
  | false =>
      refine .pure fun isBefore copied isOne => ?_
      obtain ⟨nodes, isStop, has, rfl⟩ := search isBefore copied isOne
      exact ⟨nodes, isStop, has, rfl⟩
  | true =>
      refine (Makes.plainSequence _).mono ?_
      intro pattern ⟨itemsOf, areItems, isNode⟩ isBefore copied isOne
      obtain ⟨nodes, isStop, has, rfl⟩ := search isBefore copied isOne
      refine ⟨nodes, isStop, has, itemsOf stop, areItems stop, ?_⟩
      rw [isNode, List.flatMap_cons, List.flatMap_cons, List.flatMap_nil,
        (areItems nodes.before).of_kind (congrArg Node.kind isBefore) nofun]
      simp

end Build

/-! ## The search -/

/-- Where a search comes to that tries a pattern from `j` on, as long as there are characters
`ahead`. -/
def searchEnd (tried : Nat → Except MatchError (Option Match)) :
    (ahead : Nat) → (j : Nat) → Except MatchError Nat
  | ahead, j =>
      match tried j with
      | .error error => .error error
      | .ok (some _) => .ok j
      | .ok none =>
          match ahead with
          | 0 => .ok j
          | ahead + 1 => searchEnd tried ahead (j + 1)

section SearchEnd

variable {tried : Nat → Except MatchError (Option Match)} {ahead i j k last f : Nat}

/-- The places from `i` on where a search may stop: those where the pattern matches, and the last
one. -/
def searchStops (tried : Nat → Except MatchError (Option Match)) (i last : Nat) : Set Nat :=
  {k | i ≤ k ∧ ((∃ m, tried k = .ok (some m)) ∨ k = last)}

/-- The places from `i` to `k` where the pattern ends in an error. -/
def searchFails (tried : Nat → Except MatchError (Option Match)) (i k : Nat) : Set Nat :=
  {f | i ≤ f ∧ f ≤ k ∧ ∃ error, tried f = .error error}

theorem exists_isLeast_searchStops (tried : Nat → Except MatchError (Option Match))
    (notBeyond : i ≤ last) : ∃ k, IsLeast (searchStops tried i last) k := by
  classical
  have some : ∃ k, i ≤ k ∧ ((∃ m, tried k = .ok (some m)) ∨ k = last) :=
    ⟨last, notBeyond, Or.inr rfl⟩
  exact ⟨Nat.find some, Nat.find_spec some, fun k stops => Nat.find_min' some stops⟩

/-- Where the pattern does not match, the search goes on from the next place. -/
theorem isLeast_searchStops_succ (least : IsLeast (searchStops tried j last) k)
    (noMatch : ∀ m, tried j ≠ .ok (some m)) (notLast : j ≠ last) :
    IsLeast (searchStops tried (j + 1) last) k := by
  obtain ⟨⟨later, stops⟩, first⟩ := least
  have notHere : j ≠ k := by
    rintro rfl
    exact stops.elim (fun ⟨m, found⟩ => noMatch m found) notLast
  refine ⟨⟨Nat.lt_of_le_of_ne later notHere, stops⟩, fun other ⟨further, otherStops⟩ => ?_⟩
  exact first ⟨Nat.le_of_succ_le further, otherStops⟩

/-- A search without an error comes to the first place where the pattern matches, or to the last one
when there is none. -/
theorem searchEnd_of_noError (fits : j + ahead = last)
    (least : IsLeast (searchStops tried j last) k)
    (noError : ∀ f, f ∉ searchFails tried j k) : searchEnd tried ahead j = .ok k := by
  induction ahead generalizing j with
  | zero =>
      obtain rfl : j = last := fits
      obtain rfl : j = k :=
        Nat.le_antisymm least.1.1 (least.2 ⟨Nat.le_refl j, Or.inr rfl⟩)
      cases answer : tried j with
      | error error => exact absurd ⟨Nat.le_refl j, Nat.le_refl j, error, answer⟩ (noError j)
      | ok outcome => cases outcome <;> simp only [searchEnd, answer]
  | succ ahead inductionHypothesis =>
      cases answer : tried j with
      | error error => exact absurd ⟨Nat.le_refl j, least.1.1, error, answer⟩ (noError j)
      | ok outcome =>
          cases outcome with
          | some m =>
              obtain rfl : j = k :=
                Nat.le_antisymm least.1.1 (least.2 ⟨Nat.le_refl j, Or.inl ⟨m, answer⟩⟩)
              simp only [searchEnd, answer]
          | none =>
              simp only [searchEnd, answer]
              refine inductionHypothesis (by omega)
                (isLeast_searchStops_succ least (by simp [answer]) (by omega)) ?_
              exact fun f ⟨later, rest⟩ => noError f ⟨Nat.le_of_succ_le later, rest⟩

/-- A search ends in the first error that comes up on the way. -/
theorem searchEnd_of_error {error : MatchError} (fits : j + ahead = last)
    (least : IsLeast (searchStops tried j last) k) (first : IsLeast (searchFails tried j k) f)
    (failed : tried f = .error error) : searchEnd tried ahead j = .error error := by
  induction ahead generalizing j with
  | zero =>
      obtain rfl : j = last := fits
      obtain rfl : j = k :=
        Nat.le_antisymm least.1.1 (least.2 ⟨Nat.le_refl j, Or.inr rfl⟩)
      obtain rfl : j = f := Nat.le_antisymm first.1.1 first.1.2.1
      simp only [searchEnd, failed]
  | succ ahead inductionHypothesis =>
      by_cases here : j = f
      · subst here
        simp only [searchEnd, failed]
      · obtain ⟨⟨later, notBeyond, _⟩, earliest⟩ := first
        cases answer : tried j with
        | error other =>
            have earlier := earliest ⟨Nat.le_refl j, least.1.1, other, answer⟩
            exact absurd (Nat.le_antisymm later earlier) here
        | ok outcome =>
            cases outcome with
            | some m =>
                have atOnce := least.2 ⟨Nat.le_refl j, Or.inl ⟨m, answer⟩⟩
                exact absurd (Nat.le_antisymm later (Nat.le_trans notBeyond atOnce)) here
            | none =>
                simp only [searchEnd, answer]
                refine inductionHypothesis (by omega)
                  (isLeast_searchStops_succ least (by simp [answer]) (by omega)) ⟨?_, ?_⟩
                · exact ⟨Nat.lt_of_le_of_ne later here, notBeyond, error, failed⟩
                · exact fun other ⟨further, rest⟩ => earliest ⟨Nat.le_of_succ_le further, rest⟩

theorem searchEnd_le (found : searchEnd tried ahead j = .ok k) : k ≤ j + ahead := by
  induction ahead generalizing j with
  | zero =>
      cases answer : tried j with
      | error error =>
          simp only [searchEnd, answer] at found
          cases found
      | ok outcome =>
          cases outcome <;>
            · simp only [searchEnd, answer] at found
              exact Nat.le_of_eq (Except.ok.inj found).symm
  | succ ahead inductionHypothesis =>
      cases answer : tried j with
      | error error =>
          simp only [searchEnd, answer] at found
          cases found
      | ok outcome =>
          cases outcome <;> simp only [searchEnd, answer] at found
          · have notBeyond := inductionHypothesis found
            omega
          · have same := Except.ok.inj found
            omega

end SearchEnd

namespace Matching

variable {setup : Setup} {begun : MatchState} {room full depth i j : Nat} {nodes : SearchNodes}

/-- One step of a search, given what the pattern has answered at its place. -/
def searchStep (text : Text) (j : Nat) (outcome : Option Match) : Option Match :=
  if outcome.isNone ∧ j < text.length then some (text.matchOver j (j + 1)) else none

theorem one_replies (has : setup.graph.HasSearch nodes) (under : 0 < depth)
    (inside : j ≤ setup.text.length) :
    RepliesStill begun depth (call (haltingSetup setup) room nodes.one j)
      (.ok (charsAt setup.text j 1)) := by
  have node := has.halting.one
  have isKind : (haltingSetup setup).graph.kind nodes.one = .chars 1 := congrArg Node.kind node
  have clamped : min j (haltingSetup setup).text.length = j := Nat.min_eq_left inside
  refine .call_still under (congrArg Node.name node) fun fewer _ => ?_
  rw [isKind, clamped]
  exact .pure _

section Loop

variable (has : setup.graph.HasSearch nodes) (deeper : begun.depth < depth) (wider : room ≤ full)
  (lawful : setup.graph.Lawful setup.text nodes.stop)
  (ignores : setup.graph.IgnoresSurroundings setup.text nodes.stop)
  (inside : j ≤ setup.text.length)

include has deeper wider lawful ignores inside

theorem notHere_replies :
    RepliesStill begun depth (call (haltingSetup setup) room nodes.notHere j)
      ((answerOf (callUnsettled setup full nodes.stop j begun)).map fun outcome =>
        zeroWidthIf setup.text j outcome.isNone) := by
  have under : 0 < depth := Nat.lt_of_le_of_lt (Nat.zero_le _) deeper
  have node := has.halting.notHere
  have isKind : (haltingSetup setup).graph.kind nodes.notHere = .negative nodes.stop :=
    congrArg Node.kind node
  have unnamed : (haltingSetup setup).graph.name? nodes.notHere = none := congrArg Node.name node
  have clamped : min j (haltingSetup setup).text.length = j := Nat.min_eq_left inside
  have isolated := callUnsettled_isolated lawful full j begun
  have tries : ∀ fewer, room = fewer + 1 → Replies begun (depth + 1) _ _ _ := fun fewer isSucc =>
    call_replies_tried (Nat.succ_pos depth) (Nat.le_succ_of_le (Nat.le_of_lt deeper))
      (show fewer ≤ full by omega) ignores j
  -- With a match the negation itself fails, and that is what takes back what the match has left.
  by_cases matched : ∃ m, answerOf (callUnsettled setup full nodes.stop j begun) = .ok (some m)
  · obtain ⟨m, found⟩ := matched
    have noMatch : ∀ other, (answerOf (callUnsettled setup full nodes.stop j begun)).map
        (fun outcome => zeroWidthIf setup.text j outcome.isNone) ≠ .ok (some other) := by
      simp [found, Except.map, zeroWidthIf]
    refine .call_missed under unnamed noMatch fun fewer isSucc => ?_
    rw [isKind, clamped]
    exact ((tries fewer isSucc).mono fun state akin => (asBegun_of_isolated isolated akin).1).map _
  · refine .call_still under unnamed fun fewer isSucc => ?_
    rw [isKind, clamped]
    refine ((tries fewer isSucc).mono fun state akin => ?_).map _
    exact (asBegun_of_isolated isolated akin).2 fun m found => matched ⟨m, found⟩

theorem step_replies :
    RepliesStill begun depth (call (haltingSetup setup) room nodes.step j)
      ((answerOf (callUnsettled setup full nodes.stop j begun)).map (searchStep setup.text j)) := by
  have under : 0 < depth := Nat.lt_of_le_of_lt (Nat.zero_le _) deeper
  have node := has.halting.step
  have isKind : (haltingSetup setup).graph.kind nodes.step = .sequence [nodes.notHere, nodes.one] :=
    congrArg Node.kind node
  have unnamed : (haltingSetup setup).graph.name? nodes.step = none := congrArg Node.name node
  have clamped : min j (haltingSetup setup).text.length = j := Nat.min_eq_left inside
  refine .call_still under unnamed fun fewer isSucc => ?_
  rw [isKind, clamped]
  have looks := notHere_replies has (Nat.lt_succ_of_lt deeper) (show fewer ≤ full by omega)
    lawful ignores inside
  have takes : RepliesStill begun (depth + 1) (call (haltingSetup setup) fewer nodes.one j)
      (.ok (charsAt setup.text j 1)) := one_replies has (Nat.succ_pos depth) inside
  cases answer : answerOf (callUnsettled setup full nodes.stop j begun) with
  | error error =>
      rw [answer] at looks
      exact looks.bind_error
  | ok outcome =>
      rw [answer] at looks
      cases outcome with
      | some m => exact looks.bind (.pure _)
      | none =>
          refine looks.bind (takes.bind ?_)
          change RepliesStill begun (depth + 1) _ (.ok (searchStep setup.text j none))
          by_cases ahead : j < setup.text.length
          · have enough : 1 ≤ setup.text.length - j := by omega
            rw [charsAt, if_pos enough, searchStep, if_pos ⟨rfl, ahead⟩]
            exact .pure _
          · have few : ¬ 1 ≤ setup.text.length - j := by omega
            rw [charsAt, if_neg few, searchStep, if_neg fun taken => ahead taken.2]
            exact .pure _

theorem matchAtLeast_replies {ahead : Nat} (fits : j + ahead = setup.text.length) (done i : Nat) :
    RepliesStill begun depth
      (matchAtLeast (call (haltingSetup setup) room) nodes.step 0 ahead done
        (setup.text.matchOver i j))
      ((searchEnd (fun j => answerOf (callUnsettled setup full nodes.stop j begun)) ahead j).map
        fun k => some (setup.text.matchOver i k)) := by
  -- Every step begins with the same bindings and stacks, so all that changes from one step to the
  -- next is the place.
  induction ahead generalizing j done with
  | zero =>
      have steps := step_replies has deeper wider lawful ignores inside
      unfold matchAtLeast searchEnd
      cases answer : answerOf (callUnsettled setup full nodes.stop j begun) with
      | error error =>
          rw [answer] at steps
          exact steps.bind_error
      | ok outcome =>
          have still : searchStep setup.text j outcome = none := if_neg (by omega)
          rw [answer, Except.map, still] at steps
          cases outcome <;> exact steps.bind (.pure _)
  | succ ahead inductionHypothesis =>
      have steps := step_replies has deeper wider lawful ignores inside
      unfold matchAtLeast searchEnd
      cases answer : answerOf (callUnsettled setup full nodes.stop j begun) with
      | error error =>
          rw [answer] at steps
          exact steps.bind_error
      | ok outcome =>
          cases outcome with
          | some m =>
              rw [answer] at steps
              exact steps.bind (.pure _)
          | none =>
              have moves : searchStep setup.text j none = some (setup.text.matchOver j (j + 1)) :=
                if_pos ⟨rfl, by omega⟩
              rw [answer, Except.map, moves] at steps
              refine steps.bind ?_
              have wide : (setup.text.matchOver j (j + 1)).stop ≠ (setup.text.matchOver i j).stop :=
                Nat.succ_ne_self j
              dsimp only
              rw [if_neg wide, Match.append_matchOver]
              exact inductionHypothesis (by omega) (by omega) (done + 1)

/-- What stands before the place that the search comes to. -/
theorem before_replies :
    RepliesStill begun depth
      (matchKind (haltingSetup setup) (call (haltingSetup setup) room) j
        ((haltingSetup setup).graph.kind nodes.before))
      ((searchEnd (fun j => answerOf (callUnsettled setup full nodes.stop j begun))
        (setup.text.length - j) j).map fun k => some (setup.text.matchOver j k)) := by
  have isKind : (haltingSetup setup).graph.kind nodes.before =
      .repetition nodes.step (.atLeast 0) :=
    congrArg Node.kind has.halting.before
  rw [isKind]
  exact matchAtLeast_replies has deeper wider lawful ignores inside
    (Nat.add_sub_of_le inside) 0 j

end Loop

section Whole

variable (has : setup.graph.HasSearch nodes)
  (lawful : setup.graph.Lawful setup.text nodes.stop)
  (ignores : setup.graph.IgnoresSurroundings setup.text nodes.stop)

include has lawful ignores

/-- A search that stops before the pattern leaves everything as it was. -/
theorem upTo_replies (index : Nat) :
    let i := min index setup.text.length
    RepliesStill begun begun.depth
      (callUnsettled (haltingSetup setup) full nodes.before index)
      ((searchEnd (fun j => answerOf (callUnsettled setup full nodes.stop j begun))
        (setup.text.length - i) i).map fun k => some (setup.text.matchOver i k)) := by
  refine .callUnsettled_still (congrArg Node.name has.halting.before) fun fewer isSucc => ?_
  exact before_replies has (Nat.lt_succ_self _) (by omega) lawful ignores (Nat.min_le_right ..)

variable {items : List PatternId} {i k : Nat}

omit has in
/-- The pattern itself, or its items, behind what the search has gone over. -/
theorem stop_replies (itemsOf : setup.graph.ItemsOf nodes.stop items)
    (free : ¬ setup.limit ≤ begun.depth) (inside : k ≤ setup.text.length) :
    let tried := callUnsettled setup (room + 1) nodes.stop k begun
    Replies begun (begun.depth + 1)
      (fun state => state.GrownFrom begun (begun.depth + 1) ∧
        ∀ m, answerOf tried = .ok (some m) →
          state.Akin (begun.depth + 1) begun.depth (stateOf tried))
      (matchSequence (call (haltingSetup setup) room) items (setup.text.matchOver i k))
      ((answerOf tried).map (Option.map (setup.text.matchOver i k).append)) := by
  intro tried
  rcases itemsOf with rfl | plain
  · have isolated := callUnsettled_isolated lawful (room + 1) k begun
    have tries := call_replies_tried (Nat.succ_pos begun.depth) (Nat.le_succ _)
      (Nat.le_succ room) ignores k
    have same : matchSequence (call (haltingSetup setup) room) [nodes.stop]
        (setup.text.matchOver i k) = (do
          return (← call (haltingSetup setup) room nodes.stop k).map
            (setup.text.matchOver i k).append) := by
      simp only [matchSequence]
      congr 1
      funext outcome
      cases outcome <;> rfl
    rw [same]
    refine (tries.mono fun state akin => ?_).map _
    exact ⟨(asBegun_of_isolated isolated akin).1, fun _ _ => akin⟩
  -- The items of a plain sequence stand in its place, so there is no call to compare with.
  · have same := matchSequence_from (call (haltingSetup setup) room) items
      (setup.text.matchOver i k) (setup.text.matchOver k k)
    have nothing := Match.append_nothing (setup.text.matchOver i k) setup.text
    change (setup.text.matchOver i k).append (setup.text.matchOver k k) = _ at nothing
    rw [nothing] at same
    rw [same]
    exact (matchSequence_replies_tried plain inside free lawful ignores).map _

/-- A search that goes through the pattern ends as the pattern does, and leaves what it leaves. -/
theorem through_replies {through : PatternId}
    (isNode : setup.graph.node through = { kind := .sequence (nodes.before :: items) })
    (itemsOf : setup.graph.ItemsOf nodes.stop items)
    (free : ¬ setup.limit ≤ begun.depth) (index : Nat) :
    let i := min index setup.text.length
    let tried := fun j => callUnsettled setup full nodes.stop j begun
    let place := searchEnd (fun j => answerOf (tried j)) (setup.text.length - i) i
    Replies begun begun.depth
      (fun state => ∀ k m, place = .ok k → answerOf (tried k) = .ok (some m) →
        state.Akin begun.depth begun.depth (stateOf (tried k)))
      (callUnsettled (haltingSetup setup) full through index)
      (place >>= fun k =>
        (answerOf (tried k)).map (Option.map (setup.text.matchOver i k).append)) := by
  intro i tried place
  have isHalting : (haltingSetup setup).graph.node through =
      { kind := .sequence (nodes.before :: items) } := by
    rw [haltingSetup, setup.graph.node_halting, isNode]
    rfl
  have inside : i ≤ setup.text.length := Nat.min_le_right index setup.text.length
  have placeInside : ∀ {k}, place = .ok k → k ≤ setup.text.length := fun found =>
    Nat.le_trans (searchEnd_le found) (by omega)
  refine .callUnsettled fun fewer isSucc => ?_
  subst isSucc
  have searches : RepliesStill begun (begun.depth + 1)
      (call (haltingSetup setup) fewer nodes.before i)
      (place.map fun k => some (setup.text.matchOver i k)) := by
    have clamped : min i (haltingSetup setup).text.length = i := Nat.min_eq_left inside
    have unnamed := congrArg Node.name has.halting.before
    refine .call_still (Nat.succ_pos _) unnamed fun fewest isSucc => ?_
    rw [clamped]
    exact before_replies has (by omega) (by omega) lawful ignores inside
  have bodies : Replies begun (begun.depth + 1)
      (fun state => state.GrownFrom begun (begun.depth + 1) ∧
        ∀ k m, place = .ok k → answerOf (tried k) = .ok (some m) →
          state.Akin (begun.depth + 1) begun.depth (stateOf (tried k)))
      (matchSequence (call (haltingSetup setup) fewer) (nodes.before :: items)
        (setup.text.matchOver i i))
      (place >>= fun k =>
        (answerOf (tried k)).map (Option.map (setup.text.matchOver i k).append)) := by
    cases isPlace : place with
    | error error =>
        rw [isPlace] at searches
        refine (searches.mono fun state same => ⟨same.grownFrom, fun k m found => ?_⟩).bind_error
        cases found
    | ok k =>
        rw [isPlace] at searches
        refine searches.bind ?_
        refine (stop_replies lawful ignores itemsOf free (placeInside isPlace)).mono ?_
        rintro state ⟨grown, akin⟩
        refine ⟨grown, fun other m same => ?_⟩
        cases same
        exact akin m
  have isKind : (haltingSetup setup).graph.kind through = .sequence (nodes.before :: items) :=
    congrArg Node.kind isHalting
  rw [isKind]
  refine (bodies.enclosed (congrArg Node.name isHalting) fun _ leaves => leaves.1).mono ?_
  rintro state ⟨found, -⟩ k m isPlace matched
  have isFound : (place >>= fun k =>
      (answerOf (tried k)).map (Option.map (setup.text.matchOver i k).append)) =
        .ok (some ((setup.text.matchOver i k).append m)) := by
    rw [isPlace]
    change Except.map _ (answerOf (tried k)) = _
    rw [matched]
    rfl
  obtain ⟨reached, ⟨_, akin⟩, bindings, stackTable, level⟩ := found _ isFound
  have akin := akin k m isPlace matched
  exact ⟨bindings.trans akin.bindings, stackTable ▸ akin.stackTable, level, akin.otherLevel⟩

end Whole

end Matching

/-! ## Matches from the outside -/

/-- The same run with its match put behind another one. -/
def MatchRun.behind (run : MatchRun) (first : Match) : MatchRun :=
  { run with result := run.result.map (Option.map first.append) }

/-- A match that changes nothing. When no pattern call is under way around it, what has been done to
the stacks before stays for good. -/
def MatchRun.unchanged (m : Match) (input : Input) (context : Context) : MatchRun where
  result := .ok (some m)
  input
  context :=
    { context with
      stackTable := if context.depth = 0 then context.stackTable.commit else context.stackTable }
  trace := []

namespace MatchRun

variable {input : Input} {context : Context} {answer : Except MatchError (Option Match)}

/-- States that are akin leave the same from the outside. -/
theorem endsLike_of_akin {depth : Nat} {state other : MatchState}
    (akin : state.Akin depth depth other) (sameOptions : state.options = other.options) :
    (ofState answer input context state).EndsLike (ofState answer input context other) where
  result := rfl
  input := congrArg (fun bindings => { input with bindings }) akin.bindings
  config := congrArg (fun trace => { context.config with trace }) sameOptions
  depth := akin.level.trans akin.otherLevel.symm
  stackTable := akin.stackTable

theorem ofState_settle (m : Match) (input : Input) (context : Context) :
    (ofState (.ok (some m)) input context (context.state input).settle).EndsLike
      (unchanged m input context) := by
  unfold MatchState.settle unchanged
  by_cases outermost : context.depth = 0
  · rw [if_pos (show (context.state input).depth = 0 from outermost), if_pos outermost]
    exact ⟨rfl, rfl, rfl, rfl, .refl _⟩
  · rw [if_neg (show (context.state input).depth ≠ 0 from outermost), if_neg outermost]
    exact ⟨rfl, rfl, rfl, rfl, .refl _⟩

theorem behind_of_missed {run : MatchRun} (missed : run.result = .ok none) (first : Match) :
    run.behind first = run := by
  obtain ⟨result, input, context, trace⟩ := run
  cases missed
  rfl

end MatchRun

namespace Graph

open Matching

variable {graph : Graph} {stop pattern : PatternId} {through : Bool} {input : Input}
  {context : Context} {index : Nat}

/-- The outermost call of a match before it settles. -/
abbrev unsettled (graph : Graph) (pattern : PatternId) (input : Input) (index : Nat)
    (context : Context) : EStateM.Result MatchError MatchState (Option Match) :=
  callUnsettled (context.setup graph input.text) (context.config.limit - context.depth) pattern
    index (context.state input)

theorem result_matchIn_unsettled :
    (graph.matchIn pattern input index context).result =
      answerOf (graph.unsettled pattern input index context) := by
  rw [matchIn_eq]
  exact answerOf_call

theorem matchIn_eq_settled
    (free : ¬ atLimit (answerOf (graph.unsettled pattern input index context))) :
    graph.matchIn pattern input index context =
      .ofState (answerOf (graph.unsettled pattern input index context)) input context
        (stateOf (graph.unsettled pattern input index context)).settle := by
  rw [matchIn_eq, call_eq_settled free]
  dsimp only
  rw [answerOf_settled, stateOf_settled]

theorem options_unsettled (lawful : graph.Lawful input.text pattern) :
    (stateOf (graph.unsettled pattern input index context)).options = context.config.trace :=
  (@callUnsettled_isolated (context.setup graph input.text) _ lawful _ _ _).extends.options

/-- A match that meets no limit does as the same match with callbacks that would have halted. -/
theorem unsettled_of_replies (ignores : graph.IgnoresSurroundings input.text pattern)
    (noLimit : ¬ graph.MeetsLimit pattern input index context) {left : MatchState → Prop}
    {answer : Except MatchError (Option Match)}
    (replies : Replies (context.state input) context.depth left
      (callUnsettled (haltingSetup (context.setup graph input.text))
        (context.config.limit - context.depth) pattern index) answer) :
    ¬ atLimit answer ∧ answerOf (graph.unsettled pattern input index context) = answer ∧
      ∃ state, left state ∧ state.Akin context.depth context.depth
        (stateOf (graph.unsettled pattern input index context)) := by
  have free : ¬ atLimit (answerOf (callUnsettled (haltingSetup (context.setup graph input.text))
      (context.config.limit - context.depth) pattern index (context.state input))) := by
    unfold MeetsLimit at noLimit
    rwa [result_matchIn_unsettled] at noLimit
  have ends := @callUnsettled_doesAlike context.depth context.depth (context.setup graph input.text)
    _ _ pattern (Nat.le_refl (context.config.limit - context.depth)) (Nat.le_refl context.depth)
    ignores index (context.state input)
    (context.state input) ⟨rfl, .refl _, rfl, rfl⟩
  obtain ⟨sameAnswer, akin⟩ := ends.answer free
  obtain ⟨isAnswer, leaves⟩ := (replies _ (.refl _)).resolve_left free
  exact ⟨isAnswer ▸ free, sameAnswer.symm.trans isAnswer, _, leaves, akin⟩

theorem room_of_noLimit (noLimit : ¬ graph.MeetsLimit pattern input index context) :
    context.depth < context.config.limit := by
  by_contra full
  apply noLimit
  unfold MeetsLimit
  rw [result_matchIn_unsettled, unsettled, callUnsettled_of_full (Nat.le_of_not_lt full)]
  rfl

/-- How a search ends, given the place that it comes to. -/
theorem IsSearch.ends (search : graph.IsSearch stop through pattern)
    (lawful : graph.Lawful input.text stop) (ignores : graph.IgnoresSurroundings input.text stop)
    (noLimit : ¬ graph.MeetsLimit pattern input index context) :
    let tried := fun j => graph.unsettled stop input j context
    let ended := graph.unsettled pattern input index context
    let i := min index input.text.length
    let place := searchEnd (fun j => answerOf (tried j)) (input.text.length - i) i
    ¬ atLimit (answerOf ended) ∧
      (∀ error, place = .error error → answerOf ended = .error error) ∧
      ∀ k, place = .ok k →
        (through = false → answerOf ended = .ok (some (input.text.matchOver i k)) ∧
          (stateOf ended).Akin context.depth context.depth (context.state input)) ∧
        (through = true → answerOf ended =
            (answerOf (tried k)).map (Option.map (input.text.matchOver i k).append) ∧
          ∀ m, answerOf (tried k) = .ok (some m) →
            (stateOf ended).Akin context.depth context.depth (stateOf (tried k))) := by
  intro tried ended i place
  have ignoresSearch : graph.IgnoresSurroundings input.text pattern :=
    fun origin callback reaches found =>
      ignores origin callback (search.reaches_stop reaches found) found
  have room := room_of_noLimit noLimit
  obtain ⟨nodes, rfl, has, rest⟩ := search
  cases through with
  | false =>
      cases rest
      have replies := @upTo_replies (context.setup graph input.text) (context.state input)
        (context.config.limit - context.depth) nodes has lawful ignores index
      obtain ⟨free, isAnswer, state, same, akin⟩ :=
        unsettled_of_replies ignoresSearch noLimit replies
      refine ⟨isAnswer.symm ▸ free, fun error failed => ?_, fun k found => ⟨fun _ => ?_, nofun⟩⟩
      · refine isAnswer.trans ?_
        change Except.map _ place = _
        rw [failed]
        rfl
      · refine ⟨isAnswer.trans ?_, akin.symm.trans same.akin⟩
        change Except.map _ place = _
        rw [found]
        rfl
  | true =>
      obtain ⟨items, itemsOf, isNode⟩ := rest
      have replies := @through_replies (context.setup graph input.text) (context.state input)
        (context.config.limit - context.depth) nodes has lawful ignores items pattern isNode itemsOf
        (Nat.not_le_of_lt room) index
      obtain ⟨free, isAnswer, state, leaves, akin⟩ :=
        unsettled_of_replies ignoresSearch noLimit replies
      refine ⟨isAnswer.symm ▸ free, fun error failed => ?_, fun k found => ⟨nofun, fun _ => ?_⟩⟩
      · refine isAnswer.trans ?_
        change place >>= _ = _
        rw [failed]
        rfl
      · refine ⟨isAnswer.trans ?_, fun m matched => akin.symm.trans (leaves k m found matched)⟩
        change place >>= _ = _
        rw [found]
        rfl

/-- The pattern searches for `stop` from an index on. Let `k` be the first place where `stop`
matches, or the end of the text if there is none. The search ends in the error of the first place up
to `k` where `stop` ends in one. If there is no such place, the search matches up to `k` and changes
nothing, or, if it goes `through`, it ends and leaves things as `stop` does at `k`. -/
def FindsFirst (graph : Graph) (stop : PatternId) (through : Bool) (pattern : PatternId)
    (input : Input) (index : Nat) (context : Context) : Prop :=
  let tried := fun j => graph.matchIn stop input j context
  let results := fun j => (tried j).result
  let run := graph.matchIn pattern input index context
  let i := min index input.text.length
  ∃ k, IsLeast (searchStops results i input.text.length) k ∧
    (∀ f, IsLeast (searchFails results i k) f → run.EndsLike (tried f)) ∧
    ((∀ f, f ∉ searchFails results i k) → run.EndsLike
      (if through then (tried k).behind (input.text.matchOver i k)
        else .unchanged (input.text.matchOver i k) input context))

/-- Two patterns whose outermost calls leave the same, the one with its match behind another. -/
theorem endsLike_behind {other : PatternId} {k : Nat} {first : Match}
    (lawful : graph.Lawful input.text pattern) (lawfulOther : graph.Lawful input.text other)
    (room : 0 < context.config.limit)
    (free : ¬ atLimit (answerOf (graph.unsettled pattern input index context)))
    (noError : ∀ error, (graph.matchIn other input k context).result ≠ .error error)
    (isAnswer : answerOf (graph.unsettled pattern input index context) =
      (answerOf (graph.unsettled other input k context)).map (Option.map first.append))
    (akin : ∀ m, answerOf (graph.unsettled other input k context) = .ok (some m) →
      (stateOf (graph.unsettled pattern input index context)).Akin context.depth context.depth
        (stateOf (graph.unsettled other input k context))) :
    (graph.matchIn pattern input index context).EndsLike
      ((graph.matchIn other input k context).behind first) := by
  have isolates := (matchIn_isolated lawful index context).1
  have otherIsolates := (matchIn_isolated lawfulOther k context).1
  have isOther := @result_matchIn_unsettled graph other input context k
  cases answered : (graph.matchIn other input k context).result with
  | error error => exact absurd answered (noError error)
  | ok outcome =>
      rw [answered] at isOther
      rw [← isOther] at isAnswer
      cases outcome with
      | none =>
          have ended : (graph.matchIn pattern input index context).result = .ok none :=
            result_matchIn_unsettled.trans isAnswer
          rw [MatchRun.behind_of_missed answered]
          exact isolates.endsLike otherIsolates (ended.trans answered.symm)
            (fun m found => nomatch answered.symm.trans found) room
      | some m =>
          have freeOther : ¬ atLimit (answerOf (graph.unsettled other input k context)) := by
            rw [← isOther]
            exact Bool.false_ne_true
          rw [matchIn_eq_settled free, matchIn_eq_settled freeOther, isAnswer, ← isOther]
          refine MatchRun.endsLike_of_akin (akin m isOther.symm).settle ?_
          simp only [MatchState.options_settle, options_unsettled lawful,
            options_unsettled lawfulOther]

theorem IsSearch.findsFirst (search : graph.IsSearch stop through pattern)
    (lawful : graph.Lawful input.text stop) (ignores : graph.IgnoresSurroundings input.text stop)
    (noLimit : ¬ graph.MeetsLimit pattern input index context) :
    graph.FindsFirst stop through pattern input index context := by
  unfold FindsFirst
  intro tried results run i
  have lawfulSearch : graph.Lawful input.text pattern := fun origin callback reaches found =>
    lawful origin callback (search.reaches_stop reaches found) found
  have room : 0 < context.config.limit := Nat.zero_lt_of_lt (room_of_noLimit noLimit)
  have inside : i ≤ input.text.length := Nat.min_le_right index input.text.length
  have fits : i + (input.text.length - i) = input.text.length := Nat.add_sub_of_le inside
  obtain ⟨k, least⟩ := exists_isLeast_searchStops results inside
  have sameResults : results = fun j => answerOf (graph.unsettled stop input j context) :=
    funext fun _ => result_matchIn_unsettled
  obtain ⟨free, onError, onFound⟩ := search.ends lawful ignores noLimit
  rw [← sameResults] at onError onFound
  refine ⟨k, least, fun f first => ?_, fun noError => ?_⟩
  · obtain ⟨error, failed⟩ := first.1.2.2
    have ended : run.result = .error error :=
      result_matchIn_unsettled.trans (onError error (searchEnd_of_error fits least first failed))
    have isolates := (matchIn_isolated lawfulSearch index context).1
    have triedIsolates := (matchIn_isolated lawful f context).1
    exact isolates.endsLike triedIsolates (ended.trans failed.symm)
      (fun m found => nomatch failed.symm.trans found) room
  · obtain ⟨stopsBefore, goesThrough⟩ := onFound k (searchEnd_of_noError fits least noError)
    cases through with
    | false =>
        obtain ⟨isAnswer, akin⟩ := stopsBefore rfl
        have isRun : run = _ := matchIn_eq_settled free
        rw [isRun, isAnswer]
        refine (MatchRun.endsLike_of_akin akin.settle ?_).trans (MatchRun.ofState_settle _ _ _)
        simp only [MatchState.options_settle, options_unsettled lawfulSearch]
        rfl
    | true =>
        obtain ⟨isAnswer, akin⟩ := goesThrough rfl
        have noErrorHere : ∀ error, (tried k).result ≠ .error error := fun error failed =>
          noError k ⟨least.1.1, Nat.le_refl k, error, failed⟩
        exact endsLike_behind lawfulSearch lawful room free noErrorHere isAnswer akin

/-- A search for what matches nowhere but at the end, if at all, goes over the whole text. -/
theorem FindsFirst.goesToEnd (finds : graph.FindsFirst stop false pattern input index context)
    (misses : ∀ j < input.text.length, (graph.matchIn stop input j context).result = .ok none)
    (noError : ∀ error,
      (graph.matchIn stop input input.text.length context).result ≠ .error error) :
    (graph.matchIn pattern input index context).EndsLike
      (.unchanged (input.text.matchOver (min index input.text.length) input.text.length)
        input context) := by
  obtain ⟨k, ⟨⟨-, stops⟩, first⟩, -, found⟩ := finds
  have notBeyond : k ≤ input.text.length := first ⟨Nat.min_le_right _ _, Or.inr rfl⟩
  obtain rfl : k = input.text.length := by
    refine stops.elim (fun ⟨m, matched⟩ => ?_) id
    refine Nat.le_antisymm notBeyond (Nat.le_of_not_lt fun before => ?_)
    cases (misses k before).symm.trans matched
  refine found fun f ⟨_, notLater, error, failed⟩ => ?_
  rcases Nat.lt_or_eq_of_le notLater with before | rfl
  · cases (misses f before).symm.trans failed
  · exact noError error failed

end Graph

/-- A pattern that is made to search does so, whatever is built later on. -/
theorem Pattern.upTo_findsFirst {start graph : Graph} {stop : PatternId} {through : Bool}
    {input : Input} {index : Nat} {context : Context}
    (grown : ((upTo stop through).run start).2.Grown graph)
    (lawful : graph.Lawful input.text stop) (ignores : graph.IgnoresSurroundings input.text stop)
    (noLimit : ¬ graph.MeetsLimit ((upTo stop through).run start).1 input index context) :
    graph.FindsFirst stop through ((upTo stop through).run start).1 input index context :=
  ((Build.makes_upTo stop through).holds start grown).findsFirst lawful ignores noLimit

/-- A letter that is put on a stack, and its place in the text that is bound to a name. -/
def markedLetter : Graph where
  slots := #[
    some { kind := .literal ['b'] },
    some { kind := .capture 0 },
    some { kind := .stackCapture "letters" 1 },
    some { kind := .function (Script.callback {
      steps := [.bind "seen" (.bool true)]
      verdict := .accept }) },
    some { kind := .sequence [2, 3] }]

/-- The letter is found behind two others. The search leaves what the letter itself leaves. -/
theorem Pattern.upTo_findsFirst_markedLetter :
    let graph := ((upTo 4 true).run markedLetter).2
    let input := Input.ofString "aab"
    let run := graph.matchIn ((upTo 4 true).run markedLetter).1 input 0 {}
    graph.Lawful input.text 4 ∧ graph.IgnoresSurroundings input.text 4 ∧
      ¬ graph.MeetsLimit ((upTo 4 true).run markedLetter).1 input 0 {} ∧
      graph.FindsFirst 4 true ((upTo 4 true).run markedLetter).1 input 0 {} ∧
      run.result.toOption = some (some ((Text.ofString "aab").matchOver 0 3)) ∧
      run.input.bindings.newestFirst = [("seen", .bool true)] ∧
      run.context.stackTable.entries "letters" = [.text "b"] := by
  intro graph input run
  have callbacks : ∀ origin callback, graph.kind origin = .function callback →
      callback = Script.callback { steps := [.bind "seen" (.bool true)], verdict := .accept } := by
    intro origin callback found
    match origin with
    | 3 =>
        cases found
        rfl
    | 0 | 1 | 2 | 4 | 5 | 6 | 7 | 8 | 9 | 10 => cases found
    | origin + 11 => cases found
  have lawful : graph.Lawful input.text 4 := by
    intro origin callback _ found
    rw [callbacks origin callback found]
    exact Script.lawful (by decide) _
  have ignores : graph.IgnoresSurroundings input.text 4 := by
    intro origin callback _ found
    rw [callbacks origin callback found]
    exact Script.ignoresSurroundings (by decide) _
  have noLimit : ¬ graph.MeetsLimit ((upTo 4 true).run markedLetter).1 input 0 {} := by
    decide +kernel
  exact ⟨lawful, ignores, noLimit, upTo_findsFirst (.refl _) lawful ignores noLimit,
    by decide +kernel, by decide +kernel, by decide +kernel⟩

/-! ## Callbacks that mislead a search -/

/-- The callback as a pattern by itself, which is pattern 0, and a search for it, which is pattern
5. -/
def Callback.searched (callback : Callback) : Graph :=
  ((Pattern.upTo 0 false).run { slots := #[some { kind := .function callback }] }).2

/-- The callback does not go by the nesting, and no limit is met, and still a search for it does not
come to the first place where it matches, or changes something. -/
def Callback.MisleadsSearch (callback : Callback) (input : Input) (context : Context) : Prop :=
  callback.searched.IgnoresDepth input.text 0 ∧
    ¬ callback.searched.MeetsLimit 5 input 0 context ∧
    ¬ callback.searched.FindsFirst 0 false 5 input 0 context

namespace Callback

theorem searched_ignoresDepth {callback : Callback} {text : Text}
    (ignores : callback.IgnoresDepth text) : callback.searched.IgnoresDepth text 0 := by
  intro origin other _ found
  match origin with
  | 0 =>
      cases found
      exact ignores
  | 1 | 2 | 3 | 4 | 5 => cases found
  | origin + 6 => cases found

/-- Rejects, but leaves an entry on a stack for good. -/
def pushesForGood : Callback :=
  Script.callback { steps := [.push "s" (.text "x"), .commit], verdict := .reject }

/-- Rejects, but takes back what was done to the stacks before. -/
def rollsBack : Callback where
  program _ _ := .rollback ⟨0⟩ (.finish .reject)

/-- Accepts, but takes away bindings that are not its own. -/
def unbinds : Callback :=
  Script.callback { steps := [.restore 0], verdict := .accept }

/-- Rejects where a stack has never been in use, and uses it. -/
def usesOnce : Callback where
  program _ _ := .inspect fun view =>
    if view.stackTable.contains "s" then .finish .accept
    else .push "s" (.text "x") (.finish .reject)

/-- Accepts under any trace options. -/
def acceptsTraced : Callback where
  program _ _ := .inspect fun view =>
    if view.trace.isSome then .finish .accept else .finish .reject

end Callback

theorem Graph.not_findsFirst :
    Callback.pushesForGood.MisleadsSearch (.ofString "") {} ∧
      Callback.rollsBack.MisleadsSearch (.ofString "")
        { stackTable := StackTable.push {} "s" (.text "x") } ∧
      Callback.unbinds.MisleadsSearch
        { text := .ofString "", bindings := ⟨[("a", .text "x")]⟩ } {} ∧
      Callback.usesOnce.MisleadsSearch (.ofString "aa") {} ∧
      Callback.acceptsTraced.MisleadsSearch (.ofString "a") {} := by
  refine ⟨?pushesForGood, ?rollsBack, ?unbinds, ?usesOnce, ?acceptsTraced⟩
  case pushesForGood =>
    have ignores : Callback.pushesForGood.IgnoresDepth (.ofString "") :=
      Script.ignoresDepth (by decide) _
    refine ⟨Callback.searched_ignoresDepth ignores, by decide +kernel, fun finds => ?_⟩
    have ends := finds.goesToEnd nofun (fun error failed => nomatch failed)
    exact absurd (ends.stackTable.entries "s") (by decide +kernel)
  case rollsBack =>
    have ignores : Callback.rollsBack.IgnoresDepth (.ofString "") := fun _ _ => trivial
    refine ⟨Callback.searched_ignoresDepth ignores, by decide +kernel, fun finds => ?_⟩
    have ends := finds.goesToEnd nofun (fun error failed => nomatch failed)
    exact absurd (ends.stackTable.entries "s") (by decide +kernel)
  case unbinds =>
    have ignores : Callback.unbinds.IgnoresDepth (.ofString "") :=
      Script.ignoresDepth (by decide) _
    refine ⟨Callback.searched_ignoresDepth ignores, by decide +kernel, fun finds => ?_⟩
    have ends := finds.goesToEnd nofun (fun error failed => nomatch failed)
    exact absurd (congrArg Except.toOption ends.result) (by decide +kernel)
  case usesOnce =>
    have ignores : Callback.usesOnce.IgnoresDepth (.ofString "aa") := by
      refine fun _ _ => ⟨fun _ _ => rfl, fun view => ?_⟩
      dsimp only
      split <;> trivial
    refine ⟨Callback.searched_ignoresDepth ignores, by decide +kernel, fun finds => ?_⟩
    have ends := finds.goesToEnd (fun | 0, _ | 1, _ => rfl) (fun error failed => nomatch failed)
    exact absurd (congrArg Except.toOption ends.result) (by decide +kernel)
  case acceptsTraced =>
    have ignores : Callback.acceptsTraced.IgnoresDepth (.ofString "a") := by
      refine fun _ _ => ⟨fun _ _ => rfl, fun view => ?_⟩
      dsimp only
      split <;> trivial
    refine ⟨Callback.searched_ignoresDepth ignores, by decide +kernel, fun finds => ?_⟩
    have ends := finds.goesToEnd (fun | 0, _ => rfl) (fun error failed => nomatch failed)
    exact absurd (congrArg Except.toOption ends.result) (by decide +kernel)

end PegEngine
