import PegEngine.Pattern.Build
import PegEngine.Proofs.Graph.Copies
import PegEngine.Proofs.Matching.Refinement
import PegEngine.Proofs.Peg.Primitives
import PegEngine.Proofs.Pattern.Scan

/-!
Contract: patterns that match as a scan does.

What such a pattern matches depends on nothing but the characters ahead of it. A sequence or a
choice that is spliced into another one matches the same there as it would on its own.

Owns:
- `Graph.Scans`, that a kind of node matches as a scan, with one lemma for each kind;
- `Graph.Opens`, what may stand for an item among the items of a sequence or a choice;
- `sequence_append`, `sequence_shift` and `choice_append`, the laws of matching by value that
  splicing rests on;
- `atLeast_repeats`, a repetition as long as a scan repeats.
-/

namespace PegEngine

/-- A part without captures and without width changes nothing. -/
theorem Match.append_nothing (soFar : Match) (text : Text) :
    soFar.append (text.matchOver soFar.stop soFar.stop) = soFar := by
  simp [Match.append, Text.matchOver]

theorem Match.append_matchOver (soFar : Match) (text : Text) (start stop : Nat) :
    soFar.append (text.matchOver start stop) = { soFar with stop } := by
  simp [Match.append, Text.matchOver]

theorem Match.append_append (first second third : Match) :
    (first.append second).append third = first.append (second.append third) := by
  simp [Match.append]

namespace ByValue

section Laws

variable {eval : Evaluator}

theorem sequence_of_found {item : PatternId} {rest : List PatternId} {soFar m : Match}
    {store reached : Store} (found : eval item soFar.stop store = .ok (some (m, reached))) :
    sequence eval (item :: rest) soFar store = sequence eval rest (soFar.append m) reached := by
  simp only [sequence, found, after]

theorem sequence_of_failed {item : PatternId} {rest : List PatternId} {soFar : Match}
    {store : Store} (failed : eval item soFar.stop store = .ok none) :
    sequence eval (item :: rest) soFar store = .ok none := by
  simp only [sequence, failed, after]

/-- The end of a sequence that goes on after the first part of its items. -/
theorem sequence_append (first second : List PatternId) (soFar : Match) (store : Store) :
    sequence eval (first ++ second) soFar store =
      after (sequence eval first soFar store) store fun
        | none, _ => .ok none
        | some m, store => sequence eval second m store := by
  induction first generalizing soFar store with
  | nil => rfl
  | cons item rest inductionHypothesis =>
      simp only [List.cons_append, sequence]
      cases eval item soFar.stop store with
      | error error => rfl
      | ok outcome =>
          cases outcome with
          | none => rfl
          | some found =>
              obtain ⟨m, reached⟩ := found
              simp only [after, inductionHypothesis]
/-- What a sequence matches does not depend on the match before it, but for the place. -/
theorem sequence_shift (items : List PatternId) (soFar part : Match) (store : Store) :
    sequence eval items (soFar.append part) store =
      (sequence eval items part store).map (·.map fun (m, store) => (soFar.append m, store)) := by
  induction items generalizing part store with
  | nil => rfl
  | cons item rest inductionHypothesis =>
      unfold sequence
      have samePlace : (soFar.append part).stop = part.stop := rfl
      rw [samePlace]
      cases eval item part.stop store with
      | error error => rfl
      | ok outcome =>
          cases outcome with
          | none => rfl
          | some found =>
              simp only [after, Match.append_append]
              exact inductionHypothesis _ _

theorem choice_append (i : Nat) (first second : List PatternId) (store : Store) :
    choice eval i (first ++ second) store =
      after (choice eval i first store) store fun
        | some m, store => .ok (some (m, store))
        | none, store => choice eval i second store := by
  induction first with
  | nil => rfl
  | cons item rest inductionHypothesis =>
      simp only [List.cons_append, choice]
      cases eval item i store with
      | error error => rfl
      | ok outcome =>
          cases outcome with
          | none => exact inductionHypothesis
          | some found => rfl

end Laws

/-- Going on after an outcome that leaves the store alone. -/
theorem after_still {α : Type} (outcome : Option Match) (store : Store)
    (next : Option Match → Store → Except MatchError α) :
    after (still outcome store) store next = next outcome store := by
  cases outcome <;> rfl

/-- A call of a node inside the text. -/
theorem eval_succ {graph : Graph} {pattern : PatternId} {kind : Kind}
    (same : graph.kind pattern = kind) {text : Text} {i : Nat} (inside : i ≤ text.length)
    (limit room : Nat) (within : Option String) (store : Store) :
    eval { graph, text, limit } (room + 1) within pattern i store =
      ByValue.kind { graph, text, limit }
        (eval { graph, text, limit } room (graph.name? pattern <|> within))
        (graph.name? pattern <|> within) i kind store := by
  unfold eval
  dsimp only
  rw [Nat.min_eq_left inside, same]

end ByValue

/-- The match so far, extended by what a scan takes next. -/
def Scan.extend (scan : Scan) (text : Text) (soFar : Match) : Option Match :=
  (scan (text.ahead soFar.stop)).map fun width => { soFar with stop := soFar.stop + width }

theorem Scan.map_append_matchAt (scan : Scan) (text : Text) (soFar : Match) :
    (scan.matchAt text soFar.stop).map soFar.append = scan.extend text soFar := by
  unfold matchAt extend
  rw [Option.map_map]
  simp only [Function.comp_def, Match.append_matchOver]

namespace Graph

/-- In the store, a kind of node matches as the scan does: wherever in a text, without captures, and
without a change of the store. It takes no more than `height` nested calls. -/
def Scans (graph : Graph) (store : ByValue.Store) (height : Nat) (kind : Kind) (scan : Scan) :
    Prop :=
  ∀ ⦃text : Text⦄ ⦃i : Nat⦄ (limit room : Nat) (within : Option String), i ≤ text.length →
    height ≤ room →
      ByValue.kind { graph, text, limit } (ByValue.eval { graph, text, limit } room within) within
        i kind store = ByValue.still (scan.matchAt text i) store

/-- The items that a sequence or a choice may have in place of an item: the item itself, or what is
inside of it if it is one of the same kind. -/
def Opens (graph : Graph) (kind : List PatternId → Kind) (item : PatternId)
    (inner : List PatternId) : Prop :=
  inner = [item] ∨ graph.kind item = kind inner

namespace Scans

variable {graph : Graph} {store : ByValue.Store} {height : Nat} {pattern body : PatternId}
  {scan step : Scan}

theorem of_kind {kind : Kind} (same : graph.kind pattern = kind)
    (scans : graph.Scans store height kind scan) :
    graph.Scans store height (graph.kind pattern) scan := by
  rw [same]
  exact scans

/-- A call of a node that scans. -/
theorem eval (scans : graph.Scans store height (graph.kind pattern) scan) {text : Text} {i : Nat}
    (inside : i ≤ text.length) {room : Nat} (enough : height < room) (limit : Nat)
    (within : Option String) :
    ByValue.eval { graph, text, limit } room within pattern i store =
      ByValue.still (scan.matchAt text i) store := by
  cases room with
  | zero => omega
  | succ room =>
      unfold ByValue.eval
      dsimp only
      rw [Nat.min_eq_left inside]
      exact scans limit room _ inside (Nat.le_of_lt_succ enough)

/-! ## Primitives -/

theorem literal (chars : List Char) :
    graph.Scans store height (.literal chars) (.literal chars) := by
  intro text i limit room within inside _
  have occurs := Peg.occursAt_iff inside chars
  unfold ByValue.kind Matching.literalAt Scan.matchAt Scan.literal
  dsimp only
  congr 1
  by_cases ahead : chars <+: text.ahead i
  · rw [if_pos (occurs.mpr ahead), if_pos (List.isPrefixOf_iff_prefix.mpr ahead)]
    rfl
  · rw [if_neg (mt occurs.mp ahead), if_neg (mt List.isPrefixOf_iff_prefix.mp ahead)]
    rfl

theorem charSet (set : CharSet) : graph.Scans store height (.charSet set) (.char set.contains) := by
  intro text i limit room within _ _
  unfold ByValue.kind Matching.charAt Scan.matchAt Scan.char
  dsimp only
  rw [Text.charAt?_eq_head?]
  cases text.ahead i with
  | nil => rfl
  | cons c rest =>
      dsimp only [List.head?_cons]
      split <;> rfl

theorem chars (count : Nat) : graph.Scans store height (.chars count) (.chars count) := by
  intro text i limit room within _ _
  unfold ByValue.kind Matching.charsAt Scan.matchAt Scan.chars
  dsimp only
  rw [Text.length_ahead]
  split <;> rfl

/-- The text that is bound to the name. -/
theorem backReference {name : String} {value : Capture}
    (bound : store.bindings.lookup? name = some value) :
    graph.Scans store height (.backReference name) (.literal value.display.toList) := by
  intro text i limit room within inside enough
  have same : graph.Scans store height (.literal value.display.toList) _ := literal _
  unfold ByValue.kind ByValue.backReference
  dsimp only
  rw [bound]
  exact same limit room within inside enough

/-! ## Combinators -/

/-- What stands for an item among the items of a sequence matches as the item. -/
theorem sequence_opened {item : PatternId} {inner : List PatternId}
    (scans : graph.Scans store height (graph.kind item) scan)
    (opens : graph.Opens .sequence item inner) {text : Text} {limit room : Nat}
    {within : Option String} {soFar : Match} (placed : soFar.stop ≤ text.length)
    (enough : height < room) :
    ByValue.sequence (ByValue.eval { graph, text, limit } room within) inner soFar store =
      ByValue.still (scan.extend text soFar) store := by
  rw [← scan.map_append_matchAt]
  rcases opens with itself | opened
  · rw [itself]
    unfold ByValue.sequence
    rw [scans.eval placed enough, ByValue.after_still]
    cases scan.matchAt text soFar.stop <;> rfl
  · have alone := scans limit room within placed (Nat.le_of_succ_le enough)
    rw [opened] at alone
    conv_lhs => rw [← soFar.append_nothing text]
    rw [ByValue.sequence_shift]
    refine (congrArg (Except.map _) alone).trans ?_
    cases scan.matchAt text soFar.stop <;> rfl

theorem sequence {items : List PatternId} {scans : List Scan} {opened : PatternId → List PatternId}
    (each : List.Forall₂ (fun item scan => graph.Scans store height (graph.kind item) scan)
      items scans)
    (opens : ∀ item, graph.Opens .sequence item (opened item)) :
    graph.Scans store (height + 1) (.sequence (items.flatMap opened)) (.sequence scans) := by
  intro text i limit room within inside enough
  -- The induction is on the items, for any match that they are to extend.
  suffices further : ∀ soFar : Match, soFar.stop ≤ text.length →
      ByValue.sequence (ByValue.eval { graph, text, limit } room within) (items.flatMap opened)
        soFar store = ByValue.still ((Scan.sequence scans).extend text soFar) store from
    further (text.matchOver i i) inside
  induction each with
  | nil => exact fun soFar _ => rfl
  | @cons item scan items scans scansItem _ inductionHypothesis =>
      intro soFar placed
      rw [List.flatMap_cons, ByValue.sequence_append,
        scansItem.sequence_opened (opens item) placed enough, ByValue.after_still]
      unfold Scan.extend Scan.sequence Scan.andThen
      dsimp only
      cases taken : scan (text.ahead soFar.stop) with
      | none => rfl
      | some width =>
          refine (inductionHypothesis _ (scan.stop_le placed taken)).trans ?_
          unfold Scan.extend
          dsimp only [Option.map_some, Option.bind_some]
          rw [Text.drop_ahead, Option.map_map]
          simp only [Function.comp_def, Nat.add_assoc]

/-- What stands for an item among the items of a choice matches as the item. -/
theorem choice_opened {item : PatternId} {inner : List PatternId}
    (scans : graph.Scans store height (graph.kind item) scan)
    (opens : graph.Opens .choice item inner) {text : Text} {i limit room : Nat}
    {within : Option String} (inside : i ≤ text.length) (enough : height < room) :
    ByValue.choice (ByValue.eval { graph, text, limit } room within) i inner store =
      ByValue.still (scan.matchAt text i) store := by
  rcases opens with itself | opened
  · rw [itself]
    unfold ByValue.choice
    rw [scans.eval inside enough, ByValue.after_still]
    cases scan.matchAt text i <;> rfl
  · have alone := scans limit room within inside (Nat.le_of_succ_le enough)
    rw [opened] at alone
    exact alone

theorem choice {items : List PatternId} {scans : List Scan} {opened : PatternId → List PatternId}
    (each : List.Forall₂ (fun item scan => graph.Scans store height (graph.kind item) scan)
      items scans)
    (opens : ∀ item, graph.Opens .choice item (opened item)) :
    graph.Scans store (height + 1) (.choice (items.flatMap opened)) (.choice scans) := by
  intro text i limit room within inside enough
  unfold ByValue.kind
  dsimp only
  induction each with
  | nil => rfl
  | @cons item scan items scans scansItem _ inductionHypothesis =>
      rw [List.flatMap_cons, ByValue.choice_append,
        scansItem.choice_opened (opens item) inside enough, ByValue.after_still]
      unfold Scan.matchAt Scan.choice Scan.orElse
      dsimp only
      cases scan (text.ahead i) with
      | none => exact inductionHypothesis
      | some width => rfl

theorem negative (scans : graph.Scans store height (graph.kind body) scan) :
    graph.Scans store (height + 1) (.negative body) scan.absent := by
  intro text i limit room within inside enough
  unfold ByValue.kind
  dsimp only
  rw [scans.eval inside enough, ByValue.after_still]
  unfold Scan.matchAt Scan.absent Matching.zeroWidthIf
  dsimp only
  cases scan (text.ahead i) with
  | none => rfl
  | some width => rfl

theorem optional (scans : graph.Scans store height (graph.kind body) scan) :
    graph.Scans store (height + 1) (.repetition body (.atMost 1)) scan.optional := by
  intro text i limit room within inside enough
  unfold ByValue.kind ByValue.repetition ByValue.upTo
  dsimp only [Text.matchOver]
  rw [scans.eval inside enough, ByValue.after_still]
  unfold Scan.matchAt Scan.optional
  dsimp only
  cases scan (text.ahead i) with
  | none => rfl
  | some width => rfl

end Scans

/-- A repetition goes on as long as its body scans. -/
theorem atLeast_repeats {graph : Graph} {store : ByValue.Store} {height : Nat} {body : PatternId}
    {step : Scan} (scans : graph.Scans store height (graph.kind body) step) {text : Text}
    {limit room : Nat} {within : Option String} (enough : height < room)
    (minimum done : Nat) {left count width : Nat} {soFar : Match}
    (placed : soFar.stop ≤ text.length)
    (enoughLeft : text.length - soFar.stop ≤ left)
    (repeats : step.Repeats (text.ahead soFar.stop) count width) :
    ByValue.atLeast (ByValue.eval { graph, text, limit } room within) body minimum left done soFar
        store =
      ByValue.still
        (if minimum ≤ done + count then some { soFar with stop := soFar.stop + width } else none)
        store := by
  generalize same : text.ahead soFar.stop = ahead at repeats
  induction repeats generalizing left done soFar with
  | done fails =>
      unfold ByValue.atLeast
      rw [scans.eval placed enough, ByValue.after_still]
      unfold Scan.matchAt
      rw [same, fails]
      rfl
  | @more ahead first count width taken progress _ inductionHypothesis =>
      have fits := step.width_le taken
      rw [← same, Text.length_ahead] at fits
      unfold ByValue.atLeast
      rw [scans.eval placed enough, ByValue.after_still]
      unfold Scan.matchAt
      rw [same, taken]
      dsimp only [Option.map_some]
      rw [Match.append_matchOver, if_neg (by dsimp only [Text.matchOver]; omega)]
      cases left with
      | zero => omega
      | succ left =>
          have placedNext : soFar.stop + first ≤ text.length := by omega
          have fewer : text.length - (soFar.stop + first) ≤ left := by omega
          have next := @inductionHypothesis (done + 1) left
            { soFar with stop := soFar.stop + first } placedNext fewer
            (by rw [← same, Text.drop_ahead])
          refine next.trans ?_
          rw [Nat.add_assoc, Nat.add_assoc, Nat.add_comm 1]

/-- A repetition of a scan that takes one character of a class. -/
theorem Scans.atLeast {graph : Graph} {store : ByValue.Store} {height : Nat} {body : PatternId}
    {step : Scan} {accepts : Char → Bool}
    (scans : graph.Scans store height (graph.kind body) step)
    (isChar : step.IsChar accepts) (minimum : Nat) :
    graph.Scans store (height + 1) (.repetition body (.atLeast minimum))
      (.run accepts minimum) := by
  intro text i limit room within inside enough
  unfold ByValue.kind ByValue.repetition
  dsimp only
  have start : (text.matchOver i i).stop ≤ text.length := inside
  refine (atLeast_repeats scans enough minimum 0 start (Nat.le_refl _)
    (isChar.repeats _)).trans ?_
  unfold Scan.matchAt Scan.run
  simp only [Text.matchOver, Nat.zero_add]
  split <;> rfl

/-- How a match of a pattern that scans ends. -/
theorem result_of_scans {graph : Graph} {pattern : PatternId} {input : Input} {context : Context}
    {i height : Nat} {scan : Scan} (free : graph.FunctionFree pattern)
    (scans : ∀ store, graph.Scans store height (graph.kind pattern) scan)
    (room : context.depth + height < context.config.limit) (inside : i ≤ input.text.length) :
    (graph.matchIn pattern input i context).result = .ok (scan.matchAt input.text i) := by
  refine result_of_still free fun setup left store same enough => ?_
  subst same
  exact (scans store).eval inside (by omega) _ _

end Graph

end PegEngine
