import PegEngine.Pattern.Idiom
import PegEngine.Proofs.Pattern.Recognition

/-!
Contract: what builders of patterns make.

A builder adds nodes to a graph that goes on growing. Whatever is built later, the nodes that it has
made are there in the end, so that what it makes is stated of the `final` graph from the start.

Owns:
- `Kind.eq_of_same` and `Graph.freeOfFunctions_of_same`, for graphs that can be computed;
- `Build.Makes`, with a rule for each way to put builders together;
- `Build.Inside`, that a builder answers a node that is in the graph, as copies of it need;
- `Makes.bindCopy`, for copies with another name or with trace options.
-/

namespace PegEngine

/-- Equality of the kinds of node that grammars are made of. Callbacks and transforms have none that
could be decided. -/
def Kind.same : Kind → Kind → Bool
  | .literal text, .literal other => text == other
  | .charSet set, .charSet other => set == other
  | .capture body, .capture other => body == other
  | .group body dropEmpty, .group other drops => body == other && dropEmpty == drops
  | .stackCapture stack body, .stackCapture name other => stack == name && body == other
  | .stackPop stack count, .stackPop name number => stack == name && count == number
  | .stackMatch stack index expected, .stackMatch name place entry =>
      stack == name && index == place && expected == entry
  | .stackSize stack expected, .stackSize name size => stack == name && expected == size
  | .sequence items, .sequence others | .choice items, .choice others => items == others
  | .repetition body count, .repetition other times => body == other && count == times
  | .reference name cell, .reference other place => name == other && cell == place
  | _, _ => false

theorem Kind.eq_of_same {kind other : Kind} (same : kind.same other) : kind = other := by
  unfold Kind.same at same
  split at same <;> simp_all

namespace Graph

/-- No node is a function pattern. -/
def FreeOfFunctions (graph : Graph) : Prop :=
  ∀ pattern callback, graph.kind pattern ≠ .function callback

variable {graph later : Graph} {node : Node} {pattern : PatternId}

/-- A node that is the same as itself is no function pattern. -/
theorem freeOfFunctions_of_same
    (plain : graph.slots.all (·.all fun node => node.kind.same node.kind)) :
    graph.FreeOfFunctions := by
  intro pattern callback found
  unfold Graph.kind Graph.node at found
  cases there : graph.node? pattern with
  | none =>
      rw [there] at found
      cases found
  | some node =>
      rw [there] at found
      have member : some node ∈ graph.slots :=
        Array.mem_of_getElem? (Option.join_eq_some_iff.mp there)
      have same : node.kind.same node.kind := Array.all_eq_true'.mp plain _ member
      have isFunction : node.kind = .function callback := found
      rw [isFunction] at same
      cases same

theorem FreeOfFunctions.functionFree (free : graph.FreeOfFunctions) (pattern : PatternId) :
    graph.FunctionFree pattern :=
  fun origin _ => free origin

theorem Grown.node_eq (grown : graph.Grown later) (inside : pattern < graph.slots.size) :
    later.node pattern = graph.node pattern := by
  unfold Graph.node
  rw [grown.nodes pattern inside]

theorem node_add_self (graph : Graph) (node : Node) :
    (graph.add node).2.node (graph.add node).1 = node := by
  unfold Graph.node
  rw [node?_add_self]
  rfl

/-- A node that was added is still there in the end. -/
theorem Grown.node_added (grown : (graph.add node).2.Grown later) :
    later.node (graph.add node).1 = node := by
  rw [grown.node_eq (by simp [Graph.add]), node_add_self]

theorem FreeOfFunctions.add (free : graph.FreeOfFunctions)
    (noFunction : ∀ callback, node.kind ≠ .function callback) :
    (graph.add node).2.FreeOfFunctions := by
  intro pattern callback
  rcases Nat.lt_trichotomy pattern graph.slots.size with old | fresh | beyond
  · unfold Graph.kind
    rw [(Grown.add graph node).node_eq old]
    exact free pattern callback
  · subst fresh
    have added : (graph.add node).2.kind graph.slots.size = node.kind :=
      congrArg Node.kind (node_add_self graph node)
    rw [added]
    exact noFunction callback
  · have outside : (graph.slots.push (some node)).size ≤ pattern := by
      rw [Array.size_push]
      exact beyond
    unfold Graph.kind Graph.node node? Graph.add
    rw [Array.getElem?_eq_none outside]
    nofun

/-- What a builder splices in for an item is the item, or what it has inside. -/
theorem opened_of_splice {property : Node → List PatternId → Prop}
    {inner? : Node → Option (List PatternId)}
    (sound : ∀ {node inner}, inner? node = some inner → property node inner)
    (missing : inner? Node.absent = none) (grown : graph.Grown later) (item : PatternId) :
    (inner? (graph.node item)).getD [item] = [item] ∨
      property (later.node item) ((inner? (graph.node item)).getD [item]) := by
  cases found : inner? (graph.node item) with
  | none => exact Or.inl rfl
  | some inner =>
      have inside : item < graph.slots.size := by
        cases there : graph.node? item with
        | none =>
            unfold Graph.node at found
            rw [there] at found
            cases missing.symm.trans found
        | some node => exact lt_size_of_node? there
      rw [grown.node_eq inside]
      exact Or.inr (sound found)

theorem opens_of_splice {kind : List PatternId → Kind} {inner? : Node → Option (List PatternId)}
    (sound : ∀ {node inner}, inner? node = some inner → node.kind = kind inner)
    (missing : inner? Node.absent = none) (grown : graph.Grown later) (item : PatternId) :
    later.Opens kind item ((inner? (graph.node item)).getD [item]) :=
  @opened_of_splice graph later (fun node inner => node.kind = kind inner) _ sound missing grown
    item

/-- A sequence or a choice is free of functions if its items are, opened or not. -/
theorem FunctionFree.of_opened {kind : List PatternId → Kind} {items : List PatternId}
    {opened : PatternId → List PatternId}
    (plain : ∀ inner, (kind inner).children = inner ∧
      (∀ callback, kind inner ≠ .function callback) ∧
      ∀ name cell, kind inner ≠ .reference name cell)
    (opens : ∀ item, graph.Opens kind item (opened item))
    (same : graph.kind pattern = kind (items.flatMap opened))
    (each : ∀ item ∈ items, graph.FunctionFree item) : graph.FunctionFree pattern := by
  obtain ⟨children, noFunction, noReference⟩ := plain (items.flatMap opened)
  refine .of_kind same noFunction noReference fun child member => ?_
  rw [children] at member
  obtain ⟨item, isItem, inside⟩ := List.mem_flatMap.mp member
  rcases opens item with itself | isKind
  · rw [itself, List.mem_singleton] at inside
    exact inside ▸ each item isItem
  · refine (each item isItem).of_calls (Or.inl (Or.inl ?_))
    rw [isKind, (plain _).1]
    exact inside

end Graph

theorem Node.kind_of_sequenceItems? {node : Node} {inner : List PatternId}
    (found : node.sequenceItems? = some inner) : node.kind = .sequence inner := by
  unfold sequenceItems? at found
  split at found
  · next kind _ _ =>
      cases found
      exact kind
  · cases found

theorem Node.kind_of_choiceItems? {node : Node} {inner : List PatternId}
    (found : node.choiceItems? = some inner) : node.kind = .choice inner := by
  unfold choiceItems? at found
  split at found
  · next kind _ _ =>
      cases found
      exact kind
  · cases found

namespace Build

/-- The builder adds nodes, none of them a function pattern, and what it answers has the property
once the graph has become the final one. -/
structure Makes {α : Type} (final : Graph) (build : Build α) (property : α → Prop) : Prop where
  grown : ∀ start : Graph, start.Grown (build start).2
  free : ∀ start : Graph, start.FreeOfFunctions → (build start).2.FreeOfFunctions
  holds : ∀ start : Graph, (build start).2.Grown final → property (build start).1

/-- What the builder answers is in the graph. -/
def Inside (build : Build PatternId) : Prop :=
  ∀ start : Graph, (build start).1 < (build start).2.slots.size

theorem Inside.add (node : Graph → Node) : Inside fun start => start.add (node start) := by
  intro start
  simp [Graph.add]

theorem Inside.bind {α : Type} {build : Build α} {next : α → Build PatternId}
    (inside : ∀ answer, Inside (next answer)) : Inside (build >>= next) :=
  fun start => inside (build start).1 (build start).2

namespace Makes

variable {α β : Type} {final : Graph} {build : Build α} {property : α → Prop}

theorem pure {answer : α} (holds : property answer) : Makes final (Pure.pure answer) property where
  grown := .refl
  free _ := id
  holds _ _ := holds

/-- What is made stands in the graph that has been built. -/
theorem of_run (property : Graph → α → Prop) (makes : ∀ final, Makes final build (property final))
    (start : Graph) : property (build.run start).2 (build.run start).1 :=
  (makes _).holds start (.refl _)

theorem free_run (makes : Makes final build property) {start : Graph}
    (free : start.FreeOfFunctions) : (build.run start).2.FreeOfFunctions :=
  makes.free start free

theorem mono {other : α → Prop} (makes : Makes final build property)
    (imp : ∀ answer, property answer → other answer) : Makes final build other where
  grown := makes.grown
  free := makes.free
  holds start grown := imp _ (makes.holds start grown)

theorem and {other : α → Prop} (makes : Makes final build property)
    (also : Makes final build other) : Makes final build fun answer => property answer ∧ other answer where
  grown := makes.grown
  free := makes.free
  holds start grown := ⟨makes.holds start grown, also.holds start grown⟩

/-- One builder after the other. What the first one makes is known of the answer in the end. -/
theorem bind {next : α → Build β} {other : β → Prop} (first : Makes final build property)
    (second : ∀ answer, Makes final (next answer) fun result => property answer → other result) :
    Makes final (build >>= next) other where
  grown start := (first.grown start).trans ((second _).grown _)
  free start free := (second _).free _ (first.free start free)
  holds start grown :=
    (second _).holds _ grown (first.holds start (((second _).grown _).trans grown))

theorem mapM {item : α → Build β} {related : α → β → Prop} {items : List α}
    (each : ∀ x ∈ items, Makes final (item x) (related x)) :
    Makes final (items.mapM item) (List.Forall₂ related items) := by
  induction items with
  | nil =>
      rw [List.mapM_nil]
      exact .pure .nil
  | cons x rest inductionHypothesis =>
      rw [List.mapM_cons]
      refine .bind (each x List.mem_cons_self) fun y => ?_
      refine .bind
        (inductionHypothesis fun other member => each other (List.mem_cons_of_mem x member))
        fun ys => ?_
      exact .pure fun others first => .cons first others

/-- A builder that adds one node, made of the graph as it is. -/
theorem add {node : Graph → Node} {property : PatternId → Prop}
    (noFunction : ∀ start : Graph, start.FreeOfFunctions → ∀ callback,
      (node start).kind ≠ .function callback)
    (holds : ∀ (start : Graph) (pattern : PatternId), start.Grown final →
      final.node pattern = node start → property pattern) :
    Makes final (fun start => start.add (node start)) property where
  grown start := .add start _
  free start free := free.add (noFunction start free)
  holds start grown := holds start _ ((Graph.Grown.add start _).trans grown) grown.node_added

theorem ofKind (kind : Kind) (noFunction : ∀ callback, kind ≠ .function callback) :
    Makes final (Pattern.ofKind kind) fun pattern => final.kind pattern = kind :=
  .add (fun _ _ => noFunction) fun _ _ _ added => congrArg Node.kind added

theorem sequence (items : List PatternId) :
    Makes final (Pattern.sequence items) fun pattern =>
      ∃ opened, (∀ item, final.Opens .sequence item (opened item)) ∧
        final.kind pattern = .sequence (items.flatMap opened) :=
  .add (fun _ _ => nofun) fun _ _ grown added =>
    ⟨_, Graph.opens_of_splice Node.kind_of_sequenceItems? rfl grown, congrArg Node.kind added⟩

theorem choice (items : List PatternId) :
    Makes final (Pattern.choice items) fun pattern =>
      ∃ opened, (∀ item, final.Opens .choice item (opened item)) ∧
        final.kind pattern = .choice (items.flatMap opened) :=
  .add (fun _ _ => nofun) fun _ _ grown added =>
    ⟨_, Graph.opens_of_splice Node.kind_of_choiceItems? rfl grown, congrArg Node.kind added⟩

/-- A copy of what was just built, with other attributes. -/
theorem bindCopy {body : Build PatternId} {property : PatternId → Prop}
    {next : PatternId → Build β} {other : β → Prop} (change : Node → Node)
    (sameKind : ∀ node, (change node).kind = node.kind) (first : Makes final body property)
    (inside : Inside body)
    (second : ∀ copy, Makes final (next copy) fun result =>
      (∃ pattern, property pattern ∧ final.node copy = change (final.node pattern)) →
        other result) :
    Makes final
      (body >>= fun pattern =>
        (fun start : Graph => start.add (change (start.node pattern)) : Build PatternId) >>= next)
      other where
  grown start := ((first.grown start).trans (.add _ _)).trans ((second _).grown _)
  free start free := by
    have freeBody := first.free start free
    refine (second _).free _ (freeBody.add fun callback => ?_)
    rw [sameKind]
    exact freeBody _ callback
  holds start grown := by
    have grownCopy := ((second _).grown _).trans grown
    have grownBody := (Graph.Grown.add (body start).2 _).trans grownCopy
    refine (second _).holds _ grown ⟨_, first.holds start grownBody, ?_⟩
    rw [grownBody.node_eq (inside start)]
    exact grownCopy.node_added

/-! ## Patterns that are free of functions -/

theorem ofKind_free (kind : Kind) (noFunction : ∀ callback, kind ≠ .function callback)
    (noReference : ∀ name cell, kind ≠ .reference name cell) :
    Makes final (Pattern.ofKind kind) fun pattern =>
      (∀ child ∈ kind.children, final.FunctionFree child) → final.FunctionFree pattern :=
  (ofKind kind noFunction).mono fun _ same each => .of_kind same noFunction noReference each

theorem sequence_free (items : List PatternId) :
    Makes final (Pattern.sequence items) fun pattern =>
      (∀ item ∈ items, final.FunctionFree item) → final.FunctionFree pattern :=
  (sequence items).mono fun _ ⟨_, opens, same⟩ =>
    @Graph.FunctionFree.of_opened final _ .sequence _ _ (fun _ => ⟨rfl, nofun, nofun⟩) opens same

theorem choice_free (items : List PatternId) :
    Makes final (Pattern.choice items) fun pattern =>
      (∀ item ∈ items, final.FunctionFree item) → final.FunctionFree pattern :=
  (choice items).mono fun _ ⟨_, opens, same⟩ =>
    @Graph.FunctionFree.of_opened final _ .choice _ _ (fun _ => ⟨rfl, nofun, nofun⟩) opens same

theorem except_free (body excluded : PatternId) :
    Makes final (Pattern.except body excluded) fun pattern =>
      final.FunctionFree body → final.FunctionFree excluded → final.FunctionFree pattern := by
  refine .bind (.ofKind_free (.negative excluded) nofun nofun) fun notExcluded => ?_
  refine (sequence_free _).mono fun pattern free freeNegative freeBody freeExcluded => free ?_
  have freeNot : final.FunctionFree notExcluded :=
    freeNegative (by simpa [Kind.children] using freeExcluded)
  simp [freeNot, freeBody]

/-! ## Patterns that scan -/

theorem scanLiteral (text : String) : Makes final (Pattern.literal text) fun pattern =>
    ∀ store height, final.Scans store height (final.kind pattern) (.literal text.toList) :=
  (ofKind (.literal text.toList) nofun).mono fun _ kind _ _ => .of_kind kind (.literal _)

theorem scanCharSet (set : CharSet) : Makes final (Pattern.charSet set) fun pattern =>
    ∀ store height, final.Scans store height (final.kind pattern) (.char set.contains) :=
  (ofKind (.charSet set) nofun).mono fun _ kind _ _ => .of_kind kind (.charSet _)

theorem scanChars (count : Nat) : Makes final (Pattern.chars count) fun pattern =>
    ∀ store height, final.Scans store height (final.kind pattern) (.chars count) :=
  (ofKind (.chars count) nofun).mono fun _ kind _ _ => .of_kind kind (.chars _)

theorem scanSequence (items : List PatternId) : Makes final (Pattern.sequence items) fun pattern =>
    ∀ ⦃store height scans⦄,
      List.Forall₂ (fun item scan => final.Scans store height (final.kind item) scan) items scans →
        final.Scans store (height + 1) (final.kind pattern) (.sequence scans) :=
  (sequence items).mono fun _ ⟨_, opens, kind⟩ _ _ _ each => .of_kind kind (.sequence each opens)

theorem scanChoice (items : List PatternId) : Makes final (Pattern.choice items) fun pattern =>
    ∀ ⦃store height scans⦄,
      List.Forall₂ (fun item scan => final.Scans store height (final.kind item) scan) items scans →
        final.Scans store (height + 1) (final.kind pattern) (.choice scans) :=
  (choice items).mono fun _ ⟨_, opens, kind⟩ _ _ _ each => .of_kind kind (.choice each opens)

theorem scanExcept (body excluded : PatternId) :
    Makes final (Pattern.except body excluded) fun pattern => ∀ ⦃store height scan other⦄,
      final.Scans store (height + 1) (final.kind body) scan →
        final.Scans store height (final.kind excluded) other →
          final.Scans store (height + 2) (final.kind pattern) (.sequence [other.absent, scan]) := by
  refine .bind (.ofKind (.negative excluded) nofun) fun notExcluded => ?_
  refine (scanSequence _).mono ?_
  intro pattern inOrder isNegative store height scan other scans excludes
  have absent : final.Scans store (height + 1) (final.kind notExcluded) other.absent :=
    .of_kind isNegative excludes.negative
  exact inOrder (.cons absent (.cons scans .nil))

theorem scanRun (body : PatternId) (minimum : Nat) :
    Makes final (Pattern.repetition body (.atLeast minimum)) fun pattern =>
      ∀ ⦃store height step accepts⦄, final.Scans store height (final.kind body) step →
        step.IsChar accepts →
          final.Scans store (height + 1) (final.kind pattern) (.run accepts minimum) :=
  (ofKind (.repetition body (.atLeast minimum)) nofun).mono fun _ kind _ _ _ _ scans isChar =>
    .of_kind kind (scans.atLeast isChar minimum)

theorem scanOptional (body : PatternId) : Makes final (Pattern.optional body) fun pattern =>
    ∀ ⦃store height scan⦄, final.Scans store height (final.kind body) scan →
      final.Scans store (height + 1) (final.kind pattern) scan.optional :=
  (ofKind (.repetition body (.atMost 1)) nofun).mono fun _ kind _ _ _ scans =>
    .of_kind kind scans.optional

/-- What is in front of the first place where the stop pattern scans. -/
theorem scanUpTo (stop : PatternId) : Makes final (Pattern.upTo stop false) fun pattern =>
    ∀ ⦃store height scan accepts⦄, final.Scans store height (final.kind stop) scan →
      scan.DecidedBy accepts →
        final.Scans store (height + 3) (final.kind pattern) (.run (!accepts ·) 0) := by
  refine .bind (scanChars 1) fun one => ?_
  refine .bindCopy (fun node => { node with trace := some .hidden }) (fun _ => rfl)
    (scanExcept one stop) (.bind fun _ => .add _) fun hidden => ?_
  refine .bind (scanRun hidden 0) fun before => .pure ?_
  intro isRun ⟨step, isStep, copied⟩ isOne store height scan accepts scans decided
  have sameKind : final.kind hidden = final.kind step := by
    unfold Graph.kind
    rw [copied]
  exact isRun (.of_kind sameKind (isStep (isOne store _) scans)) decided.isChar_except

end Makes

end Build

end PegEngine
