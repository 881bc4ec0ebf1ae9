import PegEngine.Proofs.Graph.Built
import PegEngine.Proofs.Pattern.Making

/-!
Contract: sequences and choices are built flat.

A plain node that is an item of a node of its kind is replaced by its own items. As these were put
together in the same way, it is enough to look one level down, and no plain node is left in a node
of its kind.

Owns:
- `Joint`, the two kinds of nodes that this is about;
- `Graph.Flat`, and `Graph.Composed`, the graphs that the builders make, which are flat;
- `Grouping`, lists in lists of patterns, and the two ways to build them: with a node for every list,
  or flat;
- `Graph.Spliced`, by which the items of the one stand to those of the other.
-/

namespace PegEngine

/-- The ways to join patterns. -/
inductive Joint where
  | sequence
  | choice
deriving DecidableEq, Repr

namespace Joint

def kind : Joint → List PatternId → Kind
  | sequence => .sequence
  | choice => .choice

/-- The items of a plain node of this joint. -/
def items? : Joint → Node → Option (List PatternId)
  | sequence => Node.sequenceItems?
  | choice => Node.choiceItems?

/-- Join patterns. Plain nodes of this joint among the items are spliced in. -/
def join : Joint → List PatternId → Build PatternId
  | sequence => Pattern.sequence
  | choice => Pattern.choice

/-- Join patterns as they are, so that the items stay nodes of their own. -/
def keep (joint : Joint) (items : List PatternId) : Build PatternId :=
  Pattern.ofKind (joint.kind items)

variable {joint other : Joint} {items inner : List PatternId}

theorem join_eq (joint : Joint) (items : List PatternId) (graph : Graph) :
    joint.join items graph =
      graph.add { kind := joint.kind (Pattern.splice graph joint.items? items) } := by
  cases joint <;> rfl

theorem join_grown (joint : Joint) (items : List PatternId) (graph : Graph) :
    graph.Grown (joint.join items graph).2 := by
  rw [join_eq]
  exact .add graph _

theorem join_inside (joint : Joint) (items : List PatternId) (graph : Graph) :
    (joint.join items graph).1 < (joint.join items graph).2.slots.size := by
  rw [join_eq]
  simp [Graph.add]

/-- The node of a join, in any later graph that still has it. -/
theorem node_join (joint : Joint) (items : List PatternId) (graph : Graph) {later : Graph}
    (grown : (joint.join items graph).2.Grown later) :
    later.node (joint.join items graph).1 =
      { kind := joint.kind (Pattern.splice graph joint.items? items) } := by
  rw [join_eq] at grown ⊢
  exact grown.node_added

/-- There is something to splice in if the node is plain. -/
theorem items?_eq_some {node : Node} :
    joint.items? node = some items ↔ node = { kind := joint.kind items } := by
  obtain ⟨kind, name, trace⟩ := node
  cases joint <;> cases kind <;> cases name <;> cases trace <;>
    simp [items?, Node.sequenceItems?, Node.choiceItems?, Joint.kind]

theorem eq_of_kind_eq (same : joint.kind items = other.kind inner) :
    joint = other ∧ items = inner := by
  cases joint <;> cases other <;> cases same <;> exact ⟨rfl, rfl⟩

@[simp] theorem children_kind (joint : Joint) (items : List PatternId) :
    (joint.kind items).children = items := by
  cases joint <;> rfl

end Joint

namespace Graph

/-! ## Flat graphs -/

/-- No plain node is an item of a node of its kind. -/
def Flat (graph : Graph) : Prop :=
  ∀ (joint : Joint) (pattern : PatternId) (items : List PatternId),
    graph.kind pattern = joint.kind items →
      ∀ item ∈ items, joint.items? (graph.node item) = none

namespace Flat

variable {graph : Graph} {joint : Joint}

theorem empty : ({} : Graph).Flat := by
  intro joint pattern items found
  cases joint <;> cases found

/-- A new node may be an item of later ones only. -/
theorem add {node : Node} (flat : graph.Flat) (wellFormed : (graph.add node).2.WellFormed)
    (own : ∀ (joint : Joint) (items : List PatternId), node.kind = joint.kind items →
      ∀ item ∈ items, joint.items? (graph.node item) = none) :
    (graph.add node).2.Flat := by
  intro joint pattern items found item member
  have earlier : item < pattern := by
    apply wellFormed.lt_of_child
    rw [found, Joint.children_kind]
    exact member
  rcases Nat.lt_trichotomy pattern graph.slots.size with old | new | beyond
  · have sameKind : (graph.add node).2.kind pattern = graph.kind pattern :=
      congrArg Node.kind ((Grown.add graph node).node_eq old)
    rw [(Grown.add graph node).node_eq (Nat.lt_trans earlier old)]
    exact flat joint pattern items (sameKind ▸ found) item member
  · subst new
    have added : (graph.add node).2.kind graph.slots.size = node.kind :=
      congrArg Node.kind (node_add_self graph node)
    rw [(Grown.add graph node).node_eq earlier]
    exact own joint items (added ▸ found) item member
  · have outside : (graph.add node).2.kind pattern = Node.absent.kind := by
      have missing : (graph.slots.push (some node)).size ≤ pattern := by
        rw [Array.size_push]
        exact beyond
      unfold Graph.kind Graph.node node? Graph.add
      rw [Array.getElem?_eq_none missing]
      rfl
    rw [outside] at found
    cases joint <;> cases found

/-- What is spliced in is not itself to be spliced in. -/
theorem of_mem_splice (flat : graph.Flat) {items : List PatternId} {item : PatternId}
    (member : item ∈ Pattern.splice graph joint.items? items) :
    joint.items? (graph.node item) = none := by
  obtain ⟨outer, -, among⟩ := List.mem_flatMap.mp member
  cases opened : joint.items? (graph.node outer) with
  | none =>
      rw [opened] at among
      rw [List.mem_singleton.mp among]
      exact opened
  | some inner =>
      rw [opened] at among
      have outerKind : graph.kind outer = joint.kind inner :=
        congrArg Node.kind (Joint.items?_eq_some.mp opened)
      exact flat joint outer inner outerKind item among

theorem erase (flat : graph.Flat) (erased : PatternId) : (graph.erase erased).Flat := by
  intro joint pattern items found item member
  have nodes (other : PatternId) : (graph.erase erased).node other =
      if other = erased then Node.absent else graph.node other := by
    unfold Graph.node
    rw [node?_erase]
    split <;> rfl
  unfold Graph.kind at found
  rw [nodes] at found ⊢
  split at found
  · cases joint <;> cases found
  · split
    · cases joint <;> rfl
    · exact flat joint pattern items found item member

theorem discard (flat : graph.Flat) (pattern : PatternId) : (graph.discard pattern).Flat := by
  unfold Graph.discard
  dsimp only
  split
  · exact flat
  · exact flat.erase pattern

theorem bind (flat : graph.Flat) (root : PatternId) (rules : Rules) :
    (graph.bind root rules).2.Flat := by
  have nodes (pattern : PatternId) : (graph.bind root rules).2.node pattern = graph.node pattern := by
    unfold Graph.node
    rw [node?_bind]
  intro joint pattern items found item member
  rw [nodes]
  refine flat joint pattern items ?_ item member
  unfold Graph.kind at found ⊢
  rwa [nodes] at found

end Flat

/-- A graph that comes about by the builders of patterns, by binding and by letting go. Sequences and
choices are built with their own builders only. -/
inductive Composed : Graph → Prop where
  | empty : Composed {}
  | ofKind {graph kind} (composed : Composed graph)
      (children : ∀ child ∈ kind.children, graph.isLive child = true)
      (noReference : ∀ name cell, kind ≠ .reference name cell)
      (noJoint : ∀ (joint : Joint) (items : List PatternId), kind ≠ joint.kind items) :
      Composed (Pattern.ofKind kind graph).2
  | join {graph items} (joint : Joint) (composed : Composed graph)
      (live : ∀ item ∈ items, graph.isLive item = true) : Composed (joint.join items graph).2
  | reference {graph} (name : String) (composed : Composed graph) :
      Composed (Pattern.reference name graph).2
  | named {graph} (body : PatternId) (name : String) (composed : Composed graph) :
      Composed (Pattern.named body name graph).2
  | traced {graph} (body : PatternId) (options : TraceOptions) (composed : Composed graph) :
      Composed (Pattern.traced body options graph).2
  | bind {graph} (root : PatternId) (rules : Rules) (composed : Composed graph) :
      Composed (graph.bind root rules).2
  | discard {graph} (pattern : PatternId) (composed : Composed graph) :
      Composed (graph.discard pattern)
  | release {graph} (handles : List PatternId) (composed : Composed graph) :
      Composed (graph.release handles)

namespace Composed

variable {graph : Graph}

theorem built (composed : graph.Composed) : graph.Built := by
  induction composed with
  | empty => exact .empty
  | ofKind _ children noReference _ before => exact before.ofKind children noReference
  | join joint _ live before =>
      cases joint with
      | sequence => exact before.sequence live
      | choice => exact before.choice live
  | reference name _ before => exact before.reference name
  | named body name _ before => exact before.named body name
  | traced body options _ before => exact before.traced body options
  | bind root rules _ before => exact before.bind root rules
  | discard pattern _ before => exact before.discard pattern
  | release handles _ before => exact before.release handles

/-- Patterns are built flat. -/
theorem flat (composed : graph.Composed) : graph.Flat := by
  induction composed with
  | empty => exact .empty
  | ofKind composed children noReference noJoint before =>
      have after := (composed.ofKind children noReference noJoint).built.sound.1
      exact before.add after fun joint items same => absurd same (noJoint joint items)
  | @join graph items joint composed live before =>
      have after := (composed.join joint live).built.sound.1
      rw [Joint.join_eq] at after ⊢
      refine before.add after fun other inner same item member => ?_
      obtain ⟨rfl, rfl⟩ := Joint.eq_of_kind_eq same
      exact before.of_mem_splice member
  | @reference graph name composed before =>
      have after := (composed.reference name).built.sound.1
      have withCell : graph.addCell.2.Flat := before
      refine withCell.add after fun joint items same => ?_
      cases joint <;> cases same
  | named body name composed before =>
      exact before.add (composed.named body name).built.sound.1 fun joint => before joint body
  | traced body options composed before =>
      exact before.add (composed.traced body options).built.sound.1 fun joint => before joint body
  | bind root rules _ before => exact before.bind root rules
  | discard pattern _ before => exact before.discard pattern
  | release handles _ before =>
      exact release_keeps (fun _ orphan _ flat => flat.erase orphan) before

end Composed

end Graph

/-! ## Lists in lists -/

/-- A list of patterns with further such lists among its entries. -/
inductive Grouping where
  | nil
  | pattern (first : PatternId) (rest : Grouping)
  | group (parts rest : Grouping)
deriving Repr

namespace Grouping

/-- Build the entries. The parts of a group are put together by `combine`. -/
def build (combine : List PatternId → Build PatternId) : Grouping → Build (List PatternId)
  | nil => pure []
  | pattern first rest => do return first :: (← rest.build combine)
  | group parts rest => do
      let first ← combine (← parts.build combine)
      return first :: (← rest.build combine)

/-- The patterns in the list and in the lists in it. -/
def patterns : Grouping → List PatternId
  | nil => []
  | pattern first rest => first :: rest.patterns
  | group parts rest => parts.patterns ++ rest.patterns

end Grouping

namespace Graph

/-- The second list has the items of the first one, where any plain nodes of the joint are replaced
by their own items, and again by the items of those, or are left as they are. -/
inductive Spliced (graph : Graph) (joint : Joint) : List PatternId → List PatternId → Prop where
  | nil : Spliced graph joint [] []
  | keep {items flat : List PatternId} (item : PatternId) (rest : Spliced graph joint items flat) :
      Spliced graph joint (item :: items) (item :: flat)
  | opened {item : PatternId} {inner innerFlat items flat : List PatternId}
      (plain : graph.node item = { kind := joint.kind inner })
      (inside : Spliced graph joint inner innerFlat) (rest : Spliced graph joint items flat) :
      Spliced graph joint (item :: items) (innerFlat ++ flat)

theorem Spliced.refl (graph : Graph) (joint : Joint) (items : List PatternId) :
    graph.Spliced joint items items := by
  induction items with
  | nil => exact .nil
  | cons item rest inductionHypothesis => exact .keep item inductionHypothesis

/-- An item is replaced by its own items if it is plain. -/
theorem Spliced.splice_cons {graph : Graph} {joint : Joint} {item first : PatternId}
    {items others : List PatternId}
    (same : item = first ∨ ∃ inner parts, graph.node item = { kind := joint.kind inner } ∧
      graph.node first = { kind := joint.kind parts } ∧ graph.Spliced joint inner parts)
    (rest : graph.Spliced joint items (Pattern.splice graph joint.items? others)) :
    graph.Spliced joint (item :: items)
      (Pattern.splice graph joint.items? (first :: others)) := by
  have opens : Pattern.splice graph joint.items? (first :: others) =
      (joint.items? (graph.node first)).getD [first] ++
        Pattern.splice graph joint.items? others := rfl
  rw [opens]
  rcases same with rfl | ⟨inner, parts, plain, plainParts, inside⟩
  · cases opened : joint.items? (graph.node item) with
    | none => exact .keep item rest
    | some inner => exact .opened (Joint.items?_eq_some.mp opened) (.refl graph joint inner) rest
  · rw [Joint.items?_eq_some.mpr plainParts]
    exact .opened plain inside rest

/-- In the graph the list was built with a node of its own for every group. -/
inductive Keeps (graph : Graph) (joint : Joint) : Grouping → List PatternId → Prop where
  | nil : Keeps graph joint .nil []
  | pattern {rest : Grouping} {items : List PatternId} (first : PatternId)
      (others : Keeps graph joint rest items) :
      Keeps graph joint (.pattern first rest) (first :: items)
  | group {parts rest : Grouping} {inner items : List PatternId} {first : PatternId}
      (plain : graph.node first = { kind := joint.kind inner })
      (inside : Keeps graph joint parts inner) (others : Keeps graph joint rest items) :
      Keeps graph joint (.group parts rest) (first :: items)

end Graph

namespace Grouping

variable {joint : Joint}

theorem build_grown {combine : List PatternId → Build PatternId}
    (grows : ∀ (items : List PatternId) (graph : Graph), graph.Grown (combine items graph).2)
    (grouping : Grouping) (graph : Graph) : graph.Grown (grouping.build combine graph).2 := by
  induction grouping generalizing graph with
  | nil => exact .refl graph
  | pattern first rest inductionHypothesis => exact inductionHypothesis graph
  | group parts rest partsGrow restGrow =>
      exact ((partsGrow graph).trans (grows _ _)).trans (restGrow _)

theorem build_keep_grown (grouping : Grouping) (graph : Graph) :
    graph.Grown (grouping.build joint.keep graph).2 :=
  grouping.build_grown (fun _ graph => .add graph _) graph

theorem build_join_grown (grouping : Grouping) (graph : Graph) :
    graph.Grown (grouping.build joint.join graph).2 :=
  grouping.build_grown (Joint.join_grown joint) graph

theorem build_keep_keeps (grouping : Grouping) (graph : Graph) {later : Graph}
    (grown : (grouping.build joint.keep graph).2.Grown later) :
    later.Keeps joint grouping (grouping.build joint.keep graph).1 := by
  induction grouping generalizing graph with
  | nil => exact .nil
  | pattern first rest inductionHypothesis => exact .pattern first (inductionHypothesis graph grown)
  | group parts rest partsKeep restKeep =>
      have grownRest := (rest.build_keep_grown _).trans grown
      exact .group grownRest.node_added (partsKeep graph ((Graph.Grown.add _ _).trans grownRest))
        (restKeep _ grown)

/-- What is spliced in does not change when a graph grows. -/
theorem splice_congr {graph later : Graph} (grown : graph.Grown later)
    {inner? : Node → Option (List PatternId)} {items : List PatternId}
    (inside : ∀ item ∈ items, item < graph.slots.size) :
    Pattern.splice later inner? items = Pattern.splice graph inner? items := by
  unfold Pattern.splice
  refine List.flatMap_congr fun item member => ?_
  rw [grown.node_eq (inside item member)]

/-- Built flat, the entries are patterns of the graph. -/
theorem build_join_inside (grouping : Grouping) (graph : Graph)
    (inside : ∀ pattern ∈ grouping.patterns, pattern < graph.slots.size) :
    ∀ item ∈ (grouping.build joint.join graph).1,
      item < (grouping.build joint.join graph).2.slots.size := by
  induction grouping generalizing graph with
  | nil => exact fun item member => nomatch member
  | pattern first rest inductionHypothesis =>
      intro item member
      rcases List.mem_cons.mp member with rfl | among
      · exact Nat.lt_of_lt_of_le (inside item List.mem_cons_self) (rest.build_join_grown graph).size
      · exact inductionHypothesis graph
          (fun pattern member => inside pattern (List.mem_cons_of_mem first member)) item among
  | group parts rest _ restHypothesis =>
      intro item member
      let joined := joint.join (parts.build joint.join graph).1 (parts.build joint.join graph).2
      have grown : graph.Grown joined.2 :=
        (parts.build_join_grown graph).trans (Joint.join_grown joint _ _)
      rcases List.mem_cons.mp member with rfl | among
      · exact Nat.lt_of_lt_of_le (Joint.join_inside joint _ _) (rest.build_join_grown joined.2).size
      · refine restHypothesis joined.2 (fun pattern member => ?_) item among
        exact Nat.lt_of_lt_of_le (inside pattern (List.mem_append_right _ member)) grown.size

/-- Built flat and spliced into a node, the entries are the flat form of those with a node for every
group. -/
theorem build_join_spliced (grouping : Grouping) (graph : Graph)
    (inside : ∀ pattern ∈ grouping.patterns, pattern < graph.slots.size) {later : Graph}
    (grown : (grouping.build joint.join graph).2.Grown later) {items : List PatternId}
    (keeps : later.Keeps joint grouping items) :
    later.Spliced joint items
      (Pattern.splice later joint.items? (grouping.build joint.join graph).1) := by
  induction grouping generalizing graph items with
  | nil =>
      cases keeps
      exact .nil
  | pattern first rest inductionHypothesis =>
      cases keeps with
      | pattern _ others =>
          refine .splice_cons (Or.inl rfl) (inductionHypothesis graph (fun pattern member => ?_)
            grown others)
          exact inside pattern (List.mem_cons_of_mem first member)
  | group parts rest partsHypothesis restHypothesis =>
      let built := parts.build joint.join graph
      let joined := joint.join built.1 built.2
      have grownBuilt : built.2.Grown joined.2 := Joint.join_grown joint _ _
      have grownLater : joined.2.Grown later := (rest.build_join_grown joined.2).trans grown
      have partsWithin : ∀ pattern ∈ parts.patterns, pattern < graph.slots.size :=
        fun pattern member => inside pattern (List.mem_append_left _ member)
      have restWithin : ∀ pattern ∈ rest.patterns, pattern < joined.2.slots.size :=
        fun pattern member => Nat.lt_of_lt_of_le (inside pattern (List.mem_append_right _ member))
          ((parts.build_join_grown graph).trans grownBuilt).size
      have splicedThen : Pattern.splice later joint.items? built.1 =
          Pattern.splice built.2 joint.items? built.1 :=
        splice_congr (grownBuilt.trans grownLater) (parts.build_join_inside graph partsWithin)
      have plainParts : later.node joined.1 =
          { kind := joint.kind (Pattern.splice later joint.items? built.1) } := by
        rw [splicedThen]
        exact Joint.node_join joint built.1 built.2 grownLater
      cases keeps with
      | group plain insideKeeps others =>
          exact .splice_cons
            (Or.inr ⟨_, _, plain, plainParts, partsHypothesis graph partsWithin
              (grownBuilt.trans grownLater) insideKeeps⟩)
            (restHypothesis joined.2 restWithin grown others)

/-- A pattern with a node for every group. -/
def nested (joint : Joint) (grouping : Grouping) : Build PatternId := do
  joint.keep (← grouping.build joint.keep)

/-- The pattern as the builders make it. -/
def flat (joint : Joint) (grouping : Grouping) : Build PatternId := do
  joint.join (← grouping.build joint.join)

/-- Built in one graph, the two patterns are plain nodes, and the items of the flat one are those of
the nested one, spliced in. -/
theorem nested_spliced_flat (joint : Joint) (grouping : Grouping) (graph : Graph)
    (inside : ∀ pattern ∈ grouping.patterns, pattern < graph.slots.size) :
    let nested := grouping.nested joint graph
    let flat := grouping.flat joint nested.2
    ∃ items flatItems, flat.2.node nested.1 = { kind := joint.kind items } ∧
      flat.2.node flat.1 = { kind := joint.kind flatItems } ∧
        flat.2.Spliced joint items flatItems := by
  intro nested flat
  let kept := grouping.build joint.keep graph
  let built := grouping.build joint.join nested.2
  have grownNested : kept.2.Grown nested.2 := .add _ _
  have grownFlat : built.2.Grown flat.2 := Joint.join_grown joint _ _
  have grown : nested.2.Grown flat.2 := (grouping.build_join_grown nested.2).trans grownFlat
  have within : ∀ pattern ∈ grouping.patterns, pattern < nested.2.slots.size :=
    fun pattern member => Nat.lt_of_lt_of_le (inside pattern member)
      ((grouping.build_keep_grown graph).trans grownNested).size
  refine ⟨kept.1, Pattern.splice built.2 joint.items? built.1, grown.node_added,
    Joint.node_join joint _ _ (.refl _), ?_⟩
  rw [← splice_congr grownFlat (grouping.build_join_inside nested.2 within)]
  exact grouping.build_join_spliced nested.2 within grownFlat
    (grouping.build_keep_keeps graph (grownNested.trans grown))

end Grouping

end PegEngine
