import PegEngine.Proofs.Lexer.Patterns
import PegEngine.Proofs.Matching.Limit
import PegEngine.Proofs.Pattern.Taking
import PegEngine.Workspace

/-!
Contract: a stack grammar recognises balanced tags.

Tags may be nested, and each closing tag has the name of the tag that it closes. The pattern of a
tag pushes its name onto a stack, and the pattern of a closing tag takes the name off that it finds
on top. What was pushed in a part that does not match is taken back.

Owns:
- `Tags.IsElement`, the balanced tags, and `IsElement.unique`, that no other ones begin with them;
- `Pattern.element` and `Pattern.document`, the grammar, and `documentGraph`, in which an element
  refers to itself;
- `TagNodes` and `DocumentNodes`, the nodes that it is made of;
- `TagNodes.reads_element`, how the pattern of an element ends, by induction on what is left of the
  text;
- `document_recognizes`, for every text and every recursion limit.
-/

namespace PegEngine

namespace Tags

/-! ## Balanced tags -/

mutual

/-- A tag, elements inside of it, and the closing tag of the same name, which is made of letters. -/
inductive IsElement : List Char → Prop where
  | tagged {name inner : List Char} (nonempty : name ≠ []) (letters : ∀ c ∈ name, c.isAlpha)
      (elements : AreElements inner) :
      IsElement ('<' :: (name ++ '>' :: (inner ++ '<' :: '/' :: (name ++ ['>']))))

/-- Any number of elements, one after the other. -/
inductive AreElements : List Char → Prop where
  | none : AreElements []
  | more {first rest : List Char} (element : IsElement first) (elements : AreElements rest) :
      AreElements (first ++ rest)

end

/-- No element is next. -/
def NoElement (ahead : List Char) : Prop :=
  ∀ element rest, IsElement element → ahead ≠ element ++ rest

section Names

variable {name other rest left : List Char}

theorem takeWhile_name (letters : ∀ c ∈ name, c.isAlpha) :
    (name ++ '>' :: rest).takeWhile Char.isAlpha = name := by
  rw [List.takeWhile_append_of_pos letters]
  simp [show ¬ Char.isAlpha '>' by decide]

/-- A name ends where the letters do. -/
theorem name_unique (letters : ∀ c ∈ name, c.isAlpha) (others : ∀ c ∈ other, c.isAlpha)
    (same : name ++ '>' :: rest = other ++ '>' :: left) : name = other ∧ rest = left := by
  obtain rfl : name = other := by rw [← takeWhile_name letters, same, takeWhile_name others]
  exact ⟨rfl, List.tail_eq_of_cons_eq (List.append_cancel_left same)⟩

end Names

theorem IsElement.opens {element : List Char} (isElement : IsElement element) :
    ∃ c rest, element = '<' :: c :: rest ∧ c.isAlpha := by
  obtain @⟨name, inner, nonempty, letters, _⟩ := isElement
  cases name with
  | nil => exact (nonempty rfl).elim
  | cons c name => exact ⟨c, _, rfl, letters c List.mem_cons_self⟩

theorem IsElement.length_pos {element : List Char} (isElement : IsElement element) :
    0 < element.length := by
  obtain ⟨_, _, rfl, _⟩ := isElement.opens
  exact Nat.succ_pos _

theorem noElement_closing (rest : List Char) : NoElement ('<' :: '/' :: rest) := by
  intro element left isElement same
  obtain ⟨c, behind, rfl, isAlpha⟩ := isElement.opens
  obtain ⟨rfl, -⟩ := List.cons.inj (List.cons.inj same).2
  exact absurd isAlpha (by decide)

mutual

/-- What begins with an element begins with no other one. -/
theorem IsElement.unique : ∀ {element other rest left : List Char}, IsElement element →
    IsElement other → element ++ rest = other ++ left → element = other ∧ rest = left
  | _, _, rest, left, @IsElement.tagged name inner _ letters elements,
      @IsElement.tagged name' inner' _ letters' elements', same => by
    simp only [List.cons_append, List.append_assoc, List.cons.injEq, true_and, List.nil_append]
      at same
    obtain ⟨rfl, sameInner⟩ := name_unique letters letters' same
    obtain ⟨rfl, sameClosing⟩ := elements.unique elements' (noElement_closing _)
      (noElement_closing _) sameInner
    simp only [List.cons.injEq, true_and, List.append_cancel_left_eq] at sameClosing
    exact ⟨rfl, sameClosing⟩

/-- Where the elements end depends on nothing but what begins with them. -/
theorem AreElements.unique : ∀ {elements others rest left : List Char}, AreElements elements →
    AreElements others → NoElement rest → NoElement left → elements ++ rest = others ++ left →
      elements = others ∧ rest = left
  | _, _, _, _, .none, .none, _, _, same => ⟨rfl, same⟩
  | _, _, _, _, .none, .more element _, noneHere, _, same => by
    rw [List.append_assoc] at same
    exact (noneHere _ _ element same).elim
  | _, _, _, _, .more element _, .none, _, noneThere, same => by
    rw [List.append_assoc] at same
    exact (noneThere _ _ element same.symm).elim
  | _, _, _, _, .more element elements, .more other others, noneHere, noneThere, same => by
    rw [List.append_assoc, List.append_assoc] at same
    obtain ⟨rfl, sameRest⟩ := element.unique other same
    obtain ⟨rfl, sameLeft⟩ := elements.unique others noneHere noneThere sameRest
    exact ⟨rfl, sameLeft⟩

end

end Tags

/-! ## The grammar -/

namespace Pattern

/-- A tag, whose name goes onto the stack. -/
def openingTag : Build PatternId := do
  sequence [← literal "<", ← stackCapture "tags" (← capture (← oneOrMore (← alpha))), ← literal ">"]

/-- A closing tag, with the name that is on top of the stack, and off it goes. -/
def closingTag : Build PatternId := do
  sequence [← literal "</", ← stackMatch "tags" (-1), ← stackPop "tags" 1, ← literal ">"]

def element : Build PatternId := do
  let opening ← openingTag
  let inner ← zeroOrMore (← reference "element")
  named (← sequence [opening, inner, ← closingTag]) "element"

/-- An element after which no tag is left open. -/
def document (element : PatternId) : Build PatternId := do
  sequence [element, ← stackSizeIs "tags" 0]

end Pattern

/-- The pattern of documents, the number of references bound, and the workspace that keeps the
pattern alone. An element refers to itself. -/
def boundDocument : PatternId × Except PatternError Nat × Workspace :=
  let (element, workspace) := Workspace.build {} Pattern.element
  let (bound, workspace) := workspace.bind element [element]
  let (document, workspace) := workspace.build (Pattern.document element)
  (document, bound, (workspace.define "document" document).release)

def documentPattern : PatternId :=
  boundDocument.1

def documentGraph : Graph :=
  boundDocument.2.2.graph

/-! ## Steps of a match -/

/-- A sequence goes on behind a literal that is next, and otherwise does not match. -/
theorem sequence_literal {graph : Graph} {store : ByValue.Store} {item : PatternId}
    {chars : List Char} (scans : graph.Scans store 0 (graph.kind item) (.literal chars))
    {width : Nat} (wide : chars.length = width) {text : Text} {i j : Nat}
    (placed : j ≤ text.length) {limit room : Nat} (enough : 0 < room) (within : Option String)
    (items : List PatternId) :
    let sequence := ByValue.sequence (ByValue.eval { graph, text, limit } room within)
    (∃ rest, text.ahead j = chars ++ rest ∧ text.ahead (j + width) = rest ∧
      j + width ≤ text.length ∧
      sequence (item :: items) (text.matchOver i j) store =
        sequence items (text.matchOver i (j + width)) store) ∨
    (∀ rest, text.ahead j ≠ chars ++ rest) ∧
      sequence (item :: items) (text.matchOver i j) store = .ok none := by
  subst wide
  intro sequence
  have ended := scans.eval placed enough limit within
  have literal : Scan.literal chars (text.ahead j) =
      if chars.isPrefixOf (text.ahead j) then some chars.length else none := rfl
  rw [Scan.matchAt, literal] at ended
  by_cases isPrefix : chars <+: text.ahead j
  · rw [if_pos (List.isPrefixOf_iff_prefix.mpr isPrefix)] at ended
    obtain ⟨rest, ahead⟩ := isPrefix
    obtain ⟨aheadRest, placedRest⟩ := Text.ahead_of_append ahead.symm placed
    refine Or.inl ⟨rest, ahead.symm, aheadRest, placedRest, ?_⟩
    exact @ByValue.sequence_of_found _ item items (text.matchOver i j) _ store store ended
  · rw [if_neg (mt List.isPrefixOf_iff_prefix.mp isPrefix)] at ended
    refine Or.inr ⟨fun rest ahead => isPrefix ⟨rest, ahead.symm⟩, ?_⟩
    exact ByValue.sequence_of_failed ended

/-- A name and the end of its tag are next, or a scan for them fails at one of the two. -/
theorem Tags.name_cases (ahead : List Char) :
    (∃ name rest, name ≠ [] ∧ (∀ c ∈ name, c.isAlpha) ∧ ahead = name ++ '>' :: rest ∧
      Scan.run Char.isAlpha 1 ahead = some name.length) ∨
    (∀ name rest, name ≠ [] → (∀ c ∈ name, c.isAlpha) → ahead ≠ name ++ '>' :: rest) ∧
      ∀ width rest, Scan.run Char.isAlpha 1 ahead = some width →
        ahead.drop width ≠ '>' :: rest := by
  have split := List.takeWhile_append_dropWhile (p := Char.isAlpha) (l := ahead)
  generalize named : ahead.takeWhile Char.isAlpha = name at split
  generalize ahead.dropWhile Char.isAlpha = left at split
  have letters : ∀ c ∈ name, c.isAlpha := named ▸ List.all_eq_true.mp List.all_takeWhile
  have scanned : Scan.run Char.isAlpha 1 ahead =
      if 1 ≤ name.length then some name.length else none := by rw [← named]; rfl
  -- The letters that are next are the only name that there may be.
  have only : ∀ other rest, (∀ c ∈ other, c.isAlpha) → ahead = other ++ '>' :: rest →
      other = name ∧ left = '>' :: rest := by
    intro other rest others same
    obtain rfl : other = name := by rw [← named, same, takeWhile_name others]
    exact ⟨rfl, List.append_cancel_left (split.trans same)⟩
  by_cases empty : name = []
  · refine Or.inr ⟨fun other rest nonempty others same => ?_, fun width rest found => ?_⟩
    · exact nonempty ((only other rest others same).1.trans empty)
    · rw [scanned, empty] at found
      cases found
  have nonzero : 1 ≤ name.length := List.length_pos_iff.mpr empty
  rw [if_pos nonzero] at scanned
  by_cases ends : ∃ rest, left = '>' :: rest
  · obtain ⟨rest, rfl⟩ := ends
    exact Or.inl ⟨name, rest, empty, letters, split.symm, scanned⟩
  · refine Or.inr ⟨fun other rest _ others same => ?_, fun width rest found goesOn => ?_⟩
    · exact ends ⟨rest, (only other rest others same).2⟩
    · cases scanned.symm.trans found
      rw [← split, List.drop_left] at goesOn
      exact ends ⟨rest, goesOn⟩

/-- How the pattern of an element ends at a position: it takes the element that is next and leaves
the store as it was, or it does not match since none is next. -/
def Tags.ReadsElement (text : Text) (i : Nat) (store : ByValue.Store) (ended : ByValue.Outcome) :
    Prop :=
  (∃ element rest, IsElement element ∧ text.ahead i = element ++ rest ∧
    ended = .ok (some (text.matchOver i (i + element.length), store))) ∨
  NoElement (text.ahead i) ∧ ended = .ok none

/-- Elements are taken one after the other, up to where none is next. -/
theorem Tags.atLeast_elements {eval : ByValue.Evaluator} {body : PatternId} {text : Text}
    {i j left : Nat} {store : ByValue.Store}
    (each : ∀ k, j ≤ k → k ≤ text.length → ReadsElement text k store (eval body k store))
    (placed : j ≤ text.length) (enoughLeft : text.length - j ≤ left) (done : Nat) :
    ∃ inner rest, AreElements inner ∧ NoElement rest ∧ text.ahead j = inner ++ rest ∧
      ByValue.atLeast eval body 0 left done (text.matchOver i j) store =
        .ok (some (text.matchOver i (j + inner.length), store)) := by
  induction left using Nat.strong_induction_on generalizing j done with
  | _ left inductionHypothesis =>
      unfold ByValue.atLeast
      rw [show (text.matchOver i j).stop = j from rfl]
      rcases each j (Nat.le_refl j) placed with
        ⟨first, rest, element, ahead, ended⟩ | ⟨noneNext, ended⟩
      · obtain ⟨aheadRest, placedRest⟩ := Text.ahead_of_append ahead placed
        have nonzero := element.length_pos
        obtain ⟨fewer, rfl⟩ : ∃ fewer, left = fewer + 1 := ⟨left - 1, by omega⟩
        obtain ⟨inner, behind, elements, noneNext, aheadInner, repeated⟩ :=
          inductionHypothesis fewer (Nat.lt_succ_self fewer)
            (fun k later => each k (by omega)) placedRest (by omega) (done + 1)
        refine ⟨first ++ inner, behind, .more element elements, noneNext, ?_, ?_⟩
        · rw [ahead, ← aheadRest, aheadInner, List.append_assoc]
        · rw [ended, List.length_append, ← Nat.add_assoc, ← repeated]
          have moved : j + first.length ≠ j := by omega
          exact if_neg moved
      · exact ⟨[], _, .none, noneNext, rfl, by rw [ended]; rfl⟩

/-! ## The nodes of the grammar -/

/-- The nodes of an element's pattern, which refers to itself. -/
structure TagNodes (graph : Graph) (element : PatternId) where
  less : PatternId
  pushed : PatternId
  captured : PatternId
  name : PatternId
  letter : PatternId
  greater : PatternId
  inside : PatternId
  inner : PatternId
  cell : CellId
  slash : PatternId
  top : PatternId
  popped : PatternId
  last : PatternId
  whole : graph.kind element =
    .sequence [less, pushed, greater, inside, slash, top, popped, last]
  isLess : graph.kind less = .literal ['<']
  pushes : graph.kind pushed = .stackCapture "tags" captured
  captures : graph.kind captured = .capture name
  repeatsLetter : graph.kind name = .repetition letter (.atLeast 1)
  isLetter : graph.kind letter = .charSet ⟨[.range 'A' 'Z', .range 'a' 'z']⟩
  isGreater : graph.kind greater = .literal ['>']
  repeatsInner : graph.kind inside = .repetition inner (.atLeast 0)
  refers : graph.kind inner = .reference "element" cell
  binds : graph.target? cell = some element
  isSlash : graph.kind slash = .literal ['<', '/']
  matchesTop : graph.kind top = .stackMatch "tags" (-1) none
  pops : graph.kind popped = .stackPop "tags" 1
  isLast : graph.kind last = .literal ['>']

namespace ByValue.Store

variable (store : Store) (stack : String) (value : Capture)

theorem entries_pushAll_single :
    (store.pushAll stack [value]).entries stack = store.entries stack ++ [value] :=
  if_pos rfl

/-- What is pushed is what comes off again. -/
theorem drop_pushAll_single : (store.pushAll stack [value]).drop stack 1 = store := by
  refine Store.ext rfl (funext fun other => ?_)
  simp only [drop, entries_pushAll_single]
  by_cases same : other = stack
  · simp [setStack, same]
  · simp [setStack, pushAll, same]

end ByValue.Store

namespace TagNodes

open Tags

variable {graph : Graph} {element : PatternId} (nodes : TagNodes graph element) {text : Text}
  {i limit room : Nat} {within : Option String} {store : ByValue.Store}

include nodes

theorem scans_name : graph.Scans store 1 (graph.kind nodes.name) (.run Char.isAlpha 1) := by
  have isLetter : graph.Scans store 0 (graph.kind nodes.letter) (.char Lexer.Lexeme.isLetter) :=
    .of_kind nodes.isLetter (.charSet _)
  rw [funext Lexer.Lexeme.isLetter_eq] at isLetter
  exact .of_kind nodes.repeatsLetter (isLetter.atLeast (fun _ => rfl) 1)

/-- A sequence goes on behind the letters that are next, with what they spell on the stack. -/
theorem sequence_pushed {j : Nat} {behind : List Char} (ahead : text.ahead j = behind)
    (placed : j ≤ text.length) (enough : 4 ≤ room) (items : List PatternId) :
    let sequence := ByValue.sequence (ByValue.eval { graph, text, limit } room within)
    sequence (nodes.pushed :: items) (text.matchOver i j) store =
      match Scan.run Char.isAlpha 1 behind with
      | none => .ok none
      | some width => sequence items (text.matchOver i (j + width))
          (store.pushAll "tags" [.text (String.ofList (behind.take width))]) := by
  intro sequence
  have pushed : ByValue.eval { graph, text, limit } room within nodes.pushed j store =
      .ok (((Scan.run Char.isAlpha 1).matchAt text j).map fun m =>
        (m, store.pushAll "tags" [.text m.value])) := by
    obtain ⟨room, rfl⟩ := Nat.exists_eq_add_of_le' enough
    rw [ByValue.eval_succ nodes.pushes placed]
    unfold ByValue.kind ByValue.stackCapture
    dsimp only
    rw [ByValue.eval_succ nodes.captures placed]
    unfold ByValue.kind
    dsimp only
    rw [nodes.scans_name.eval placed (by omega), ByValue.after_still]
    unfold Scan.matchAt
    cases (Scan.run Char.isAlpha 1) (text.ahead j) <;> rfl
  rw [Scan.matchAt, ahead] at pushed
  cases scanned : Scan.run Char.isAlpha 1 behind with
  | none =>
      rw [scanned] at pushed
      exact ByValue.sequence_of_failed pushed
  | some width =>
      have value : (text.matchOver j (j + width)).value = String.ofList (behind.take width) := by
        rw [← ahead, ← Text.span_eq_take_ahead]
        rfl
      rw [scanned, Option.map_some, Option.map_some, value] at pushed
      exact @ByValue.sequence_of_found _ _ _ (text.matchOver i j) _ _ _ pushed

theorem eval_popped (inside : i ≤ text.length) (enough : 0 < room) {value : Capture} :
    ByValue.eval { graph, text, limit } room within nodes.popped i
        (store.pushAll "tags" [value]) =
      .ok (some (text.matchOver i i, store)) := by
  obtain ⟨room, rfl⟩ := Nat.exists_eq_add_of_le' enough
  rw [ByValue.eval_succ nodes.pops inside]
  unfold ByValue.kind ByValue.stackPop
  dsimp only
  rw [ByValue.Store.entries_pushAll_single, ByValue.Store.drop_pushAll_single, if_neg (by simp)]

theorem scans_top (name : List Char) :
    graph.Scans (store.pushAll "tags" [.text (String.ofList name)]) 0 (graph.kind nodes.top)
      (.literal name) := by
  intro text i limit room within inside enough
  have literal := @Graph.Scans.literal graph (store.pushAll "tags" [.text (String.ofList name)]) 0
    name text i limit room within inside enough
  rw [nodes.matchesTop, ← literal]
  unfold ByValue.kind
  dsimp only
  rw [ByValue.Store.entries_pushAll_single]
  simp [Capture.pick?, Matching.stackEntryAt]

theorem eval_inner (inside : i ≤ text.length) :
    ∃ within', ByValue.eval { graph, text, limit } (room + 1) within nodes.inner i store =
      ByValue.eval { graph, text, limit } room within' element i store := by
  rw [ByValue.eval_succ nodes.refers inside]
  unfold ByValue.kind ByValue.reference
  dsimp only
  rw [nodes.binds]
  exact ⟨_, rfl⟩

/-- A tag is taken, and its name is pushed, or there is none. -/
theorem sequence_opening (placed : i ≤ text.length) (enough : 5 ≤ room) (items : List PatternId) :
    let sequence := ByValue.sequence (ByValue.eval { graph, text, limit } room within)
    let opening := nodes.less :: nodes.pushed :: nodes.greater :: items
    (∃ name rest, name ≠ [] ∧ (∀ c ∈ name, c.isAlpha) ∧
      text.ahead i = '<' :: (name ++ '>' :: rest) ∧
      text.ahead (i + (name.length + 2)) = rest ∧ i + (name.length + 2) ≤ text.length ∧
      sequence opening (text.matchOver i i) store =
        sequence items (text.matchOver i (i + (name.length + 2)))
          (store.pushAll "tags" [.text (String.ofList name)])) ∨
    (∀ name rest, name ≠ [] → (∀ c ∈ name, c.isAlpha) →
      text.ahead i ≠ '<' :: (name ++ '>' :: rest)) ∧
      sequence opening (text.matchOver i i) store = .ok none := by
  intro sequence opening
  have positive : 0 < room := Nat.lt_of_lt_of_le (Nat.succ_pos 4) enough
  have less : graph.Scans store 0 (graph.kind nodes.less) _ := .of_kind nodes.isLess (.literal _)
  have greater : ∀ store, graph.Scans store 0 (graph.kind nodes.greater) _ :=
    fun _ => .of_kind nodes.isGreater (.literal _)
  rcases @sequence_literal _ _ _ _ less 1 rfl _ i _ placed limit _ positive within
      (nodes.pushed :: nodes.greater :: items) with
    ⟨behind, ahead, aheadName, placedName, started⟩ | ⟨other, failed⟩
  swap
  · exact Or.inr ⟨fun name rest _ _ => other _, failed⟩
  have pushes : sequence (nodes.pushed :: nodes.greater :: items) _ store = _ :=
    @sequence_pushed _ _ nodes text i limit room within store _ _ aheadName placedName (by omega) _
  rcases name_cases behind with ⟨name, rest, nonempty, letters, rfl, scanned⟩ | ⟨noName, fails⟩
  · refine Or.inl ⟨name, rest, nonempty, letters, ahead, ?_⟩
    obtain ⟨aheadEnd, placedEnd⟩ := Text.ahead_of_append aheadName placedName
    simp only [scanned, List.take_left] at pushes
    rcases @sequence_literal _ _ _ _ (greater _) 1 rfl _ i _ placedEnd limit _ positive within
        items with ⟨left, goesOn, aheadRest, placedRest, ended⟩ | ⟨other, _⟩
    · obtain rfl : rest = left := (List.cons.inj (aheadEnd.symm.trans goesOn)).2
      have places : i + (name.length + 2) = i + 1 + name.length + 1 := by omega
      rw [places]
      exact ⟨aheadRest, placedRest, started.trans (pushes.trans ended)⟩
    · exact (other rest aheadEnd).elim
  · refine Or.inr ⟨fun name rest nonempty letters same => ?_, started.trans ?_⟩
    · exact noName name rest nonempty letters (List.cons.inj (ahead.symm.trans same)).2
    cases scanned : Scan.run Char.isAlpha 1 behind with
    | none =>
        simp only [scanned] at pushes
        exact pushes
    | some width =>
        simp only [scanned] at pushes
        have fits : i + 1 + width ≤ text.length := Scan.stop_le placedName (aheadName ▸ scanned)
        rcases @sequence_literal _ _ _ _ (greater _) 1 rfl _ i _ fits limit _ positive within
            items with ⟨rest, goesOn, _⟩ | ⟨_, failed⟩
        · rw [← Text.drop_ahead, aheadName] at goesOn
          exact (fails width rest scanned goesOn).elim
        · exact pushes.trans failed

/-- The closing tag of the name on top of the stack is taken, and the name comes off, or that tag is
not next. -/
theorem sequence_closing {j : Nat} (placed : j ≤ text.length) (enough : 0 < room)
    (name : List Char) :
    let sequence := ByValue.sequence (ByValue.eval { graph, text, limit } room within)
    let closing := [nodes.slash, nodes.top, nodes.popped, nodes.last]
    let pushed := store.pushAll "tags" [.text (String.ofList name)]
    (∃ rest, text.ahead j = '<' :: '/' :: (name ++ '>' :: rest) ∧
      sequence closing (text.matchOver i j) pushed =
        .ok (some (text.matchOver i (j + (name.length + 3)), store))) ∨
    (∀ rest, text.ahead j ≠ '<' :: '/' :: (name ++ '>' :: rest)) ∧
      sequence closing (text.matchOver i j) pushed = .ok none := by
  intro sequence closing pushed
  have slash : graph.Scans pushed 0 (graph.kind nodes.slash) _ :=
    .of_kind nodes.isSlash (.literal _)
  have top : graph.Scans pushed 0 (graph.kind nodes.top) _ := nodes.scans_top name
  have last : graph.Scans store 0 (graph.kind nodes.last) _ := .of_kind nodes.isLast (.literal _)
  rcases @sequence_literal _ _ _ _ slash 2 rfl _ i _ placed limit _ enough within
      [nodes.top, nodes.popped, nodes.last] with
    ⟨afterSlash, ahead, aheadName, placedName, slashed⟩ | ⟨other, failed⟩
  swap
  · exact Or.inr ⟨fun rest => other _, failed⟩
  have follows : ∀ rest, text.ahead j = '<' :: '/' :: (name ++ '>' :: rest) →
      afterSlash = name ++ '>' :: rest :=
    fun rest same => List.append_cancel_left (ahead.symm.trans same)
  rcases @sequence_literal _ _ _ _ top _ rfl _ i _ placedName limit _ enough within
      [nodes.popped, nodes.last] with
    ⟨afterName, named, aheadLast, placedLast, matched⟩ | ⟨other, failed⟩
  swap
  · exact Or.inr ⟨fun rest same => other _ (aheadName.trans (follows rest same)),
      slashed.trans failed⟩
  rw [aheadName] at named
  have popped : ByValue.sequence (ByValue.eval { graph, text, limit } room within)
      [nodes.popped, nodes.last] (text.matchOver i (j + 2 + name.length)) pushed = _ :=
    ByValue.sequence_of_found (nodes.eval_popped placedLast enough)
  rcases @sequence_literal _ _ _ _ last 1 rfl _ i _ placedLast limit _ enough within [] with
    ⟨rest, ended, _, _, finished⟩ | ⟨other, failed⟩
  · refine Or.inl ⟨rest, ?_, ?_⟩
    · rw [ahead, named, ← aheadLast, ended]
      rfl
    · have places : j + (name.length + 3) = j + 2 + name.length + 1 := by omega
      rw [places]
      exact slashed.trans (matched.trans (popped.trans finished))
  · refine Or.inr ⟨fun rest same => other rest ?_,
      slashed.trans (matched.trans (popped.trans failed))⟩
    rw [aheadLast]
    exact List.append_cancel_left (named.symm.trans (follows rest same))

/-- The elements inside of a tag are taken if elements are read from there on. -/
theorem sequence_inside {j : Nat} (placed : j ≤ text.length)
    (each : ∀ k within, j ≤ k → k ≤ text.length →
      ReadsElement text k store (ByValue.eval { graph, text, limit } room within element k store))
    (items : List PatternId) :
    let sequence := ByValue.sequence (ByValue.eval { graph, text, limit } (room + 2) within)
    ∃ inner rest, AreElements inner ∧ NoElement rest ∧ text.ahead j = inner ++ rest ∧
      sequence (nodes.inside :: items) (text.matchOver i j) store =
        sequence items (text.matchOver i (j + inner.length)) store := by
  intro sequence
  have repeated := ByValue.eval_succ nodes.repeatsInner placed limit (room + 1) within store
  unfold ByValue.kind ByValue.repetition at repeated
  dsimp only at repeated
  obtain ⟨inner, rest, elements, noneNext, ahead, taken⟩ := @atLeast_elements
    (ByValue.eval { graph, text, limit } (room + 1) (graph.name? nodes.inside <|> within))
    nodes.inner text j j (text.length - j) store
    (fun k later inside => by
      obtain ⟨within, called⟩ := nodes.eval_inner inside
      rw [called]
      exact each k within later inside)
    placed (Nat.le_refl _) 0
  refine ⟨inner, rest, elements, noneNext, ahead, ?_⟩
  exact @ByValue.sequence_of_found _ _ _ (text.matchOver i j) _ _ _ (repeated.trans taken)

/-- With room for three calls for each tag that may be open, the pattern reads elements. -/
theorem reads_element (remaining : Nat) (placed : i ≤ text.length)
    (enoughLeft : text.length - i ≤ remaining) (enough : remaining + 6 ≤ room) :
    ReadsElement text i store
      (ByValue.eval { graph, text, limit } room within element i store) := by
  induction remaining using Nat.strong_induction_on generalizing i room within store with
  | _ remaining inductionHypothesis =>
      obtain ⟨room, rfl⟩ : ∃ less, room = less + 3 := ⟨room - 3, by omega⟩
      rw [ByValue.eval_succ nodes.whole placed]
      unfold ByValue.kind
      dsimp only
      generalize (graph.name? element <|> within) = within
      rcases nodes.sequence_opening placed (by omega : 5 ≤ room + 2)
          [nodes.inside, nodes.slash, nodes.top, nodes.popped, nodes.last] with
        ⟨name, behind, nonempty, letters, ahead, aheadInner, placedInner, opened⟩ | ⟨noTag, failed⟩
      swap
      · refine Or.inr ⟨?_, failed⟩
        rintro _ rest @⟨name, inner, nonempty, letters, _⟩ same
        refine noTag name (inner ++ '<' :: '/' :: (name ++ '>' :: rest)) nonempty letters ?_
        simpa using same
      have nonzero : 0 < name.length := List.length_pos_iff.mpr nonempty
      have each : ∀ k within, i + (name.length + 2) ≤ k → k ≤ text.length →
          ReadsElement text k (store.pushAll "tags" [.text (String.ofList name)])
            (ByValue.eval { graph, text, limit } room within element k _) :=
        fun k within later inside =>
          inductionHypothesis (remaining - 3) (by omega) inside (by omega) (by omega)
      obtain ⟨inner, rest, elements, noneNext, split, taken⟩ :=
        nodes.sequence_inside placedInner each [nodes.slash, nodes.top, nodes.popped, nodes.last]
      obtain ⟨aheadClosing, placedClosing⟩ := Text.ahead_of_append split placedInner
      rcases nodes.sequence_closing placedClosing (Nat.succ_pos _) name with
        ⟨left, closing, closed⟩ | ⟨other, failed⟩
      · refine Or.inl ⟨_, left, .tagged nonempty letters elements, ?_, ?_⟩
        · rw [ahead, ← aheadInner, split, ← aheadClosing, closing]
          simp
        · refine (opened.trans (taken.trans closed)).trans ?_
          congr 4
          simp only [List.length_cons, List.length_append, List.length_nil]
          omega
      · refine Or.inr ⟨?_, opened.trans (taken.trans failed)⟩
        -- Another element here would have the same name and the same elements inside.
        rintro _ left @⟨name', inner', _, letters', elements'⟩ same
        have named : name ++ '>' :: behind =
            name' ++ '>' :: (inner' ++ '<' :: '/' :: (name' ++ '>' :: left)) := by
          simpa [ahead] using same
        obtain ⟨rfl, sameBehind⟩ := name_unique letters letters' named
        obtain ⟨-, sameRest⟩ := elements.unique elements' noneNext (noElement_closing _)
          ((split.symm.trans aheadInner).trans sameBehind)
        exact other left (aheadClosing.trans sameRest)

end TagNodes

/-- The nodes of a document's pattern: an element, and then no tag that is left open. -/
structure DocumentNodes (graph : Graph) (document : PatternId) where
  element : PatternId
  empty : PatternId
  nodes : TagNodes graph element
  both : graph.kind document = .sequence [element, empty]
  counts : graph.kind empty = .stackSize "tags" (some 0)

/-- While no tag is open, a document is an element. -/
theorem DocumentNodes.reads_document {graph : Graph} {document : PatternId}
    (nodes : DocumentNodes graph document) {text : Text} {limit room : Nat}
    {within : Option String} {store : ByValue.Store} (noneOpen : store.entries "tags" = [])
    (enough : text.length + 7 ≤ room) :
    Tags.ReadsElement text 0 store
      (ByValue.eval { graph, text, limit } room within document 0 store) := by
  obtain ⟨room, rfl⟩ : ∃ fewer, room = fewer + 2 := ⟨room - 2, by omega⟩
  rw [ByValue.eval_succ nodes.both (Nat.zero_le _)]
  unfold ByValue.kind
  dsimp only
  generalize (graph.name? document <|> within) = within
  rcases nodes.nodes.reads_element text.length (Nat.zero_le _) (Nat.sub_le ..)
      (by omega : text.length + 6 ≤ room + 1) with
    ⟨element, rest, isElement, ahead, taken⟩ | ⟨noneNext, failed⟩
  · refine Or.inl ⟨element, rest, isElement, ahead, (ByValue.sequence_of_found taken).trans ?_⟩
    have placed := (Text.ahead_of_append ahead (Nat.zero_le _)).2
    have counted : ByValue.eval { graph, text, limit } (room + 1) within nodes.empty
        (0 + element.length) store =
          .ok (some (text.matchOver (0 + element.length) (0 + element.length), store)) := by
      rw [ByValue.eval_succ nodes.counts placed]
      unfold ByValue.kind
      dsimp only
      rw [noneOpen]
      rfl
    exact @ByValue.sequence_of_found _ _ _ (text.matchOver 0 (0 + element.length)) _ _ _ counted
  · exact Or.inr ⟨noneNext, ByValue.sequence_of_failed failed⟩

/-! ## Matches from the outside -/

namespace Tags

/-- The answer for a text is the front of it that is an element, if there is one. -/
structure Recognizes (result : Except MatchError (Option Match)) (text : Text) : Prop where
  matched {j : Nat} (inside : j ≤ text.length) :
    result = .ok (some (text.matchOver 0 j)) ↔ IsElement (text.span 0 j)
  missed : result = .ok none ↔ ∀ j ≤ text.length, ¬ IsElement (text.span 0 j)
  answered : ∃ outcome, result = .ok outcome

theorem span_append_drop (text : Text) (j : Nat) :
    text.span 0 j ++ (text.ahead 0).drop j = text.ahead 0 := by
  have front := text.span_eq_take_ahead 0 j
  rw [Nat.zero_add] at front
  rw [front, List.take_append_drop]

/-- No two fronts of a text are elements. -/
theorem IsElement.span_unique {text : Text} {j k : Nat} (jInside : j ≤ text.length)
    (kInside : k ≤ text.length) (element : IsElement (text.span 0 j))
    (other : IsElement (text.span 0 k)) : j = k := by
  obtain ⟨same, -⟩ := element.unique other
    ((span_append_drop text j).trans (span_append_drop text k).symm)
  have lengths := congrArg List.length same
  rw [Text.length_span, Text.length_span] at lengths
  omega

theorem Recognizes.of_reads {text : Text} {store : ByValue.Store} {ended : ByValue.Outcome}
    (reads : ReadsElement text 0 store ended) :
    Recognizes (ended.map (·.map Prod.fst)) text := by
  rcases reads with ⟨element, rest, isElement, ahead, rfl⟩ | ⟨noneNext, rfl⟩
  · have inside := (Text.ahead_of_append ahead (Nat.zero_le _)).2
    have front : IsElement (text.span 0 (0 + element.length)) := by
      rwa [Text.span_eq_take_ahead, ahead, List.take_left]
    refine ⟨fun jInside => ⟨fun same => ?_, fun other => ?_⟩, ?_, _, rfl⟩
    · have found : text.matchOver 0 (0 + element.length) = _ :=
        Option.some.inj (Except.ok.inj same)
      rwa [show 0 + element.length = _ from congrArg Match.stop found] at front
    · obtain rfl := front.span_unique inside jInside other
      rfl
    · exact ⟨nofun, fun noFront => (noFront _ inside front).elim⟩
  · have noFront : ∀ j, ¬ IsElement (text.span 0 j) :=
      fun j element => noneNext _ _ element (span_append_drop text j).symm
    exact ⟨fun _ => ⟨nofun, fun element => (noFront _ element).elim⟩,
      ⟨fun _ j _ => noFront j, fun _ => rfl⟩, _, rfl⟩

end Tags

theorem Graph.matchAt_zero (graph : Graph) (pattern : PatternId) (text : Text)
    (config : MatchConfig) :
    graph.matchAt pattern text 0 config = graph.matchIn pattern { text } 0 { config } := by
  simp [Graph.matchAt, Text.index, Text.position?]

section Documents

variable {graph : Graph} {document : PatternId} (nodes : DocumentNodes graph document)
  (free : graph.FreeOfFunctions) (text : Text)

include nodes free

theorem DocumentNodes.recognizes {config : MatchConfig} (enough : text.length + 7 ≤ config.limit) :
    Tags.Recognizes (graph.matchAt document text 0 config).result text := by
  rw [Graph.matchAt_zero, Graph.result_matchIn (free.functionFree _)]
  exact .of_reads (nodes.reads_document rfl enough)

/-- Under a small limit the pattern ends at the limit, or as it does under a large one. -/
theorem DocumentNodes.recognizes_or_atLimit (config : MatchConfig) :
    atLimit (graph.matchAt document text 0 config).result ∨
      Tags.Recognizes (graph.matchAt document text 0 config).result text := by
  have passes : graph.PassesLimit text document :=
    fun origin callback _ found => absurd found (free origin callback)
  have larger := Nat.le_max_left config.limit (text.length + 7)
  have same := @Graph.result_below_limit graph document { text } passes { config } _ _ larger 0
  have recognizes := @DocumentNodes.recognizes graph document nodes free text
    { config with limit := max config.limit (text.length + 7) } (Nat.le_max_right ..)
  rw [Graph.matchAt_zero] at recognizes ⊢
  exact same.imp_right fun same => (congrArg (Tags.Recognizes · text) same).mp recognizes

end Documents

/-! ## The pattern of documents -/

def documentGraph_elementNodes : TagNodes documentGraph 15 where
  less := 0
  pushed := 4
  captured := 3
  name := 2
  letter := 1
  greater := 5
  inside := 8
  inner := 7
  cell := 0
  slash := 9
  top := 10
  popped := 11
  last := 12
  whole := Kind.eq_of_same (by decide +kernel)
  isLess := Kind.eq_of_same (by decide +kernel)
  pushes := Kind.eq_of_same (by decide +kernel)
  captures := Kind.eq_of_same (by decide +kernel)
  repeatsLetter := Kind.eq_of_same (by decide +kernel)
  isLetter := Kind.eq_of_same (by decide +kernel)
  isGreater := Kind.eq_of_same (by decide +kernel)
  repeatsInner := Kind.eq_of_same (by decide +kernel)
  refers := Kind.eq_of_same (by decide +kernel)
  binds := by decide +kernel
  isSlash := Kind.eq_of_same (by decide +kernel)
  matchesTop := Kind.eq_of_same (by decide +kernel)
  pops := Kind.eq_of_same (by decide +kernel)
  isLast := Kind.eq_of_same (by decide +kernel)

def documentGraph_nodes : DocumentNodes documentGraph documentPattern where
  element := 15
  empty := 16
  nodes := documentGraph_elementNodes
  both := Kind.eq_of_same (by decide +kernel)
  counts := Kind.eq_of_same (by decide +kernel)

theorem documentGraph_free : documentGraph.FreeOfFunctions :=
  Graph.freeOfFunctions_of_same (by decide +kernel)

/-- The pattern of documents recognises balanced tags at the front of every text, unless it ends at
the recursion limit, which it does not if the limit is large enough for the text. -/
theorem document_recognizes (text : Text) :
    let result := fun config : MatchConfig =>
      (documentGraph.matchAt documentPattern text 0 config).result
    (∀ config, atLimit (result config) ∨ Tags.Recognizes (result config) text) ∧
    (∀ j k, j ≤ text.length → k ≤ text.length → Tags.IsElement (text.span 0 j) →
      Tags.IsElement (text.span 0 k) → j = k) ∧
    ∃ enough, ∀ config : MatchConfig, enough ≤ config.limit → ¬ atLimit (result config) := by
  intro result
  refine ⟨documentGraph_nodes.recognizes_or_atLimit documentGraph_free text,
    fun j k jInside kInside => Tags.IsElement.span_unique jInside kInside,
    text.length + 7, fun config enough => ?_⟩
  have recognizes := documentGraph_nodes.recognizes documentGraph_free text enough
  obtain ⟨outcome, answered⟩ := recognizes.answered
  rw [show result config = _ from answered]
  exact nofun

/-- The tag that is closed twice ends where it is closed first. -/
example :
    let text := Text.ofString "<a><b></b></a></a>"
    (documentGraph.matchAt documentPattern text 0 {}).result.toOption =
      some (some (text.matchOver 0 14)) := by
  decide +kernel

end PegEngine
