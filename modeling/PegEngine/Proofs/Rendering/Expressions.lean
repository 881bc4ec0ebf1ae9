import PegEngine.Proofs.Rendering.Places
import PegEngine.Proofs.Rendering.Words

/-!
Contract: operators over literals and sets of characters are written without ambiguity.

An expression is a tree of predicates, repetitions, sequences and choices, as patterns spell it. Its
words are read again from left to right. What was read since an open parenthesis is kept in a frame,
and what a closed parenthesis encloses is an operand of the frame outside. Parentheses stand where
this reading needs them, as long as no sequence is an item of a sequence and no choice of a choice.

Owns:
- `Expression`, its words and `Expression.ofWords`, which reads them;
- `Expression.ofWords_words`, that the reading gives back the expression;
- `Graph.Spells`, that a pattern is an expression;
- `Graph.display_eq_iff`, that two written forms are the same for the same expression only.
-/

namespace PegEngine

/-! ## Expressions -/

def Sign.operator : Sign → Operator
  | .negative => .negative
  | .positive => .positive

inductive Expression where
  | literal (chars : List Char)
  | charSet (set : CharSet)
  | signed (sign : Sign) (body : Expression)
  | repetition (body : Expression) (count : RepeatCount)
  | sequence (items : List Expression)
  | choice (items : List Expression)

namespace Operator

variable {parent child : Operator}

theorem level_le (needless : parent.needsParentheses child = false) : child.level ≤ parent.level := by
  simp_all [needsParentheses]

/-- Without parentheses another operator binds more tightly. -/
theorem level_lt (needless : parent.needsParentheses child = false) (different : child ≠ parent) :
    child.level < parent.level := by
  refine Nat.lt_of_le_of_ne (level_le needless) fun same => different ?_
  simp_all [needsParentheses]

end Operator

namespace Expression

/-- Induction over expressions, with a hypothesis for every item of a sequence or choice. -/
@[elab_as_elim, induction_eliminator]
theorem inductionOn {motive : Expression → Prop}
    (literal : ∀ chars, motive (.literal chars)) (charSet : ∀ set, motive (.charSet set))
    (signed : ∀ sign body, motive body → motive (.signed sign body))
    (repetition : ∀ body count, motive body → motive (.repetition body count))
    (sequence : ∀ items, (∀ item ∈ items, motive item) → motive (.sequence items))
    (choice : ∀ items, (∀ item ∈ items, motive item) → motive (.choice items)) :
    ∀ expression, motive expression
  | .literal chars => literal chars
  | .charSet set => charSet set
  | .signed sign body =>
      signed sign body (inductionOn literal charSet signed repetition sequence choice body)
  | .repetition body count =>
      repetition body count (inductionOn literal charSet signed repetition sequence choice body)
  | .sequence items => sequence items fun item _ =>
      inductionOn literal charSet signed repetition sequence choice item
  | .choice items => choice items fun item _ =>
      inductionOn literal charSet signed repetition sequence choice item

def operator : Expression → Operator
  | .literal _ | .charSet _ => .atom
  | .signed sign _ => sign.operator
  | .repetition _ _ => .repetition
  | .sequence _ => .sequence
  | .choice _ => .choice

mutual

/-- Sequences and choices have at least two items, and none of their own kind. -/
def isShaped : Expression → Bool
  | .literal _ | .charSet _ => true
  | .signed _ body | .repetition body _ => body.isShaped
  | .sequence items => 2 ≤ items.length && areShaped .sequence items
  | .choice items => 2 ≤ items.length && areShaped .choice items

def areShaped (parent : Operator) : List Expression → Bool
  | [] => true
  | item :: rest => item.operator != parent && item.isShaped && areShaped parent rest

end

theorem areShaped_iff {parent : Operator} {items : List Expression} :
    areShaped parent items ↔ ∀ item ∈ items, item.operator ≠ parent ∧ item.isShaped := by
  induction items with
  | nil => simp [areShaped]
  | cons item rest inductionHypothesis =>
      simp [areShaped, inductionHypothesis, and_assoc]

/-- Words of a sub-expression below an operator. -/
def enclose (parent child : Operator) (words : List Word) : List Word :=
  if parent.needsParentheses child then .opening :: words ++ [.closing] else words

mutual

def words : Expression → List Word
  | .literal chars => [.literal chars]
  | .charSet set => [.charSet set]
  | .signed sign body => .predicate sign :: enclose sign.operator body.operator body.words
  | .repetition body count => enclose .repetition body.operator body.words ++ [.mark count]
  | .sequence items => [Word.space].intercalate (operands .sequence items)
  | .choice items => [Word.space, .slash, .space].intercalate (operands .choice items)

def operands (parent : Operator) : List Expression → List (List Word)
  | [] => []
  | item :: rest => enclose parent item.operator item.words :: operands parent rest

end

/-! ## Reading words -/

/-- An operand behind predicates, of which the innermost comes first. -/
def signedBy (signs : List Sign) (operand : Expression) : Expression :=
  signs.foldl (fun body sign => .signed sign body) operand

/-- A single item stands for itself. -/
def joined (join : List Expression → Expression) : List Expression → Expression
  | [single] => single
  | several => join several

/-- What was read since the last open parenthesis: the alternatives and the items that have ended, and
the predicates and the operand of the item at hand. -/
structure Frame where
  alternatives : List Expression := []
  items : List Expression := []
  signs : List Sign := []
  operand : Option Expression := none

namespace Frame

def endItem (frame : Frame) : Frame :=
  match frame.operand with
  | some operand =>
      { alternatives := frame.alternatives
        items := frame.items ++ [signedBy frame.signs operand] }
  | none => frame

def endAlternative (frame : Frame) : Frame :=
  { alternatives := frame.endItem.alternatives ++ [joined .sequence frame.endItem.items] }

def whole (frame : Frame) : Expression :=
  joined .choice frame.endAlternative.alternatives

/-- One word, read in the innermost frame. -/
def read : List Frame → Word → List Frame
  | frame :: outer, .literal chars => { frame with operand := some (.literal chars) } :: outer
  | frame :: outer, .charSet set => { frame with operand := some (.charSet set) } :: outer
  | frame :: outer, .mark count =>
      { frame with operand := frame.operand.map (.repetition · count) } :: outer
  | frame :: outer, .predicate sign => { frame with signs := sign :: frame.signs } :: outer
  | frames, .opening => {} :: frames
  | inner :: frame :: outer, .closing => { frame with operand := some inner.whole } :: outer
  | frame :: outer, .space => frame.endItem :: outer
  | frame :: outer, .slash => frame.endAlternative :: outer
  | frames, _ => frames

end Frame

/-- The expression that words spell. -/
def ofWords (words : List Word) : Option Expression :=
  (words.foldl Frame.read [{}]).head?.map Frame.whole

/-- The words become the operand of the frame, whatever the frame holds. -/
def ReadsOperand (words : List Word) (expression : Expression) : Prop :=
  ∀ frame outer, words.foldl Frame.read (frame :: outer) =
    { frame with operand := some expression } :: outer

/-- The words become predicates and an operand, to be put together where the item ends. -/
def ReadsItem (words : List Word) (expression : Expression) : Prop :=
  ∃ signs operand, signedBy signs operand = expression ∧
    ∀ frame outer, words.foldl Frame.read (frame :: outer) =
      { frame with signs := signs ++ frame.signs, operand := some operand } :: outer

/-- The words become one more alternative, where it ends. -/
def ReadsAlternative (words : List Word) (expression : Expression) : Prop :=
  ∀ alternatives outer, ∃ frame,
    words.foldl Frame.read ({ alternatives } :: outer) = frame :: outer ∧
      frame.endAlternative = { alternatives := alternatives ++ [expression] }

/-- The words become all that a frame holds. -/
def ReadsWhole (words : List Word) (expression : Expression) : Prop :=
  ∀ outer, ∃ frame, words.foldl Frame.read ({} :: outer) = frame :: outer ∧ frame.whole = expression

section Reading

variable {words : List Word} {expression : Expression}

theorem ReadsOperand.item (reads : ReadsOperand words expression) : ReadsItem words expression :=
  ⟨[], expression, rfl, reads⟩

theorem ReadsItem.alternative (reads : ReadsItem words expression) :
    ReadsAlternative words expression := by
  obtain ⟨signs, operand, rfl, ends⟩ := reads
  intro alternatives outer
  refine ⟨_, ends _ outer, ?_⟩
  simp [Frame.endAlternative, Frame.endItem, joined]

theorem ReadsAlternative.whole (reads : ReadsAlternative words expression) :
    ReadsWhole words expression := by
  intro outer
  obtain ⟨frame, ends, alternatives⟩ := reads [] outer
  exact ⟨frame, ends, by simp [Frame.whole, alternatives, joined]⟩

theorem ReadsWhole.enclosed (reads : ReadsWhole words expression) :
    ReadsOperand (.opening :: words ++ [.closing]) expression := by
  intro frame outer
  obtain ⟨inner, ends, rfl⟩ := reads (frame :: outer)
  simp [Frame.read, ends]

/-- The words of a list are read item by item when the words between two items end the first of them.
`collected` is the frame that has read some items, and `ended` ends the item at hand. -/
theorem reads_separated (separator : List Word) (write : Expression → List Word)
    (collected : List Expression → Frame) (ended : Frame → Frame) {items : List Expression}
    (nonempty : items ≠ [])
    (each : ∀ item ∈ items, ∀ front outer, ∃ frame,
      (write item).foldl Frame.read (collected front :: outer) = frame :: outer ∧
        ended frame = collected (front ++ [item]))
    (between : ∀ frame outer front, ended frame = collected front →
      separator.foldl Frame.read (frame :: outer) = collected front :: outer)
    (front : List Expression) (outer : List Frame) :
    ∃ frame, (separator.intercalate (items.map write)).foldl Frame.read (collected front :: outer) =
      frame :: outer ∧ ended frame = collected (front ++ items) := by
  induction items generalizing front with
  | nil => exact absurd rfl nonempty
  | cons item rest inductionHypothesis =>
      obtain ⟨frame, reads, ends⟩ := each item List.mem_cons_self front outer
      cases rest with
      | nil => exact ⟨frame, by simpa using reads, ends⟩
      | cons next rest =>
          obtain ⟨last, readsRest, endsRest⟩ := inductionHypothesis (List.cons_ne_nil _ _)
            (fun other member => each other (List.mem_cons_of_mem _ member)) (front ++ [item])
          refine ⟨last, ?_, by rw [endsRest, List.append_assoc, List.singleton_append]⟩
          rw [List.map_cons, List.map_cons, List.intercalate_cons_cons, List.foldl_append,
            List.foldl_append, reads, between frame outer _ ends, ← readsRest, List.map_cons]

theorem Frame.endItem_endItem (frame : Frame) : frame.endItem.endItem = frame.endItem := by
  cases operand : frame.operand <;> simp [endItem, operand]

theorem Frame.endAlternative_endItem (frame : Frame) :
    frame.endItem.endAlternative = frame.endAlternative := by
  rw [endAlternative, endItem_endItem, endAlternative]

theorem joined_of_two_le {join : List Expression → Expression} {items : List Expression}
    (several : 2 ≤ items.length) : joined join items = join items := by
  match items with
  | _ :: _ :: _ => rfl

/-- A space ends an item, so that several items become a sequence where the alternative ends. -/
theorem ReadsAlternative.sequence {write : Expression → List Word} {items : List Expression}
    (several : 2 ≤ items.length) (each : ∀ item ∈ items, ReadsItem (write item) item) :
    ReadsAlternative ([Word.space].intercalate (items.map write)) (.sequence items) := by
  intro alternatives outer
  have nonempty : items ≠ [] := List.ne_nil_of_length_pos (Nat.zero_lt_of_lt several)
  obtain ⟨frame, reads, ends⟩ := reads_separated [.space] write
    (fun front => { alternatives, items := front }) Frame.endItem nonempty
    (fun item member front outer => by
      obtain ⟨signs, operand, rfl, reads⟩ := each item member
      exact ⟨_, reads _ outer, by simp [Frame.endItem]⟩)
    (fun frame outer front ends => by simp [Frame.read, ends]) [] outer
  exact ⟨frame, reads, by simp [Frame.endAlternative, ends, joined_of_two_le several]⟩

/-- A slash ends an alternative, and the spaces around it do nothing, so that several alternatives
become a choice where the frame ends. -/
theorem ReadsWhole.choice {write : Expression → List Word} {items : List Expression}
    (several : 2 ≤ items.length) (each : ∀ item ∈ items, ReadsAlternative (write item) item) :
    ReadsWhole ([Word.space, .slash, .space].intercalate (items.map write)) (.choice items) := by
  intro outer
  have nonempty : items ≠ [] := List.ne_nil_of_length_pos (Nat.zero_lt_of_lt several)
  obtain ⟨frame, reads, ends⟩ := reads_separated [.space, .slash, .space] write
    (fun front => { alternatives := front }) Frame.endAlternative nonempty each
    (fun frame outer front ends => by
      simp only [List.foldl_cons, List.foldl_nil, Frame.read, Frame.endAlternative_endItem, ends]
      rfl) [] outer
  exact ⟨frame, reads, by simp [Frame.whole, ends, joined_of_two_le several]⟩

end Reading

/-! ## Words of expressions -/

/-- The words of a sub-expression below an operator. -/
def operandOf (parent : Operator) (expression : Expression) : List Word :=
  enclose parent expression.operator expression.words

theorem operands_eq_map (parent : Operator) (items : List Expression) :
    operands parent items = items.map (operandOf parent) := by
  induction items with
  | nil => rfl
  | cons item rest inductionHypothesis => simp [operands, operandOf, inductionHypothesis]

/-- How the words of an expression can be read, by the level of its operator. -/
structure Reads (expression : Expression) : Prop where
  operand : expression.operator.level ≤ 4 → ReadsOperand expression.words expression
  item : expression.operator.level ≤ 5 → ReadsItem expression.words expression
  alternative : expression.operator.level ≤ 6 → ReadsAlternative expression.words expression
  whole : ReadsWhole expression.words expression

namespace Reads

variable {expression : Expression}

theorem of_operand (reads : ReadsOperand expression.words expression) : expression.Reads :=
  ⟨fun _ => reads, fun _ => reads.item, fun _ => reads.item.alternative, reads.item.alternative.whole⟩

theorem of_item (loose : ¬ expression.operator.level ≤ 4)
    (reads : ReadsItem expression.words expression) : expression.Reads :=
  ⟨fun tight => absurd tight loose, fun _ => reads, fun _ => reads.alternative,
    reads.alternative.whole⟩

theorem of_alternative (loose : ¬ expression.operator.level ≤ 5)
    (reads : ReadsAlternative expression.words expression) : expression.Reads :=
  ⟨fun tight => absurd (Nat.le_succ_of_le tight) loose, fun tight => absurd tight loose,
    fun _ => reads, reads.whole⟩

theorem of_whole (loose : ¬ expression.operator.level ≤ 6)
    (reads : ReadsWhole expression.words expression) : expression.Reads :=
  ⟨fun tight => absurd (Nat.le_trans tight (by decide)) loose,
    fun tight => absurd (Nat.le_succ_of_le tight) loose, fun tight => absurd tight loose, reads⟩

/-- Below an operator an expression is read as an operand if it stands in parentheses, and as its
level says if it needs none. -/
theorem below (reads : expression.Reads) {parent : Operator}
    {reading : List Word → Expression → Prop}
    (enclosed : ∀ {words}, ReadsOperand words expression → reading words expression)
    (bare : parent.needsParentheses expression.operator = false →
      reading expression.words expression) : reading (expression.operandOf parent) expression := by
  rw [operandOf, enclose]
  split
  next => exact enclosed reads.whole.enclosed
  next needless => exact bare (Bool.eq_false_iff.mpr needless)

theorem repeated (reads : expression.Reads) :
    ReadsOperand (expression.operandOf .repetition) expression :=
  reads.below id fun needless => reads.operand (Operator.level_le needless)

theorem signed (reads : expression.Reads) (sign : Sign) :
    ReadsItem (expression.operandOf sign.operator) expression := by
  have level : sign.operator.level ≤ 5 := by cases sign <;> exact Nat.le_refl 5
  exact reads.below ReadsOperand.item fun needless =>
    reads.item (Nat.le_trans (Operator.level_le needless) level)

theorem inSequence (reads : expression.Reads) (different : expression.operator ≠ .sequence) :
    ReadsItem (expression.operandOf .sequence) expression :=
  reads.below ReadsOperand.item fun needless =>
    reads.item (Nat.le_of_lt_succ (Operator.level_lt needless different))

theorem inChoice (reads : expression.Reads) (different : expression.operator ≠ .choice) :
    ReadsAlternative (expression.operandOf .choice) expression :=
  reads.below (fun operand => operand.item.alternative) fun needless =>
    reads.alternative (Nat.le_of_lt_succ (Operator.level_lt needless different))

end Reads

/-- The words of an expression can be read as its level says. The induction is over the expression:
what stands below an operator has been read as an operand, item or alternative before. -/
theorem reads_of_isShaped {expression : Expression} (shaped : expression.isShaped) :
    expression.Reads := by
  induction expression with
  | literal chars => exact .of_operand fun frame outer => rfl
  | charSet set => exact .of_operand fun frame outer => rfl
  | signed sign body inductionHypothesis =>
      obtain ⟨signs, operand, put, ends⟩ := (inductionHypothesis shaped).signed sign
      have loose : ¬ (signed sign body).operator.level ≤ 4 := by cases sign <;> nofun
      refine .of_item loose ⟨signs ++ [sign], operand, ?_, fun frame outer => ?_⟩
      · rw [← put, signedBy, List.foldl_append]
        rfl
      · have further := ends { frame with signs := sign :: frame.signs } outer
        rw [List.append_assoc]
        exact further
  | repetition body count inductionHypothesis =>
      refine .of_operand fun frame outer => ?_
      rw [words, List.foldl_append, ← operandOf, (inductionHypothesis shaped).repeated]
      rfl
  | sequence items inductionHypothesis =>
      simp only [isShaped, Bool.and_eq_true, decide_eq_true_eq, areShaped_iff] at shaped
      obtain ⟨several, each⟩ := shaped
      refine .of_alternative (Nat.not_succ_le_self 5) ?_
      rw [words, operands_eq_map]
      exact .sequence several fun item member =>
        (inductionHypothesis item member (each item member).2).inSequence (each item member).1
  | choice items inductionHypothesis =>
      simp only [isShaped, Bool.and_eq_true, decide_eq_true_eq, areShaped_iff] at shaped
      obtain ⟨several, each⟩ := shaped
      refine .of_whole (Nat.not_succ_le_self 6) ?_
      rw [words, operands_eq_map]
      exact .choice several fun item member =>
        (inductionHypothesis item member (each item member).2).inChoice (each item member).1

/-- The words of an expression spell no other one. -/
theorem ofWords_words {expression : Expression} (shaped : expression.isShaped) :
    ofWords expression.words = some expression := by
  obtain ⟨frame, reads, rfl⟩ := (reads_of_isShaped shaped).whole []
  rw [ofWords, reads]
  rfl

/-- The text of an expression. -/
def encode (expression : Expression) : List Char :=
  expression.words.flatMap Word.encode

theorem encode_eq_iff {first second : Expression} (shaped : first.isShaped)
    (alsoShaped : second.isShaped) : first.encode = second.encode ↔ first = second := by
  refine ⟨fun same => ?_, congrArg encode⟩
  have nonempty (word : Word) : word.encode ≠ [] := by
    obtain ⟨_, _, form, -⟩ := word.sortOf_head
    simp [form]
  have sameWords : first.words = second.words :=
    Word.encode_prefixFree.flatMap_injective nonempty same
  refine Option.some.inj ?_
  rw [← ofWords_words shaped, ← ofWords_words alsoShaped, sameWords]

theorem encode_operandOf (parent : Operator) (expression : Expression) :
    (expression.operandOf parent).flatMap Word.encode =
      if parent.needsParentheses expression.operator then '(' :: expression.encode ++ [')']
      else expression.encode := by
  rw [operandOf, enclose]
  split <;> simp [Word.encode, encode]

theorem flatMap_intercalate (separator : List Word) (items : List (List Word)) :
    (separator.intercalate items).flatMap Word.encode =
      (separator.flatMap Word.encode).intercalate (items.map (List.flatMap Word.encode)) := by
  induction items with
  | nil => rfl
  | cons first rest inductionHypothesis =>
      cases rest with
      | nil => simp
      | cons next rest =>
          rw [List.intercalate_cons_cons, List.flatMap_append, List.flatMap_append,
            inductionHypothesis]
          simp only [List.map_cons, List.intercalate_cons_cons]

end Expression

/-! ## Patterns that spell expressions -/

namespace Graph

variable {graph other : Graph} {pattern another : PatternId} {expression first second : Expression}

/-- The pattern and all below it are unnamed ones without trace options, and together they are the
expression. -/
inductive Spells (graph : Graph) : PatternId → Expression → Prop
  | literal {pattern : PatternId} {chars : List Char}
      (node : graph.node pattern = { kind := .literal chars }) : graph.Spells pattern (.literal chars)
  | charSet {pattern : PatternId} {set : CharSet}
      (node : graph.node pattern = { kind := .charSet set }) : graph.Spells pattern (.charSet set)
  | negative {pattern body : PatternId} {inner : Expression}
      (node : graph.node pattern = { kind := .negative body }) (spells : graph.Spells body inner) :
      graph.Spells pattern (.signed .negative inner)
  | positive {pattern body : PatternId} {inner : Expression}
      (node : graph.node pattern = { kind := .positive body }) (spells : graph.Spells body inner) :
      graph.Spells pattern (.signed .positive inner)
  | repetition {pattern body : PatternId} {inner : Expression} {count : RepeatCount}
      (node : graph.node pattern = { kind := .repetition body count })
      (spells : graph.Spells body inner) : graph.Spells pattern (.repetition inner count)
  | sequence {pattern : PatternId} {items : List PatternId} {expressions : List Expression}
      (node : graph.node pattern = { kind := .sequence items })
      (each : List.Forall₂ graph.Spells items expressions) :
      graph.Spells pattern (.sequence expressions)
  | choice {pattern : PatternId} {items : List PatternId} {expressions : List Expression}
      (node : graph.node pattern = { kind := .choice items })
      (each : List.Forall₂ graph.Spells items expressions) :
      graph.Spells pattern (.choice expressions)

theorem Spells.outline (spells : graph.Spells pattern expression) :
    graph.name? pattern = none ∧ (graph.kind pattern).operator = expression.operator := by
  cases spells with
  | literal node | charSet node | negative node | positive node | repetition node | sequence node
  | choice node => exact ⟨congrArg Node.name node, congrArg (·.kind.operator) node⟩

theorem Spells.operand (spells : graph.Spells pattern expression)
    (text : (graph.display pattern).toList = expression.encode) (parent : Operator) :
    (graph.displayOperand graph.display parent pattern).toList =
      (expression.operandOf parent).flatMap Word.encode := by
  obtain ⟨unnamed, operator⟩ := spells.outline
  simp only [displayOperand, unnamed, Expression.encode_operandOf, ← operator]
  split <;> simp [text]

theorem toList_operands {items : List PatternId} {expressions : List Expression}
    (each : List.Forall₂ graph.Spells items expressions)
    (texts : ∀ expression ∈ expressions, ∀ {item}, graph.Spells item expression →
      (graph.display item).toList = expression.encode) (parent : Operator) :
    (items.map (graph.displayOperand graph.display parent)).map String.toList =
      (Expression.operands parent expressions).map (List.flatMap Word.encode) := by
  induction each with
  | nil => rfl
  | cons spells _ inductionHypothesis =>
      rw [List.forall_mem_cons] at texts
      simp only [List.map_cons, Expression.operands, inductionHypothesis texts.2,
        spells.operand (texts.1 spells) parent]
      rfl

/-- A pattern is written as the expression that it spells. -/
theorem Spells.text (wellFormed : graph.WellFormed) (spells : graph.Spells pattern expression) :
    (graph.display pattern).toList = expression.encode := by
  induction expression generalizing pattern with
  | literal chars =>
      cases spells with
      | literal node =>
          rw [display_eq wellFormed, kind, node]
          simp [displayKind, quotedText, Expression.encode, Expression.words, Word.encode]
  | charSet set =>
      cases spells with
      | charSet node =>
          rw [display_eq wellFormed, kind, node]
          simp [displayKind, CharSet.display, Expression.encode, Expression.words, Word.encode]
  | signed sign body inductionHypothesis =>
      cases spells with
      | negative node spells | positive node spells =>
          rw [display_eq wellFormed, kind, node]
          simp only [displayKind, String.toList_append, spells.operand (inductionHypothesis spells)]
          rfl
  | repetition body count inductionHypothesis =>
      cases spells with
      | repetition node spells =>
          rw [display_eq wellFormed, kind, node]
          simp only [displayKind, String.toList_append, spells.operand (inductionHypothesis spells)]
          simp [Expression.encode, Expression.words, Expression.operandOf, Word.encode, Kind.operator]
  | sequence items inductionHypothesis =>
      cases spells with
      | sequence node each =>
          rw [display_eq wellFormed, kind, node]
          simp only [displayKind, String.toList_intercalate, toList_operands each inductionHypothesis,
            Expression.encode, Expression.words, Expression.flatMap_intercalate]
          rfl
  | choice items inductionHypothesis =>
      cases spells with
      | choice node each =>
          rw [display_eq wellFormed, kind, node]
          simp only [displayKind, String.toList_intercalate, toList_operands each inductionHypothesis,
            Expression.encode, Expression.words, Expression.flatMap_intercalate]
          rfl

/-- Patterns that spell expressions have the same written form exactly if the expressions are the
same, with all their literals, sets and counts. -/
theorem display_eq_iff (wellFormed : graph.WellFormed) (alsoWellFormed : other.WellFormed)
    (spells : graph.Spells pattern first) (alsoSpells : other.Spells another second)
    (shaped : first.isShaped) (alsoShaped : second.isShaped) :
    graph.display pattern = other.display another ↔ first = second := by
  rw [← Expression.encode_eq_iff shaped alsoShaped, ← spells.text wellFormed,
    ← alsoSpells.text alsoWellFormed, String.toList_inj]

/-- A sequence whose last item is repeated, and a repeated sequence of the same literals. -/
def lookalikes : Graph where
  slots := #[
    some { kind := .literal ['a'] },
    some { kind := .literal ['b', '"'] },
    some { kind := .repetition 1 (.atLeast 2) },
    some { kind := .sequence [0, 2] },
    some { kind := .sequence [0, 1] },
    some { kind := .repetition 4 (.atLeast 2) }]

theorem display_eq_iff_lookalikes :
    let last : Expression :=
      .sequence [.literal ['a'], .repetition (.literal ['b', '"']) (.atLeast 2)]
    let all : Expression :=
      .repetition (.sequence [.literal ['a'], .literal ['b', '"']]) (.atLeast 2)
    lookalikes.WellFormed ∧ lookalikes.Spells 3 last ∧ lookalikes.Spells 5 all ∧ last.isShaped ∧
      all.isShaped ∧ lookalikes.display 3 ≠ lookalikes.display 5 := by
  intro last all
  have wellFormed : lookalikes.WellFormed := by
    intro pattern node found
    match pattern with
    | 0 | 1 | 2 | 3 | 4 | 5 =>
        cases found
        simp [Kind.children]
    | pattern + 6 => cases found
  have first : lookalikes.Spells 0 (.literal ['a']) := .literal rfl
  have second : lookalikes.Spells 1 (.literal ['b', '"']) := .literal rfl
  have spellsLast : lookalikes.Spells 3 last :=
    .sequence rfl (.cons first (.cons (.repetition rfl second) .nil))
  have spellsAll : lookalikes.Spells 5 all :=
    .repetition rfl (.sequence rfl (.cons first (.cons second .nil)))
  refine ⟨wellFormed, spellsLast, spellsAll, rfl, rfl, fun same => ?_⟩
  exact Expression.noConfusion
    ((display_eq_iff wellFormed wellFormed spellsLast spellsAll rfl rfl).mp same)

end Graph

end PegEngine
