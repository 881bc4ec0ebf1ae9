import PegEngine.Proofs.Lexer.Patterns
import PegEngine.Proofs.Pattern.Taking
import PegEngine.Workspace

/-!
Contract: a recursive grammar reads back what its syntax trees print.

The grammar is that of sums: terms with a plus sign between them, where a term is a numeral or a sum
in parentheses. The rule of sums is bound weakly inside of itself.

Owns:
- `Sum` and `Term`, the syntax, with what they print and what is captured of them;
- `Pattern.sum` and `Pattern.term`, the grammar, and `sumGraph`, in which its rules are bound;
- `SumNodes`, the nodes that it is made of;
- `sumGraph_parse_print`, that the grammar takes what a sum prints and captures its tree.
-/

namespace PegEngine

/-- One digit or more. -/
structure Numeral where
  digits : List Char
  nonempty : digits ≠ []
  areDigits : ∀ c ∈ digits, Lexer.Lexeme.isDigit c

mutual

/-- Terms with a plus sign between them, at least one. -/
inductive Sum where
  | last (term : Term)
  | more (term : Term) (rest : Sum)

/-- A numeral, or a sum in parentheses. -/
inductive Term where
  | numeral (numeral : Numeral)
  | nested (sum : Sum)

end

mutual

def Sum.print : Sum → List Char
  | .last term => term.print
  | .more term rest => term.print ++ '+' :: rest.print

def Term.print : Term → List Char
  | .numeral numeral => numeral.digits
  | .nested sum => '(' :: (sum.print ++ [')'])

end

mutual

/-- What is captured of the terms. -/
def Sum.captures : Sum → List Capture
  | .last term => [term.tree]
  | .more term rest => term.tree :: rest.captures

def Term.tree : Term → Capture
  | .numeral numeral => .text (String.ofList numeral.digits)
  | .nested sum => .list sum.captures

end

def Sum.tree (sum : Sum) : Capture :=
  .list sum.captures

mutual

/-- How many parentheses are around the innermost term. -/
def Sum.nesting : Sum → Nat
  | .last term => term.nesting
  | .more term rest => max term.nesting rest.nesting

def Term.nesting : Term → Nat
  | .numeral _ => 0
  | .nested sum => sum.nesting + 1

end

/-! ## The grammar -/

namespace Pattern

/-- A numeral, or a sum in parentheses. -/
def term : Build PatternId := do
  let number ← capture (← oneOrMore (← digit))
  let nested ← sequence [← literal "(", ← reference "expr", ← literal ")"]
  named (← choice [number, nested]) "term"

/-- Terms with a plus sign between them, collected into a list. -/
def sum : Build PatternId := do
  let first ← reference "term"
  let more ← zeroOrMore (← sequence [← literal "+", ← reference "term"])
  named (← group (← sequence [first, more])) "expr"

end Pattern

/-- The rule of sums, the number of references bound, and the workspace that keeps the rule of sums
alone. -/
def boundSums : PatternId × Except PatternError Nat × Workspace :=
  let (term, workspace) := Workspace.build {} Pattern.term
  let (sum, workspace) := workspace.build Pattern.sum
  let (bound, workspace) := workspace.bind sum [sum, term]
  (sum, bound, (workspace.define "expr" sum).release)

def sumRule : PatternId :=
  boundSums.1

def sumGraph : Graph :=
  boundSums.2.2.graph

/-- The nodes of the grammar, with the sum inside of a term bound to the whole. -/
structure SumNodes (graph : Graph) (sum : PatternId) where
  terms : PatternId
  first : PatternId
  firstCell : CellId
  more : PatternId
  addend : PatternId
  plus : PatternId
  next : PatternId
  nextCell : CellId
  term : PatternId
  numeral : PatternId
  number : PatternId
  digit : PatternId
  nested : PatternId
  opening : PatternId
  inner : PatternId
  innerCell : CellId
  closing : PatternId
  groups : graph.kind sum = .group terms false
  lists : graph.kind terms = .sequence [first, more]
  refersFirst : graph.kind first = .reference "term" firstCell
  bindsFirst : graph.target? firstCell = some term
  repeats : graph.kind more = .repetition addend (.atLeast 0)
  adds : graph.kind addend = .sequence [plus, next]
  isPlus : graph.kind plus = .literal ['+']
  refersNext : graph.kind next = .reference "term" nextCell
  bindsNext : graph.target? nextCell = some term
  chooses : graph.kind term = .choice [numeral, nested]
  captures : graph.kind numeral = .capture number
  numbers : graph.kind number = .repetition digit (.atLeast 1)
  isDigit : graph.kind digit = .charSet ⟨[.range '0' '9']⟩
  nests : graph.kind nested = .sequence [opening, inner, closing]
  opens : graph.kind opening = .literal ['(']
  refersInner : graph.kind inner = .reference "expr" innerCell
  bindsInner : graph.target? innerCell = some sum
  closes : graph.kind closing = .literal [')']

def sumGraph_nodes : SumNodes sumGraph sumRule where
  terms := 14
  first := 9
  firstCell := 1
  more := 13
  addend := 12
  plus := 10
  next := 11
  nextCell := 2
  term := 8
  numeral := 2
  number := 1
  digit := 0
  nested := 6
  opening := 3
  inner := 4
  innerCell := 0
  closing := 5
  groups := Kind.eq_of_same (by decide +kernel)
  lists := Kind.eq_of_same (by decide +kernel)
  refersFirst := Kind.eq_of_same (by decide +kernel)
  bindsFirst := by decide +kernel
  repeats := Kind.eq_of_same (by decide +kernel)
  adds := Kind.eq_of_same (by decide +kernel)
  isPlus := Kind.eq_of_same (by decide +kernel)
  refersNext := Kind.eq_of_same (by decide +kernel)
  bindsNext := by decide +kernel
  chooses := Kind.eq_of_same (by decide +kernel)
  captures := Kind.eq_of_same (by decide +kernel)
  numbers := Kind.eq_of_same (by decide +kernel)
  isDigit := Kind.eq_of_same (by decide +kernel)
  nests := Kind.eq_of_same (by decide +kernel)
  opens := Kind.eq_of_same (by decide +kernel)
  refersInner := Kind.eq_of_same (by decide +kernel)
  bindsInner := by decide +kernel
  closes := Kind.eq_of_same (by decide +kernel)

theorem sumGraph_free : sumGraph.FreeOfFunctions :=
  Graph.freeOfFunctions_of_same (by decide +kernel)

/-! ## What the grammar takes -/

/-- No digit is next. -/
def EndsNumeral (rest : List Char) : Prop :=
  rest.head?.any Lexer.Lexeme.isDigit = false

/-- Neither a digit nor a plus sign is next. -/
def EndsSum (rest : List Char) : Prop :=
  rest.head?.any (fun c => Lexer.Lexeme.isDigit c || c == '+') = false

theorem EndsSum.endsNumeral {rest : List Char} (ends : EndsSum rest) : EndsNumeral rest := by
  cases rest with
  | nil => rfl
  | cons c rest =>
      simp only [EndsSum, List.head?_cons, Option.any_some, Bool.or_eq_false_iff] at ends
      exact ends.1

theorem EndsNumeral.takeWhile {rest : List Char} (ends : EndsNumeral rest) :
    rest.takeWhile Lexer.Lexeme.isDigit = [] := by
  cases rest with
  | nil => rfl
  | cons c rest =>
      have noDigit : Lexer.Lexeme.isDigit c = false := ends
      rw [List.takeWhile_cons, noDigit]
      rfl

/-- The nested calls that are enough for a term. -/
def Term.calls (term : Term) : Nat :=
  8 * term.nesting + 4

/-- The nested calls that are enough for the terms behind a plus sign. -/
def Sum.callsMore (sum : Sum) : Nat :=
  8 * sum.nesting + 6

/-- The nested calls that are enough for a sum. -/
def Sum.calls (sum : Sum) : Nat :=
  8 * sum.nesting + 9

theorem Sum.calls_last (term : Term) : (Sum.last term).callsMore = term.calls + 2 := by
  simp only [callsMore, nesting, Term.calls]

theorem Sum.calls_term_le (term : Term) (rest : Sum) :
    term.calls + 2 ≤ (Sum.more term rest).callsMore := by
  simp only [callsMore, nesting, Term.calls]
  omega

theorem Sum.calls_rest_le (term : Term) (rest : Sum) :
    rest.callsMore ≤ (Sum.more term rest).callsMore := by
  simp only [callsMore, nesting]
  omega

namespace SumNodes

variable {graph : Graph} {root : PatternId} (nodes : SumNodes graph root)

include nodes

theorem scans_number (store : ByValue.Store) :
    graph.Scans store 1 (graph.kind nodes.number) (.run Lexer.Lexeme.isDigit 1) :=
  .of_kind nodes.numbers ((Graph.Scans.of_kind nodes.isDigit (.charSet _)).atLeast (fun _ => rfl) 1)

theorem takes_numeral (numeral : Numeral) :
    graph.Takes nodes.numeral 3 numeral.digits [.text (String.ofList numeral.digits)]
      EndsNumeral := by
  have takes : graph.Takes nodes.number 2 numeral.digits [] EndsNumeral := by
    refine .of_scans nodes.scans_number fun rest ends => ?_
    have some : 1 ≤ numeral.digits.length := List.length_pos_iff.mpr numeral.nonempty
    simp [Scan.run, List.takeWhile_append_of_pos numeral.areDigits, ends.takeWhile, some]
  exact takes.capture nodes.captures

theorem fails_numeral : graph.Fails nodes.numeral 3 EndsNumeral := by
  have fails : graph.Fails nodes.number 2 EndsNumeral :=
    .of_scans nodes.scans_number fun ahead ends => by simp [Scan.run, ends.takeWhile]
  exact fails.capture nodes.captures

/-- One more term, behind a plus sign. -/
theorem takes_addend {term : Term}
    (takes : graph.Takes nodes.term term.calls term.print [term.tree] EndsNumeral) :
    graph.Takes nodes.addend (term.calls + 2) ('+' :: term.print) [term.tree] EndsNumeral := by
  have plus : graph.Takes nodes.plus (term.calls + 1) ['+'] [] fun _ => True :=
    (Graph.takes_literal nodes.isPlus).mono (by omega)
  have next := takes.reference nodes.refersNext nodes.bindsNext
  have both := plus.andThen (next.andThen .nil fun _ ends => ends) fun _ _ => trivial
  simpa using both.sequence nodes.adds

theorem fails_addend : graph.Fails nodes.addend 2 EndsSum := by
  refine ((Graph.fails_literal nodes.isPlus).sequence nodes.adds).mono (Nat.le_refl _) ?_
  rintro ahead ends plus
  rw [EndsSum, plus] at ends
  cases ends

/-- A sum in parentheses is a term. -/
theorem takes_nested {sum : Sum}
    (takes : graph.Takes root sum.calls sum.print [sum.tree] EndsSum) :
    graph.Takes nodes.term (Term.nested sum).calls (Term.nested sum).print [(Term.nested sum).tree]
      EndsNumeral := by
  have opening : graph.Takes nodes.opening (sum.calls + 1) ['('] [] fun _ => True :=
    (Graph.takes_literal nodes.opens).mono (by omega)
  have inner := takes.reference nodes.refersInner nodes.bindsInner
  have closing : graph.Takes nodes.closing (sum.calls + 1) [')'] [] EndsNumeral :=
    (Graph.takes_literal nodes.closes).mono (by omega)
  have all := opening.andThen
    (inner.andThen (closing.andThen .nil fun _ ends => ends) fun _ _ => rfl) fun _ _ => trivial
  have fails : graph.Fails nodes.numeral (sum.calls + 2) EndsNumeral :=
    nodes.fails_numeral.mono (by unfold Sum.calls; omega) fun _ ends => ends
  have nested := (all.sequence nodes.nests).choice_second fails nodes.chooses fun _ => rfl
  have calls : (Term.nested sum).calls = sum.calls + 3 := by
    unfold Term.calls Sum.calls Term.nesting
    omega
  rw [calls]
  simpa [Term.print, Term.tree, Sum.tree] using nested

/-- A sum is its first term and those behind it. -/
theorem takes_terms {term : Term} {taken : List Char} {captures : List Capture} {calls : Nat}
    (takes : graph.Takes nodes.term (calls + 1) term.print [term.tree] EndsNumeral)
    (takesMore : graph.TakesMany nodes.addend (calls + 1) taken captures EndsSum)
    (fits : ∀ rest, EndsSum rest → EndsNumeral (taken ++ rest)) :
    graph.Takes root (calls + 4) (term.print ++ taken) [.list (term.tree :: captures)] EndsSum := by
  have first := takes.reference nodes.refersFirst nodes.bindsFirst
  have more := takesMore.repetition nodes.repeats
  have all := first.andThen (more.andThen .nil fun _ ends => ends) (by simpa using fits)
  simpa using (all.sequence nodes.lists).group nodes.groups

mutual

theorem takes_term : ∀ term : Term,
    graph.Takes nodes.term term.calls term.print [term.tree] EndsNumeral
  | .numeral numeral => (nodes.takes_numeral numeral).choice nodes.chooses
  | .nested sum => nodes.takes_nested (takes_sum sum)

theorem takes_sum : ∀ sum : Sum, graph.Takes root sum.calls sum.print [sum.tree] EndsSum
  | .last term => by
      have takes : graph.Takes nodes.term (Sum.last term).callsMore _ _ _ :=
        (takes_term term).mono (by rw [Sum.calls_last]; omega)
      have takesMore : graph.TakesMany nodes.addend (Sum.last term).callsMore [] [] EndsSum :=
        (nodes.fails_addend.mono (by rw [Sum.calls_last]; omega) fun _ ends => ends).takesMany
      have takesSum := nodes.takes_terms takes takesMore fun _ ends => ends.endsNumeral
      rwa [List.append_nil] at takesSum
  | .more term rest => by
      have enough := Sum.calls_term_le term rest
      have takes : graph.Takes nodes.term (Sum.more term rest).callsMore _ _ _ :=
        (takes_term term).mono (by omega)
      have takesMore := (takesMany_sum rest).mono (Sum.calls_rest_le term rest)
      exact nodes.takes_terms takes takesMore fun _ _ => rfl

/-- A sum behind a plus sign, as the repetition of the grammar takes it. -/
theorem takesMany_sum : ∀ sum : Sum,
    graph.TakesMany nodes.addend sum.callsMore ('+' :: sum.print) sum.captures EndsSum
  | .last term => by
      have takes := nodes.takes_addend (takes_term term)
      have fails : graph.Fails nodes.addend (term.calls + 2) EndsSum :=
        nodes.fails_addend.mono (by omega) fun _ ends => ends
      have takesMany := takes.andMany fails.takesMany (List.cons_ne_nil _ _)
        fun _ ends => ends.endsNumeral
      rwa [List.append_nil, List.append_nil, ← Sum.calls_last] at takesMany
  | .more term rest => by
      have takes := (nodes.takes_addend (takes_term term)).mono (Sum.calls_term_le term rest)
      have takesRest := (takesMany_sum rest).mono (Sum.calls_rest_le term rest)
      exact takes.andMany takesRest (List.cons_ne_nil _ _) fun _ _ => rfl

end

end SumNodes

/-- What a sum prints is read back as its tree, given room for eight nested calls for each
parenthesis around a term and nine more. -/
theorem sumGraph_parse_print (sum : Sum) {rest : List Char} (ends : EndsSum rest) {input : Input}
    {context : Context} (printed : input.text.chars.toList = sum.print ++ rest)
    (room : context.depth + (8 * sum.nesting + 9) ≤ context.config.limit) :
    (sumGraph.matchIn sumRule input 0 context).result =
      .ok (some { source := input.text, start := 0, stop := sum.print.length,
                  captures := [sum.tree] }) := by
  rw [Graph.result_matchIn (sumGraph_free.functionFree _)]
  have takes := sumGraph_nodes.takes_sum sum
  have called := @takes input.text 0 (context.config.limit - context.depth) rest
    context.config.limit none (context.state input).store printed ends (Nat.zero_le _)
    (by unfold Sum.calls; omega)
  unfold Graph.matchByValue Context.setup
  rw [called]
  simp [Except.map]

/-- The sum that prints as `1+(20+1)`. -/
def sumOfTwo : Sum :=
  let one : Term := .numeral ⟨['1'], by decide, List.all_eq_true.mp rfl⟩
  let twenty : Term := .numeral ⟨['2', '0'], by decide, List.all_eq_true.mp rfl⟩
  .more one (.last (.nested (.more twenty (.last one))))

/-- In front of a space, whatever stands behind it. -/
theorem sumGraph_parse_print_sumOfTwo :
    EndsSum [' ', '+'] ∧ ({} : Context).depth + (8 * sumOfTwo.nesting + 9) ≤ defaultLimit ∧
      (sumGraph.matchIn sumRule { text := .ofString "1+(20+1) +" } 0 {}).result =
        .ok (some { source := .ofString "1+(20+1) +", start := 0, stop := 8, captures := [
          .list [.text "1", .list [.text "20", .text "1"]]] }) :=
  ⟨rfl, by decide,
    @sumGraph_parse_print sumOfTwo [' ', '+'] rfl { text := .ofString "1+(20+1) +" } {} (by decide)
      (by decide)⟩

end PegEngine
