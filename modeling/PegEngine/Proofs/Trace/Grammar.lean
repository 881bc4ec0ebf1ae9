import PegEngine.Trace.Specification

/-!
Contract: the grammar of filter specifications, and what a scan has read of it.

Owns:
- `IsExpr` and `IsTerm`, which texts specify which filter;
- `Opens` and `Scanned`, what has been read when a scan is at a point, kept by every step;
- `Opens.complete`, that a filter is completed as the grammar groups it;
- `Opens.completes`, that what a scan has read can be completed;
- `scan_of_isExpr`, that a scan reads what the grammar specifies.
-/

namespace PegEngine

/-- Characters of disjoint ranges are distinct. -/
theorem not_inRanges_of_disjoint {ranges others : List (Nat × Nat)}
    (disjoint : ∀ range ∈ ranges, ∀ other ∈ others, range.2 < other.1 ∨ other.2 < range.1)
    {c : Char} (inside : inRanges ranges c) : inRanges others c = false := by
  rw [Bool.eq_false_iff]
  intro also
  obtain ⟨range, member, above, below⟩ := inRanges_iff.mp inside
  obtain ⟨other, memberOther, aboveOther, belowOther⟩ := inRanges_iff.mp also
  have apart := disjoint range member other memberOther
  omega

namespace TraceFilter

namespace Specification

def Connective.mark : Connective → Char
  | .and => '&'
  | .or => '|'

/-- A letter or an underscore, and then letters, numerals and underscores. -/
structure IsName (name : List Char) : Prop where
  starts : name.head?.any startsName
  continues : ∀ c ∈ name, continuesName c

/-- The filter that a name stands for. -/
def filterOf? (name : List Char) : Option TraceFilter :=
  ofName? (String.ofList name)

def Blanks (chars : List Char) : Prop :=
  ∀ c ∈ chars, isBlank c

theorem Blanks.nil : Blanks [] :=
  nofun

mutual

/-- A term, or a term with an operator and an expression behind it. The filter of the expression is
the right operand as a whole. -/
inductive IsExpr : List Char → TraceFilter → Prop
  | term {chars : List Char} {filter : TraceFilter} (isTerm : IsTerm chars filter) :
      IsExpr chars filter
  | combined {left right : List Char} {filter other : TraceFilter} (isLeft : IsTerm left filter)
      (operator : Connective) (isRight : IsExpr right other) :
      IsExpr (left ++ operator.mark :: right) (operator.apply filter other)

/-- A name of a filter, or an expression in parentheses. Blanks may stand on both sides of a term,
and so around every parenthesis, name and operator. -/
inductive IsTerm : List Char → TraceFilter → Prop
  | group {before chars after : List Char} {filter : TraceFilter} (blanksBefore : Blanks before)
      (isExpr : IsExpr chars filter) (blanksAfter : Blanks after) :
      IsTerm (before ++ '(' :: (chars ++ ')' :: after)) filter
  | name {before name after : List Char} {filter : TraceFilter} (blanksBefore : Blanks before)
      (isName : IsName name) (known : filterOf? name = some filter) (blanksAfter : Blanks after) :
      IsTerm (before ++ (name ++ after)) filter

end

/-! ## Classes of characters -/

theorem continuesName_of_startsName {c : Char} (starts : startsName c) : continuesName c := by
  unfold startsName at starts
  unfold continuesName
  grind

theorem isBlank_of_continuesName {c : Char} (continues : continuesName c) : isBlank c = false := by
  unfold continuesName isLetter isNumeral at continues
  rw [Bool.or_eq_true, Bool.or_eq_true] at continues
  rcases continues with (letter | numeral) | underscore
  · exact not_inRanges_of_disjoint (by decide +kernel) letter
  · exact not_inRanges_of_disjoint (by decide +kernel) numeral
  · rw [eq_of_beq underscore]
    decide

/-- No mark of the grammar is a blank or a part of a name. -/
theorem plain_of_mark {c : Char} (isMark : c ∈ ['(', ')', '&', '|']) :
    isBlank c = false ∧ continuesName c = false := by
  simp only [List.mem_cons, List.not_mem_nil, or_false] at isMark
  rcases isMark with rfl | rfl | rfl | rfl <;> decide +kernel

/-- What follows a name does not go on with it. -/
def EndsName (rest : List Char) : Prop :=
  ∀ c ∈ rest.head?, continuesName c = false

theorem EndsName.nil : EndsName [] :=
  nofun

theorem EndsName.cons {c : Char} (ends : continuesName c = false) (rest : List Char) :
    EndsName (c :: rest) := by
  intro d isHead
  cases isHead
  exact ends

theorem EndsName.of_blanks {blanks rest : List Char} (areBlanks : Blanks blanks)
    (ends : EndsName rest) : EndsName (blanks ++ rest) := by
  cases blanks with
  | nil => exact ends
  | cons c blanks =>
      refine .cons ?_ _
      rw [Bool.eq_false_iff]
      intro continues
      have blank := areBlanks c List.mem_cons_self
      rw [isBlank_of_continuesName continues] at blank
      cases blank

theorem EndsName.mark {c : Char} (isMark : c ∈ ['(', ')', '&', '|']) (rest : List Char) :
    EndsName (c :: rest) :=
  .cons (plain_of_mark isMark).2 rest

theorem Connective.mark_mem (operator : Connective) : operator.mark ∈ ['(', ')', '&', '|'] := by
  cases operator <;> decide

theorem IsName.ne_nil {name : List Char} (isName : IsName name) : name ≠ [] := by
  rintro rfl
  cases isName.starts

/-! ## What has been read -/

/-- What may have been read where a term is to begin, given what is open there. -/
inductive Opens : List Char → List Opening → Prop
  | nothing : Opens [] []
  | group {front before : List Char} {openings : List Opening} (opens : Opens front openings)
      (blanks : Blanks before) : Opens (front ++ (before ++ ['('])) (.group :: openings)
  | operand {front left : List Char} {openings : List Opening} {filter : TraceFilter}
      (opens : Opens front openings) (isLeft : IsTerm left filter) (operator : Connective) :
      Opens (front ++ (left ++ [operator.mark])) (.operand filter operator :: openings)

/-- What may have been read at a point of a scan. -/
inductive Scanned : List Char → Progress → Prop
  | term {front before : List Char} {openings : List Opening} (opens : Opens front openings)
      (blanks : Blanks before) : Scanned (front ++ before) ⟨.term, openings⟩
  | name {front before letters : List Char} {openings : List Opening}
      (opens : Opens front openings) (blanks : Blanks before) (isName : IsName letters.reverse) :
      Scanned (front ++ (before ++ letters.reverse)) ⟨.name letters, openings⟩
  | operator {front chars : List Char} {openings : List Opening} {filter : TraceFilter}
      (opens : Opens front openings) (isTerm : IsTerm chars filter) :
      Scanned (front ++ chars) ⟨.operator filter, openings⟩

theorem Scanned.start : Scanned [] ⟨.term, []⟩ :=
  .term .nothing .nil

theorem Blanks.concat {blanks : List Char} {c : Char} (areBlanks : Blanks blanks)
    (blank : isBlank c) : Blanks (blanks ++ [c]) := by
  intro d member
  rcases List.mem_append.mp member with before | last
  · exact areBlanks d before
  · rw [List.mem_singleton.mp last]
    exact blank

theorem IsTerm.concat {chars : List Char} {filter : TraceFilter} {c : Char}
    (isTerm : IsTerm chars filter) (blank : isBlank c) : IsTerm (chars ++ [c]) filter := by
  cases isTerm with
  | group before isExpr after =>
      simpa using IsTerm.group before isExpr (after.concat blank)
  | name before isName known after =>
      simpa using IsTerm.name before isName known (after.concat blank)

theorem IsName.concat {name : List Char} {c : Char} (isName : IsName name)
    (continues : continuesName c) : IsName (name ++ [c]) where
  starts := by
    obtain ⟨first, rest, rfl⟩ := List.exists_cons_of_ne_nil isName.ne_nil
    exact isName.starts
  continues := by
    intro d member
    rcases List.mem_append.mp member with before | last
    · exact isName.continues d before
    · rw [List.mem_singleton.mp last]
      exact continues

theorem IsName.single {c : Char} (starts : startsName c) : IsName [c] where
  starts := by simpa using starts
  continues := by
    intro d member
    rw [List.mem_singleton.mp member]
    exact continuesName_of_startsName starts

/-- A completed filter is that of an expression behind the innermost parenthesis that is open, or
behind nothing if none is. -/
theorem Opens.complete {front chars : List Char} {openings : List Opening} {filter : TraceFilter}
    (opens : Opens front openings) (isExpr : IsExpr chars filter) :
    ∃ outside inside, front ++ chars = outside ++ inside ∧
      IsExpr inside (complete filter openings).1 ∧
      match (complete filter openings).2 with
      | none => outside = []
      | some outer => ∃ further before, Opens further outer ∧ Blanks before ∧
          outside = further ++ (before ++ ['(']) := by
  induction opens generalizing chars filter with
  | nothing => exact ⟨[], chars, rfl, isExpr, rfl⟩
  | @group front before _ opens blanks _ =>
      exact ⟨_, chars, rfl, isExpr, front, before, opens, blanks, rfl⟩
  | @operand front left _ leftFilter _ isLeft operator inductionHypothesis =>
      have combined := inductionHypothesis (IsExpr.combined isLeft operator isExpr)
      simpa only [Specification.complete, List.append_assoc, List.cons_append, List.nil_append]
        using combined

/-- Whatever is open, a specification can go on from there to its end. -/
theorem Opens.completes {front chars : List Char} {openings : List Opening} {filter : TraceFilter}
    (opens : Opens front openings) (isExpr : IsExpr chars filter) :
    ∃ rest whole, IsExpr (front ++ (chars ++ rest)) whole := by
  induction opens generalizing chars filter with
  | nothing => exact ⟨[], filter, by simpa using isExpr⟩
  | @group front before _ _ blanks inductionHypothesis =>
      have grouped : IsTerm (before ++ '(' :: (chars ++ ')' :: [])) filter :=
        .group blanks isExpr .nil
      obtain ⟨rest, whole, isWhole⟩ := inductionHypothesis (.term grouped)
      exact ⟨')' :: rest, whole, by simpa using isWhole⟩
  | @operand front left _ _ _ isLeft operator inductionHypothesis =>
      obtain ⟨rest, whole, isWhole⟩ := inductionHypothesis (.combined isLeft operator isExpr)
      exact ⟨rest, whole, by simpa using isWhole⟩

/-! ## Names that are known -/

theorem finishName_eq (letters : List Char) :
    finishName letters =
      match filterOf? letters.reverse with
      | some filter => .ok filter
      | none => .error (.unknownName (String.ofList letters.reverse)) := rfl

section Known

variable {letters : List Char} {filter : TraceFilter} {openings : List Opening}
  (known : filterOf? letters.reverse = some filter)

include known

theorem finish_name :
    finish ⟨.name letters, openings⟩ = finish ⟨.operator filter, openings⟩ := by
  simp only [finish, finishName_eq, known]

theorem step_name {c : Char} (ends : continuesName c = false) :
    step c ⟨.name letters, openings⟩ = step c ⟨.operator filter, openings⟩ := by
  simp only [step, finishName_eq, known, ends, Bool.false_eq_true, if_false]

end Known

/-! ## Steps -/

theorem scanned_of_stepOperator {front chars : List Char} {openings : List Opening}
    {filter : TraceFilter} {c : Char} {next : Progress} (opens : Opens front openings)
    (isTerm : IsTerm chars filter) (stepped : stepOperator c filter openings = .ok next) :
    Scanned (front ++ (chars ++ [c])) next := by
  unfold stepOperator at stepped
  split at stepped
  · next blank =>
      cases stepped
      exact .operator opens (isTerm.concat blank)
  split at stepped
  · next isAnd =>
      cases stepped
      subst isAnd
      simpa [Connective.mark] using Scanned.term (opens.operand isTerm .and) .nil
  split at stepped
  · next isOr =>
      cases stepped
      subst isOr
      simpa [Connective.mark] using Scanned.term (opens.operand isTerm .or) .nil
  split at stepped
  · next closes =>
      subst closes
      obtain ⟨outside, inside, same, isExpr, opened⟩ := opens.complete (.term isTerm)
      cases completed : complete filter openings with
      | mk value outer =>
          rw [completed] at stepped isExpr opened
          cases outer with
          | none => cases stepped
          | some outer =>
              cases stepped
              obtain ⟨further, before, opensOuter, blanks, rfl⟩ := opened
              have grouped : IsTerm (before ++ '(' :: (inside ++ ')' :: [])) value :=
                .group blanks isExpr .nil
              rw [← List.append_assoc, same]
              simpa using Scanned.operator opensOuter grouped
  · cases stepped

/-- A step keeps to what has been read. -/
theorem Scanned.step {chars : List Char} {progress next : Progress} {c : Char}
    (scanned : Scanned chars progress) (stepped : step c progress = .ok next) :
    Scanned (chars ++ [c]) next := by
  cases scanned with
  | @term front before openings opens blanks =>
      unfold Specification.step at stepped
      dsimp only at stepped
      split at stepped
      · next blank =>
          cases stepped
          rw [List.append_assoc]
          exact .term opens (blanks.concat blank)
      split at stepped
      · next opensGroup =>
          cases stepped
          subst opensGroup
          simpa using Scanned.term (opens.group blanks) .nil
      split at stepped
      · next starts =>
          cases stepped
          rw [List.append_assoc]
          exact @Scanned.name front before [c] openings opens blanks (IsName.single starts)
      · cases stepped
  | @name front before letters openings opens blanks isName =>
      rw [List.append_assoc, List.append_assoc]
      cases continues : continuesName c with
      | true =>
          simp only [Specification.step, continues, if_true] at stepped
          cases stepped
          rw [← List.reverse_cons]
          refine .name opens blanks ?_
          rw [List.reverse_cons]
          exact isName.concat continues
      | false =>
          cases known : filterOf? letters.reverse with
          | none => simp [Specification.step, continues, finishName_eq, known] at stepped
          | some filter =>
              rw [step_name known continues] at stepped
              have isTerm : IsTerm (before ++ (letters.reverse ++ [])) filter :=
                .name blanks isName known .nil
              simpa using scanned_of_stepOperator opens isTerm stepped
  | operator opens isTerm =>
      rw [List.append_assoc]
      exact scanned_of_stepOperator opens isTerm stepped

/-! ## Runs -/

/-- Steps over characters, from one point to another. -/
inductive Reads : Progress → List Char → Progress → Prop
  | refl (progress : Progress) : Reads progress [] progress
  | cons {progress next last : Progress} {c : Char} {rest : List Char}
      (stepped : step c progress = .ok next) (reads : Reads next rest last) :
      Reads progress (c :: rest) last

section Runs

variable {progress next last : Progress} {chars rest : List Char}

theorem Reads.trans (reads : Reads progress chars next) (more : Reads next rest last) :
    Reads progress (chars ++ rest) last := by
  induction reads with
  | refl => exact more
  | cons stepped _ inductionHypothesis => exact .cons stepped (inductionHypothesis more)

theorem Reads.single {c : Char} (stepped : step c progress = .ok next) : Reads progress [c] next :=
  .cons stepped (.refl next)

/-- A run over two parts is a run over each of them. -/
theorem Reads.of_append (reads : Reads progress (chars ++ rest) last) :
    ∃ between, Reads progress chars between ∧ Reads between rest last := by
  induction chars generalizing progress with
  | nil => exact ⟨progress, .refl progress, reads⟩
  | cons c chars inductionHypothesis =>
      cases reads with
      | cons stepped reads =>
          obtain ⟨between, before, after⟩ := inductionHypothesis reads
          exact ⟨between, .cons stepped before, after⟩

theorem Reads.unique {other : Progress} (reads : Reads progress chars next)
    (also : Reads progress chars other) : other = next := by
  induction reads with
  | refl =>
      cases also
      rfl
  | cons stepped _ inductionHypothesis =>
      cases also with
      | cons steppedAlso also =>
          rw [stepped] at steppedAlso
          cases steppedAlso
          exact inductionHypothesis also

theorem Reads.scanned {front : List Char} (reads : Reads progress chars next)
    (scanned : Scanned front progress) : Scanned (front ++ chars) next := by
  induction reads generalizing front with
  | refl =>
      rw [List.append_nil]
      exact scanned
  | cons stepped _ inductionHypothesis =>
      simpa using inductionHypothesis (scanned.step stepped)

/-- The number of bytes that characters take. -/
def bytesOf (chars : List Char) : Nat :=
  (String.ofList chars).utf8ByteSize

theorem bytesOf_append (chars rest : List Char) :
    bytesOf (chars ++ rest) = bytesOf chars + bytesOf rest := by
  unfold bytesOf
  rw [String.ofList_append, String.utf8ByteSize_append]

theorem bytesOf_cons (c : Char) (rest : List Char) :
    bytesOf (c :: rest) = c.utf8Size + bytesOf rest := by
  have single : bytesOf [c] = c.utf8Size := by simp [bytesOf]
  rw [← single, ← bytesOf_append, List.singleton_append]

theorem scan_of_reads (reads : Reads progress chars next) (bytes : Nat) (rest : List Char) :
    scan bytes progress (chars ++ rest) = scan (bytes + bytesOf chars) next rest := by
  induction reads generalizing bytes with
  | refl => rfl
  | cons stepped _ inductionHypothesis =>
      rw [List.cons_append, scan, stepped, bytesOf_cons, ← Nat.add_assoc]
      exact inductionHypothesis _

end Runs

/-! ## Reading what the grammar specifies -/

theorem reads_blanks_term {blanks : List Char} (areBlanks : Blanks blanks)
    (openings : List Opening) : Reads ⟨.term, openings⟩ blanks ⟨.term, openings⟩ := by
  induction blanks with
  | nil => exact .refl _
  | cons c blanks inductionHypothesis =>
      refine .cons ?_ <| inductionHypothesis fun d member =>
        areBlanks d (List.mem_cons_of_mem c member)
      simp [step, areBlanks c List.mem_cons_self]

theorem reads_blanks_operator {blanks : List Char} (areBlanks : Blanks blanks)
    (filter : TraceFilter) (openings : List Opening) :
    Reads ⟨.operator filter, openings⟩ blanks ⟨.operator filter, openings⟩ := by
  induction blanks with
  | nil => exact .refl _
  | cons c blanks inductionHypothesis =>
      refine .cons ?_ <| inductionHypothesis fun d member =>
        areBlanks d (List.mem_cons_of_mem c member)
      simp [step, stepOperator, areBlanks c List.mem_cons_self]

theorem reads_letters {more : List Char} (goOn : ∀ c ∈ more, continuesName c)
    (letters : List Char) (openings : List Opening) :
    Reads ⟨.name letters, openings⟩ more ⟨.name (more.reverse ++ letters), openings⟩ := by
  induction more generalizing letters with
  | nil => exact .refl _
  | cons c more inductionHypothesis =>
      have rest := inductionHypothesis (fun d member => goOn d (List.mem_cons_of_mem c member))
        (c :: letters)
      refine .cons ?_ (by simpa using rest)
      simp [step, goOn c List.mem_cons_self]

theorem reads_name {name : List Char} (isName : IsName name) (openings : List Opening) :
    Reads ⟨.term, openings⟩ name ⟨.name name.reverse, openings⟩ := by
  obtain ⟨c, rest, rfl⟩ := List.exists_cons_of_ne_nil isName.ne_nil
  have starts : startsName c := by simpa using isName.starts
  have continues := isName.continues c List.mem_cons_self
  have noBlank := isBlank_of_continuesName continues
  have noMark : c ≠ '(' := by
    rintro rfl
    rw [(plain_of_mark (by decide)).2] at continues
    cases continues
  have rest := reads_letters (fun d member => isName.continues d (List.mem_cons_of_mem c member))
    [c] openings
  refine .cons ?_ (by simpa using rest)
  simp [step, noBlank, noMark, starts]

/-- In front of what ends a name, a scan that has come to the first point passes over the characters
as it does from the second point on. -/
def Passes (progress : Progress) (chars : List Char) (next : Progress) : Prop :=
  ∀ bytes rest, EndsName rest →
    scan bytes progress (chars ++ rest) = scan (bytes + bytesOf chars) next rest

section Passes

variable {progress next last : Progress} {chars rest : List Char}

theorem Reads.passes (reads : Reads progress chars next) : Passes progress chars next :=
  fun bytes rest _ => scan_of_reads reads bytes rest

/-- Steps over characters, and what is passed over behind them. -/
theorem Reads.andThen (reads : Reads progress chars next) (second : Passes next rest last) :
    Passes progress (chars ++ rest) last := by
  intro bytes behind ends
  rw [List.append_assoc, scan_of_reads reads, second _ _ ends, bytesOf_append, Nat.add_assoc]

theorem Passes.trans (first : Passes progress chars next) (second : Passes next rest last)
    (ends : ∀ behind, EndsName behind → EndsName (rest ++ behind)) :
    Passes progress (chars ++ rest) last := by
  intro bytes behind endsBehind
  rw [List.append_assoc, first _ _ (ends behind endsBehind), second _ _ endsBehind, bytesOf_append,
    Nat.add_assoc]

end Passes

/-- Where its name ends, a filter is read. -/
theorem passes_name {letters : List Char} {filter : TraceFilter}
    (known : filterOf? letters.reverse = some filter) (openings : List Opening) :
    Passes ⟨.name letters, openings⟩ [] ⟨.operator filter, openings⟩ := by
  intro bytes rest ends
  have nothing : bytesOf [] = 0 := rfl
  rw [List.nil_append, nothing, Nat.add_zero]
  cases rest with
  | nil => simp only [scan, finish_name known]
  | cons c rest => simp only [scan, step_name known (ends c rfl)]

theorem reads_mark (operator : Connective) (filter : TraceFilter) (openings : List Opening) :
    Reads ⟨.operator filter, openings⟩ [operator.mark]
      ⟨.term, .operand filter operator :: openings⟩ := by
  have noBlank := (plain_of_mark operator.mark_mem).1
  refine .single ?_
  cases operator <;> simp_all [step, stepOperator, Connective.mark]

theorem reads_opening (openings : List Opening) :
    Reads ⟨.term, openings⟩ ['('] ⟨.term, .group :: openings⟩ :=
  .single (by simp [step, (plain_of_mark (c := '(') (by decide)).1])

/-- A parenthesis closes around the operands that wait inside of it. -/
theorem reads_closing {value filter : TraceFilter} {waiting openings : List Opening}
    (completes : complete value waiting = (filter, some openings)) :
    Reads ⟨.operator value, waiting⟩ [')'] ⟨.operator filter, openings⟩ :=
  .single (by simp [step, stepOperator, (plain_of_mark (c := ')') (by decide)).1, completes])

mutual

/-- A scan reads an expression as operands that wait and a value, which complete to the filter of
the expression, whatever is open around it. -/
theorem passes_expr : ∀ {chars : List Char} {filter : TraceFilter}, IsExpr chars filter →
    ∃ value waiting, ∀ openings,
      complete value (waiting ++ openings) = complete filter openings ∧
        Passes ⟨.term, openings⟩ chars ⟨.operator value, waiting ++ openings⟩
  | _, filter, .term isTerm => ⟨filter, [], fun openings => ⟨rfl, passes_term isTerm openings⟩⟩
  | _, _, @IsExpr.combined left right filter other isLeft operator isRight => by
      obtain ⟨value, waiting, reads⟩ := passes_expr isRight
      refine ⟨value, waiting ++ [.operand filter operator], fun openings => ?_⟩
      obtain ⟨completes, passes⟩ := reads (.operand filter operator :: openings)
      rw [List.append_assoc]
      refine ⟨completes, ?_⟩
      have right := (reads_mark operator filter openings).andThen passes
      exact (passes_term isLeft openings).trans right fun _ _ => .mark operator.mark_mem _

theorem passes_term : ∀ {chars : List Char} {filter : TraceFilter}, IsTerm chars filter →
    ∀ openings, Passes ⟨.term, openings⟩ chars ⟨.operator filter, openings⟩
  | _, _, @IsTerm.group before chars after filter blanksBefore isExpr blanksAfter => by
      obtain ⟨value, waiting, reads⟩ := passes_expr isExpr
      intro openings
      obtain ⟨completes, passes⟩ := reads (.group :: openings)
      have opening := (reads_blanks_term blanksBefore openings).trans (reads_opening openings)
      have closing := (reads_closing completes).trans
        (reads_blanks_operator blanksAfter filter openings)
      have closed := passes.trans closing.passes fun _ _ => .mark (by decide) _
      simpa using opening.andThen closed
  | _, _, @IsTerm.name before name after filter blanksBefore isName known blanksAfter => by
      intro openings
      have letters := (reads_blanks_term blanksBefore openings).trans (reads_name isName openings)
      have named := @passes_name name.reverse filter (by rwa [List.reverse_reverse]) openings
      have behind := (reads_blanks_operator blanksAfter filter openings).passes
      have all := letters.andThen (named.trans behind fun _ => .of_blanks blanksAfter)
      rwa [List.nil_append, List.append_assoc] at all

end

/-- A scan ends with the filter that the grammar gives to all of the characters. -/
theorem scan_of_isExpr {chars : List Char} {filter : TraceFilter} (isExpr : IsExpr chars filter) :
    scan 0 ⟨.term, []⟩ chars = .ok filter := by
  obtain ⟨value, waiting, reads⟩ := passes_expr isExpr
  obtain ⟨completes, passes⟩ := reads []
  have scans := passes 0 [] .nil
  rw [List.append_nil] at scans completes
  rw [scans, List.append_nil]
  simp [scan, finish, completes, complete]

theorem Opens.isExpr {front chars : List Char} {openings : List Opening}
    {filter whole : TraceFilter} (opens : Opens front openings) (isTerm : IsTerm chars filter)
    (finished : finish ⟨.operator filter, openings⟩ = .ok whole) :
    IsExpr (front ++ chars) whole := by
  obtain ⟨outside, inside, same, isExpr, opened⟩ := opens.complete (.term isTerm)
  simp only [finish] at finished
  split at finished
  · next completed =>
      cases finished
      rw [completed] at isExpr opened
      rw [same, opened]
      exact isExpr
  · cases finished

/-- What a scan ends with is the filter that the grammar gives to what it has read. -/
theorem Scanned.isExpr {chars : List Char} {progress : Progress} {whole : TraceFilter}
    (scanned : Scanned chars progress) (finished : finish progress = .ok whole) :
    IsExpr chars whole := by
  cases scanned with
  | term => cases finished
  | @name front before letters openings opens blanks isName =>
      cases known : filterOf? letters.reverse with
      | none => simp [finish, finishName_eq, known] at finished
      | some filter =>
          rw [finish_name known] at finished
          have isTerm : IsTerm (before ++ (letters.reverse ++ [])) filter :=
            .name blanks isName known .nil
          rw [List.append_nil] at isTerm
          exact opens.isExpr isTerm finished
  | operator opens isTerm => exact opens.isExpr isTerm finished

end Specification

end TraceFilter

end PegEngine
