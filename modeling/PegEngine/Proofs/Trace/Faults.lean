import PegEngine.Proofs.Trace.Grammar

/-!
Contract: which specifications of filters are accepted, and which place a fault is reported at.

A scan stops at the first character that no specification can have there, or at the end of a text
that is no specification yet. It stops at a name that stands for no filter when it has read all of
the name, and then it has met no such name before.

Owns:
- `Viable`, that a specification may begin with certain characters;
- `NameAt`, where the names of a text are;
- `EarliestFault` and `LeftmostUnknown`, what the two errors tell of a text;
- `parse_eq_ok_iff` and `parse_faithful`, for all texts.
-/

namespace PegEngine

namespace TraceFilter

namespace Specification

/-- Some specification begins with the characters. -/
def Viable (chars : List Char) : Prop :=
  ∃ rest filter, IsExpr (chars ++ rest) filter

/-- What follows is not a part of the same name. -/
def EndsApart (before : List Char) : Prop :=
  ∀ c ∈ before.getLast?, continuesName c = false

/-- A name between the characters before it and those after it, as long as it can be. -/
structure NameAt (chars before name after : List Char) : Prop where
  split : chars = before ++ (name ++ after)
  isName : IsName name
  starts : EndsApart before
  ends : EndsName after

/-- The byte is that of the first character that does not belong there, or the end of a text that
breaks off. -/
inductive EarliestFault (spec : String) (byte : Nat) : Prop
  | char {before rest : List Char} {c : Char} (split : spec.toList = before ++ c :: rest)
      (place : byte = (String.ofList before).utf8ByteSize) (viable : Viable before)
      (misplaced : ¬ Viable (before ++ [c]))
  | ending (place : byte = spec.utf8ByteSize) (viable : Viable spec.toList)
      (incomplete : ∀ filter, ¬ IsExpr spec.toList filter)

/-- No filter has the name, and it is the first such name. What stands before it is no fault. -/
structure LeftmostUnknown (spec : String) (name : String) : Prop where
  exists_place : ∃ before after, NameAt spec.toList before name.toList after ∧ Viable before ∧
    ∀ earlier other behind, NameAt spec.toList earlier other behind →
      earlier.length < before.length → filterOf? other ≠ none
  unknown : filterOf? name.toList = none

/-! ## Where a scan stops -/

/-- The next character, or the end, is a fault. -/
def Stops (progress : Progress) (fault : Fault) : List Char → Prop
  | [] => finish progress = .error fault
  | c :: _ => step c progress = .error fault

theorem reads_of_scan_ok {bytes : Nat} {progress : Progress} {chars : List Char}
    {filter : TraceFilter} (scans : scan bytes progress chars = .ok filter) :
    ∃ last, Reads progress chars last ∧ finish last = .ok filter := by
  induction chars generalizing bytes progress with
  | nil =>
      unfold scan at scans
      split at scans
      · next finished =>
          cases scans
          exact ⟨progress, .refl progress, finished⟩
      · cases scans
  | cons c rest inductionHypothesis =>
      unfold scan at scans
      split at scans
      · next stepped =>
          obtain ⟨last, reads, finished⟩ := inductionHypothesis scans
          exact ⟨last, .cons stepped reads, finished⟩
      · cases scans

theorem stops_of_scan_error {bytes place : Nat} {progress : Progress} {chars : List Char}
    {fault : Fault} (scans : scan bytes progress chars = .error (fault, place)) :
    ∃ before after last, chars = before ++ after ∧ place = bytes + bytesOf before ∧
      Reads progress before last ∧ Stops last fault after := by
  induction chars generalizing bytes progress with
  | nil =>
      unfold scan at scans
      split at scans
      · cases scans
      · next stopped =>
          cases scans
          exact ⟨[], [], progress, rfl, rfl, .refl progress, stopped⟩
  | cons c rest inductionHypothesis =>
      unfold scan at scans
      split at scans
      · next stepped =>
          obtain ⟨before, after, last, same, atPlace, reads, stops⟩ := inductionHypothesis scans
          refine ⟨c :: before, after, last, by rw [same]; rfl, ?_, .cons stepped reads, stops⟩
          rw [bytesOf_cons, ← Nat.add_assoc, atPlace]
      · next stopped =>
          cases scans
          exact ⟨[], c :: rest, progress, rfl, rfl, .refl progress, stopped⟩

/-- Past a fault there is no specification. -/
theorem not_isExpr_of_stops {before after : List Char} {last : Progress} {fault : Fault}
    (reads : Reads ⟨.term, []⟩ before last) (stops : Stops last fault after)
    (filter : TraceFilter) : ¬ IsExpr (before ++ after) filter := by
  intro isExpr
  have scans := scan_of_isExpr isExpr
  rw [scan_of_reads reads] at scans
  cases after with
  | nil =>
      simp only [Stops] at stops
      simp [scan, stops] at scans
  | cons c rest =>
      simp only [Stops] at stops
      simp [scan, stops] at scans

/-! ## What a specification may go on with -/

/-- Whatever is open, the name of a filter can follow. -/
theorem Opens.viable {front before : List Char} {openings : List Opening}
    (opens : Opens front openings) (blanks : Blanks before) : Viable (front ++ before) := by
  have isName : IsName "hide".toList :=
    { starts := by decide +kernel, continues := List.all_eq_true.mp (by decide +kernel) }
  have known : filterOf? "hide".toList = some .hide := rfl
  have isTerm := IsTerm.name blanks isName known .nil
  obtain ⟨rest, whole, isExpr⟩ := opens.completes (.term isTerm)
  refine ⟨"hide".toList ++ rest, whole, ?_⟩
  simpa only [List.append_assoc, List.append_nil] using isExpr

/-- What a scan has read can be completed, unless it has read a part of a name. -/
theorem Scanned.viable {chars : List Char} {progress : Progress}
    (scanned : Scanned chars progress)
    (known : ∀ letters, progress.expectation = .name letters →
      ∃ filter, filterOf? letters.reverse = some filter) : Viable chars := by
  cases scanned with
  | term opens blanks => exact opens.viable blanks
  | @name front before letters openings opens blanks isName =>
      obtain ⟨filter, known⟩ := known letters rfl
      have isTerm := IsTerm.name blanks isName known .nil
      obtain ⟨rest, whole, isExpr⟩ := opens.completes (.term isTerm)
      refine ⟨rest, whole, ?_⟩
      simpa only [List.append_assoc, List.nil_append] using isExpr
  | operator opens isTerm =>
      obtain ⟨rest, whole, isExpr⟩ := opens.completes (.term isTerm)
      exact ⟨rest, whole, by rwa [List.append_assoc]⟩

/-- A scan that stops at a misplaced character has read all of a name that it has read a part of,
and a filter has the name. -/
theorem known_of_unexpected {letters after : List Char} {openings : List Opening}
    (stops : Stops ⟨.name letters, openings⟩ .unexpected after) :
    ∃ filter, filterOf? letters.reverse = some filter := by
  cases known : filterOf? letters.reverse with
  | some filter => exact ⟨filter, rfl⟩
  | none =>
      cases after with
      | nil => simp [Stops, finish, finishName_eq, known] at stops
      | cons c rest =>
          simp only [Stops, step, finishName_eq, known] at stops
          split at stops <;> cases stops

theorem earliestFault_of_stops {spec : String} {before after : List Char} {last : Progress}
    (split : spec.toList = before ++ after) (reads : Reads ⟨.term, []⟩ before last)
    (stops : Stops last .unexpected after) : EarliestFault spec (bytesOf before) := by
  have scanned : Scanned before last := reads.scanned .start
  have viable : Viable before := by
    refine scanned.viable fun letters isName => ?_
    obtain ⟨expectation, openings⟩ := last
    cases isName
    exact known_of_unexpected stops
  cases after with
  | nil =>
      rw [List.append_nil] at split
      refine .ending ?_ (split ▸ viable) ?_
      · rw [bytesOf, ← split, String.ofList_toList]
      · intro filter
        rw [split, ← before.append_nil]
        exact not_isExpr_of_stops reads stops filter
  | cons c rest =>
      refine .char split rfl viable ?_
      rintro ⟨behind, filter, isExpr⟩
      have stopsThere : Stops last .unexpected (c :: behind) := stops
      rw [List.append_assoc, List.singleton_append] at isExpr
      exact not_isExpr_of_stops reads stopsThere filter isExpr

/-! ## Unknown names -/

theorem stepOperator_error {c : Char} {filter : TraceFilter} {openings : List Opening}
    {fault : Fault} (stopped : stepOperator c filter openings = .error fault) :
    fault = .unexpected := by
  unfold stepOperator at stopped
  grind

theorem finish_error {filter : TraceFilter} {openings : List Opening} {fault : Fault}
    (stopped : finish ⟨.operator filter, openings⟩ = .error fault) : fault = .unexpected := by
  simp only [finish] at stopped
  split at stopped
  · cases stopped
  · exact (Except.error.inj stopped).symm

/-- Behind a filter there is no name. -/
theorem stepOperator_of_continuesName {c : Char} (continues : continuesName c)
    (filter : TraceFilter) (openings : List Opening) :
    stepOperator c filter openings = .error .unexpected := by
  have noMark : c ∉ ['(', ')', '&', '|'] := by
    intro isMark
    rw [(plain_of_mark isMark).2] at continues
    cases continues
  simp only [List.mem_cons, List.not_mem_nil, or_false, not_or] at noMark
  simp [stepOperator, isBlank_of_continuesName continues, noMark]

/-- A scan stops at an unknown name when it has read all of it. -/
theorem unknown_of_stops {last : Progress} {name : String} {after : List Char}
    (stops : Stops last (.unknownName name) after) :
    ∃ letters openings, last = ⟨.name letters, openings⟩ ∧ filterOf? letters.reverse = none ∧
      name = String.ofList letters.reverse ∧ EndsName after := by
  obtain ⟨expectation, openings⟩ := last
  cases expectation with
  | term =>
      cases after with
      | nil => cases stops
      | cons c rest =>
          simp only [Stops, step] at stops
          grind
  | name letters =>
      cases known : filterOf? letters.reverse with
      | none =>
          cases after with
          | nil =>
              simp only [Stops, finish, finishName_eq, known] at stops
              cases stops
              exact ⟨letters, openings, rfl, known, rfl, .nil⟩
          | cons c rest =>
              simp only [Stops, step, finishName_eq, known] at stops
              split at stops
              · cases stops
              · next ends =>
                  cases stops
                  exact ⟨letters, openings, rfl, known, rfl, .cons (by simpa using ends) rest⟩
      | some filter =>
          cases after with
          | nil => cases finish_error ((finish_name known).symm.trans stops)
          | cons c rest =>
              cases continues : continuesName c with
              | true => simp [Stops, step, continues] at stops
              | false => cases stepOperator_error ((step_name known continues).symm.trans stops)
  | operator filter =>
      cases after with
      | nil => cases finish_error stops
      | cons c rest => cases stepOperator_error stops

theorem not_endsApart {before letters : List Char} (some : letters ≠ [])
    (continues : ∀ c ∈ letters, continuesName c) : ¬ EndsApart (before ++ letters) := by
  intro endsApart
  have isLast : (before ++ letters).getLast? = letters.getLast some := by
    rw [List.getLast?_append, List.getLast?_eq_some_getLast some]
    rfl
  have ends := endsApart _ isLast
  rw [continues _ (List.getLast_mem some)] at ends
  cases ends

/-- No name goes on over the place where something is open. -/
theorem Opens.endsApart {front before : List Char} {openings : List Opening}
    (opens : Opens front openings) (blanks : Blanks before) : EndsApart (front ++ before) := by
  intro c isLast
  rw [List.getLast?_append, Option.mem_def, Option.or_eq_some_iff] at isLast
  rcases isLast with inBlanks | ⟨_, inFront⟩
  · have blank := blanks c (List.mem_of_getLast? inBlanks)
    rw [Bool.eq_false_iff]
    intro continues
    rw [isBlank_of_continuesName continues] at blank
    cases blank
  · cases opens with
    | nothing => cases inFront
    | group opens _ =>
        rw [← List.append_assoc, List.getLast?_concat] at inFront
        cases inFront
        exact (plain_of_mark (by decide)).2
    | operand opens _ operator =>
        rw [← List.append_assoc, List.getLast?_concat] at inFront
        cases inFront
        exact (plain_of_mark operator.mark_mem).2

/-- A scan that goes on behind a name knows the name. -/
theorem known_of_reads {before name rest : List Char} {c : Char} {last : Progress}
    (reads : Reads ⟨.term, []⟩ (before ++ (name ++ c :: rest)) last) (isName : IsName name)
    (starts : EndsApart before) (ends : continuesName c = false) : filterOf? name ≠ none := by
  obtain ⟨between, readsBefore, readsAfter⟩ := reads.of_append
  obtain ⟨behind, readsName, readsRest⟩ := readsAfter.of_append
  have scanned : Scanned before between := readsBefore.scanned .start
  cases scanned with
  | @term _ _ openings _ _ =>
      cases (reads_name isName openings).unique readsName
      intro unknown
      cases readsRest with
      | cons stepped _ =>
          simp [step, ends, finishName_eq, unknown] at stepped
  | @name front blanks letters openings _ _ isPart =>
      rw [← List.append_assoc] at starts
      exact (not_endsApart isPart.ne_nil isPart.continues starts).elim
  | @operator _ _ openings filter _ _ =>
      obtain ⟨first, letters, rfl⟩ := List.exists_cons_of_ne_nil isName.ne_nil
      have stopped := stepOperator_of_continuesName (isName.continues first List.mem_cons_self)
        filter openings
      cases readsName with
      | cons stepped _ => cases stopped.symm.trans stepped

/-- A name that begins before another one ends before it, with a character in between. -/
theorem NameAt.split_before {chars earlier other behind before name after : List Char}
    (first : NameAt chars earlier other behind) (second : NameAt chars before name after)
    (sooner : earlier.length < before.length) :
    ∃ c between, before = earlier ++ (other ++ c :: between) ∧ continuesName c = false := by
  have same := first.split.symm.trans second.split
  rcases List.append_eq_append_iff.mp same with ⟨front, rfl, rest⟩ | ⟨front, rfl, _⟩
  · have someFront : front ≠ [] := by
      rintro rfl
      simp at sooner
    rcases List.append_eq_append_iff.mp rest with ⟨between, rfl, behindIs⟩ | ⟨more, rfl, _⟩
    · cases between with
      | nil =>
          rw [List.append_nil] at second
          exact (not_endsApart first.isName.ne_nil first.isName.continues second.starts).elim
      | cons c between =>
          exact ⟨c, between, rfl, first.ends c (by rw [behindIs]; rfl)⟩
    · refine (not_endsApart someFront (fun c member => ?_) second.starts).elim
      exact first.isName.continues c (List.mem_append_left more member)
  · simp only [List.length_append] at sooner
    omega

theorem leftmostUnknown_of_stops {spec name : String} {before after : List Char} {last : Progress}
    (split : spec.toList = before ++ after) (reads : Reads ⟨.term, []⟩ before last)
    (stops : Stops last (.unknownName name) after) : LeftmostUnknown spec name := by
  obtain ⟨letters, openings, rfl, unknown, rfl, ends⟩ := unknown_of_stops stops
  have scanned : Scanned before ⟨.name letters, openings⟩ := reads.scanned .start
  cases scanned with
  | @name front blanks _ _ opens areBlanks isName =>
      have starts := opens.endsApart areBlanks
      have place : NameAt spec.toList (front ++ blanks) letters.reverse after :=
        { split := by rw [split]; simp only [List.append_assoc], isName, starts, ends }
      refine ⟨⟨front ++ blanks, after, ?_, opens.viable areBlanks, ?_⟩, ?_⟩
      · rwa [String.toList_ofList]
      · intro earlier other behind otherPlace sooner
        obtain ⟨c, between, same, noLetter⟩ := otherPlace.split_before place sooner
        rw [← List.append_assoc, same] at reads
        rw [List.append_assoc, List.append_assoc] at reads
        exact known_of_reads reads otherPlace.isName otherPlace.starts noLetter
      · rwa [String.toList_ofList]

/-- A specification is read as the filter that the grammar gives to it. -/
theorem parse_eq_ok_iff {spec : String} {filter : TraceFilter} :
    parse spec = .ok filter ↔ IsExpr spec.toList filter := by
  constructor
  case mp =>
    intro parsed
    unfold parse at parsed
    split at parsed <;> cases parsed
    next scans =>
      obtain ⟨last, reads, finished⟩ := reads_of_scan_ok scans
      have scanned : Scanned spec.toList last := reads.scanned .start
      exact scanned.isExpr finished
  case mpr =>
    intro isExpr
    unfold parse
    rw [scan_of_isExpr isExpr]

/-- A specification is read as the filter that the grammar gives to it, and as none if the grammar
gives none. An error tells of the first place where no specification goes on like this, or of the
first name that no filter has. -/
theorem parse_faithful (spec : String) :
    (∀ filter, parse spec = .ok filter ↔ IsExpr spec.toList filter) ∧
    (∀ error, parse spec = .error error →
      (∃ byte, error = .invalidFilter spec byte ∧ EarliestFault spec byte) ∨
      ∃ name, error = .unknownFilter name ∧ LeftmostUnknown spec name) := by
  refine ⟨fun filter => parse_eq_ok_iff, fun error refused => ?_⟩
  unfold parse at refused
  split at refused <;> cases refused
  · next byte scans =>
      obtain ⟨before, after, last, split, rfl, reads, stops⟩ := stops_of_scan_error scans
      rw [Nat.zero_add]
      exact Or.inl ⟨_, rfl, earliestFault_of_stops split reads stops⟩
  · next name byte scans =>
      obtain ⟨before, after, last, split, _, reads, stops⟩ := stops_of_scan_error scans
      exact Or.inr ⟨name, rfl, leftmostUnknown_of_stops split reads stops⟩

set_option maxRecDepth 20000 in
/-- One specification that is read, one with a misplaced parenthesis behind a blank of two bytes,
and one with two unknown names. -/
theorem parse_faithful_examples :
    IsExpr "on&(named| hide)".toList (.both .show (.either .named .hide)) ∧
    EarliestFault "\u00a0(show | )" 10 ∧ LeftmostUnknown "named & loud | quiet" "loud" := by
  refine ⟨?_, ?_, ?_⟩
  · exact ((parse_faithful _).1 _).mp rfl
  · obtain ⟨byte, same, fault⟩ | ⟨name, same, _⟩ := (parse_faithful "\u00a0(show | )").2 _ rfl
    · cases same
      exact fault
    · cases same
  · obtain ⟨byte, same, _⟩ | ⟨name, same, leftmost⟩ :=
      (parse_faithful "named & loud | quiet").2 _ rfl
    · cases same
    · cases same
      exact leftmost

end Specification

end TraceFilter

end PegEngine
