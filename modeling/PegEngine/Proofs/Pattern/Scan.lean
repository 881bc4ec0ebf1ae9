import PegEngine.Match

/-!
Contract: scans, which take characters off the front of a text.

A scan is what a pattern comes to that captures nothing and leaves bindings and stacks alone: how
many of the characters ahead it takes, if it matches at all.

Owns:
- `Text.ahead`, the characters that a position has ahead of it;
- `Scan`, with one combinator for each way to put patterns together;
- `Scan.IsChar` and `Scan.DecidedBy`, for scans that go by the first character ahead;
- `Scan.Repeats`, what it is to repeat a scan as often as possible, and `IsChar.repeats` for scans
  that take one character of a class.
-/

namespace PegEngine

namespace Text

/-- The characters from a position on. -/
def ahead (text : Text) (i : Nat) : List Char :=
  text.chars.toList.drop i

theorem length_ahead (text : Text) (i : Nat) : (text.ahead i).length = text.length - i := by
  simp [ahead, length]

theorem drop_ahead (text : Text) (i width : Nat) :
    (text.ahead i).drop width = text.ahead (i + width) :=
  List.drop_drop ..

theorem span_eq_take_ahead (text : Text) (i width : Nat) :
    text.span i (i + width) = (text.ahead i).take width := by
  rw [span_eq_take_drop, List.drop_take, Nat.add_sub_cancel_left]
  rfl

theorem charAt?_eq_head? (text : Text) (i : Nat) : text.charAt? i = (text.ahead i).head? := by
  simp [charAt?, ahead, List.head?_drop]

theorem ahead_of_lt {text : Text} {i : Nat} (below : i < text.length) :
    ∃ c rest, text.ahead i = c :: rest := by
  apply List.exists_cons_of_length_pos
  rw [length_ahead]
  omega

/-- Where characters are ahead, the text goes on. -/
theorem lt_of_ahead {text : Text} {i : Nat} {c : Char} {rest : List Char}
    (ahead : text.ahead i = c :: rest) : i < text.length := by
  have length := length_ahead text i
  rw [ahead, List.length_cons] at length
  omega

theorem ahead_succ {text : Text} {i : Nat} {c : Char} {rest : List Char}
    (ahead : text.ahead i = c :: rest) : text.ahead (i + 1) = rest := by
  rw [← drop_ahead, ahead]
  rfl

theorem slice_one {text : Text} {i : Nat} {c : Char} {rest : List Char}
    (ahead : text.ahead i = c :: rest) : text.slice i (i + 1) = String.ofList [c] := by
  unfold slice
  rw [span_eq_take_ahead, ahead]
  rfl

end Text

/-- A way to take characters off the front of a text: how many, if it takes any. It takes no more
than there are. -/
structure Scan where
  width? : List Char → Option Nat
  width_le : ∀ {ahead width}, width? ahead = some width → width ≤ ahead.length

namespace Scan

instance : CoeFun Scan fun _ => List Char → Option Nat := ⟨width?⟩

/-- The match of a scan at a position of a text. -/
def matchAt (scan : Scan) (text : Text) (i : Nat) : Option Match :=
  (scan (text.ahead i)).map fun width => text.matchOver i (i + width)

/-- The scan ends inside the text. -/
theorem stop_le {scan : Scan} {text : Text} {i width : Nat} (inside : i ≤ text.length)
    (taken : scan (text.ahead i) = some width) : i + width ≤ text.length := by
  have fits := scan.width_le taken
  rw [Text.length_ahead] at fits
  omega

/-- A scan that matches takes something. -/
def Progresses (scan : Scan) : Prop :=
  ∀ ⦃ahead width⦄, scan ahead = some width → 0 < width

/-! ## Primitives -/

def literal (chars : List Char) : Scan where
  width? ahead := if chars.isPrefixOf ahead then some chars.length else none
  width_le := by
    intro ahead width taken
    split at taken
    · next isPrefix =>
        cases taken
        exact (List.isPrefixOf_iff_prefix.mp isPrefix).length_le
    · cases taken

theorem width_literal {chars ahead : List Char} {width : Nat}
    (taken : literal chars ahead = some width) : width = chars.length := by
  unfold literal at taken
  dsimp only at taken
  split at taken <;> cases taken
  rfl

/-- One character of a class. -/
def char (accepts : Char → Bool) : Scan where
  width?
    | [] => none
    | c :: _ => if accepts c then some 1 else none
  width_le := by
    intro ahead width taken
    split at taken
    · cases taken
    · split at taken <;> cases taken
      simp

/-- Any `count` characters. -/
def chars (count : Nat) : Scan where
  width? ahead := if count ≤ ahead.length then some count else none
  width_le := by
    intro ahead width taken
    split at taken <;> cases taken
    assumption

/-- Nothing at all. -/
def nothing : Scan where
  width? _ := some 0
  width_le taken := by cases taken; exact Nat.zero_le _

/-- Always fails. -/
def failure : Scan where
  width? _ := none
  width_le := nofun

/-! ## Combinators -/

def andThen (first second : Scan) : Scan where
  width? ahead :=
    (first ahead).bind fun width => (second (ahead.drop width)).map fun more => width + more
  width_le := by
    intro ahead total taken
    obtain ⟨width, takenFirst, rest⟩ := Option.bind_eq_some_iff.mp taken
    obtain ⟨more, takenSecond, same⟩ := Option.map_eq_some_iff.mp rest
    have fits := first.width_le takenFirst
    have further := second.width_le takenSecond
    rw [List.length_drop] at further
    omega

def orElse (first second : Scan) : Scan where
  width? ahead := (first ahead).or (second ahead)
  width_le := by
    intro ahead width taken
    rcases Option.or_eq_some_iff.mp taken with takenFirst | ⟨_, takenSecond⟩
    · exact first.width_le takenFirst
    · exact second.width_le takenSecond

/-- One scan after the other. -/
def sequence : List Scan → Scan
  | [] => nothing
  | first :: rest => first.andThen (sequence rest)

/-- The first scan that matches. -/
def choice : List Scan → Scan
  | [] => failure
  | first :: rest => first.orElse (choice rest)

/-- Takes nothing, where the other scan does not match. -/
def absent (scan : Scan) : Scan where
  width? ahead := if (scan ahead).isNone then some 0 else none
  width_le := by
    intro ahead width taken
    split at taken <;> cases taken
    exact Nat.zero_le _

def optional (scan : Scan) : Scan where
  width? ahead := some ((scan ahead).getD 0)
  width_le := by
    intro ahead width taken
    cases taken
    cases found : scan ahead with
    | none => exact Nat.zero_le _
    | some width => exact scan.width_le found

/-- All characters of a class that stand in front, and at least `minimum` of them. -/
def run (accepts : Char → Bool) (minimum : Nat) : Scan where
  width? ahead :=
    let count := (ahead.takeWhile accepts).length
    if minimum ≤ count then some count else none
  width_le := by
    intro ahead width taken
    dsimp only at taken
    split at taken <;> cases taken
    exact (List.takeWhile_prefix accepts).length_le

/-! ## The first character -/

/-- The scan takes one character, of the class. -/
def IsChar (scan : Scan) (accepts : Char → Bool) : Prop :=
  ∀ ahead, scan ahead = char accepts ahead

/-- The first character ahead decides whether the scan matches. -/
def DecidedBy (scan : Scan) (accepts : Char → Bool) : Prop :=
  ∀ ahead, (scan ahead).isSome = ahead.head?.any accepts

section Classes

variable {first scan : Scan} {rest : List Scan} {accepts others : Char → Bool}

theorem isChar_literal (c : Char) : (literal [c]).IsChar (· == c) := by
  intro ahead
  cases ahead with
  | nil => rfl
  | cons d rest =>
      by_cases same : d = c
      · subst same
        simp [literal, char]
      · simp [literal, char, same, Ne.symm same]

theorem isChar_choice_nil : (choice []).IsChar fun _ => false := by
  intro ahead
  cases ahead <;> rfl

theorem IsChar.choice (isFirst : first.IsChar accepts) (isRest : (choice rest).IsChar others) :
    (Scan.choice (first :: rest)).IsChar fun c => accepts c || others c := by
  intro ahead
  change (first ahead).or (Scan.choice rest ahead) = _
  rw [isFirst, isRest]
  cases ahead with
  | nil => rfl
  | cons c rest =>
      dsimp only [char]
      by_cases accepted : accepts c <;> simp [accepted]

theorem IsChar.decidedBy (isChar : scan.IsChar accepts) : scan.DecidedBy accepts := by
  intro ahead
  rw [isChar]
  cases ahead with
  | nil => rfl
  | cons c rest =>
      dsimp only [char]
      by_cases accepted : accepts c <;> simp [accepted]

theorem DecidedBy.choice (byFirst : first.DecidedBy accepts)
    (byRest : (Scan.choice rest).DecidedBy others) :
    (Scan.choice (first :: rest)).DecidedBy fun c => accepts c || others c := by
  intro ahead
  change ((first ahead).or (Scan.choice rest ahead)).isSome = _
  rw [Option.isSome_or, byFirst, byRest]
  cases ahead <;> rfl

/-- A case that another one covers is of no account. -/
theorem DecidedBy.choice_of_covered (byRest : (Scan.choice rest).DecidedBy others)
    (covered : ∀ ahead, (first ahead).isSome → (Scan.choice rest ahead).isSome) :
    (Scan.choice (first :: rest)).DecidedBy others := by
  intro ahead
  change ((first ahead).or (Scan.choice rest ahead)).isSome = _
  rw [Option.isSome_or, ← byRest]
  cases found : (first ahead).isSome with
  | false => rfl
  | true => rw [covered ahead found, Bool.true_or]

/-- A sequence whose rest always matches. -/
theorem isSome_sequence (total : ∀ ahead, (Scan.sequence rest ahead).isSome) (ahead : List Char) :
    (Scan.sequence (first :: rest) ahead).isSome = (first ahead).isSome := by
  change ((first ahead).bind _).isSome = _
  cases first ahead with
  | none => rfl
  | some width =>
      rw [Option.bind_some, Option.isSome_map]
      exact total _

theorem DecidedBy.sequence (byFirst : first.DecidedBy accepts)
    (total : ∀ ahead, (Scan.sequence rest ahead).isSome) :
    (Scan.sequence (first :: rest)).DecidedBy accepts :=
  fun ahead => (isSome_sequence total ahead).trans (byFirst ahead)

theorem decidedBy_run : (run accepts 1).DecidedBy accepts := by
  intro ahead
  unfold run
  cases ahead with
  | nil => rfl
  | cons c rest =>
      by_cases accepted : accepts c
      · simp [List.takeWhile_cons_of_pos accepted, accepted]
      · simp [List.takeWhile_cons_of_neg accepted, accepted]

theorem DecidedBy.isSome_cons (decided : scan.DecidedBy accepts) (c : Char) (ahead : List Char) :
    (scan (c :: ahead)).isSome = accepts c :=
  decided (c :: ahead)

/-- Any one character outside of a class. -/
theorem DecidedBy.isChar_except (decided : scan.DecidedBy accepts) :
    (Scan.sequence [scan.absent, chars 1]).IsChar (!accepts ·) := by
  intro ahead
  have excluded := decided ahead
  unfold Scan.sequence Scan.sequence Scan.sequence andThen absent chars nothing
  dsimp only
  cases ahead with
  | nil =>
      cases found : scan [] with
      | none => rfl
      | some width => rfl
  | cons c rest =>
      rw [List.head?_cons, Option.any_some] at excluded
      dsimp only [char]
      cases found : scan (c :: rest) with
      | none =>
          rw [found] at excluded
          simp [← excluded]
      | some width =>
          rw [found] at excluded
          simp [← excluded]

end Classes

/-! ## Progress -/

section Progress

variable {scan : Scan} {scans : List Scan} {accepts : Char → Bool}

theorem progresses_literal {chars : List Char} (some : 0 < chars.length) :
    (literal chars).Progresses := by
  intro ahead width taken
  rw [width_literal taken]
  exact some

theorem progresses_char : (char accepts).Progresses := by
  intro ahead width taken
  cases ahead with
  | nil => cases taken
  | cons c rest =>
      dsimp only [char] at taken
      split at taken <;> cases taken
      exact Nat.zero_lt_one

theorem progresses_run : (run accepts 1).Progresses := by
  intro ahead width taken
  dsimp only [run] at taken
  split at taken <;> cases taken
  assumption

theorem Progresses.choice (each : ∀ scan ∈ scans, scan.Progresses) :
    (Scan.choice scans).Progresses := by
  intro ahead width taken
  induction scans with
  | nil => cases taken
  | cons first rest inductionHypothesis =>
      rcases Option.or_eq_some_iff.mp taken with takenFirst | ⟨_, takenRest⟩
      · exact each first List.mem_cons_self takenFirst
      · exact inductionHypothesis (fun scan member => each scan (List.mem_cons_of_mem first member))
          takenRest

/-- A sequence takes as much as its first item, and more. -/
theorem Progresses.sequence (progresses : scan.Progresses) :
    (Scan.sequence (scan :: scans)).Progresses := by
  intro ahead total taken
  obtain ⟨width, takenFirst, rest⟩ := Option.bind_eq_some_iff.mp taken
  obtain ⟨more, _, rfl⟩ := Option.map_eq_some_iff.mp rest
  exact Nat.add_pos_left (progresses takenFirst) more

end Progress

/-! ## What is taken -/

/-- The characters that a run takes are of its class. -/
theorem accepts_of_run {accepts : Char → Bool} {minimum width : Nat} {ahead : List Char}
    (taken : run accepts minimum ahead = some width) : ∀ c ∈ ahead.take width, accepts c := by
  dsimp only [run] at taken
  split at taken <;> cases taken
  rw [← List.prefix_iff_eq_take.mp (List.takeWhile_prefix accepts)]
  exact List.all_eq_true.mp List.all_takeWhile

/-- What a literal takes is the literal. -/
theorem take_of_literal {chars ahead : List Char} {width : Nat}
    (taken : literal chars ahead = some width) : ahead.take width = chars := by
  dsimp only [literal] at taken
  split at taken
  · next isPrefix =>
      cases taken
      exact (List.prefix_iff_eq_take.mp (List.isPrefixOf_iff_prefix.mp isPrefix)).symm
  · cases taken

/-! ## Repetition -/

/-- The scan matches `count` times in a row, and then no more. It takes `width` characters. -/
inductive Repeats (step : Scan) : List Char → (count width : Nat) → Prop where
  | done {ahead : List Char} (fails : step ahead = none) : Repeats step ahead 0 0
  | more {ahead : List Char} {first count width : Nat} (taken : step ahead = some first)
      (progress : 0 < first) (rest : Repeats step (ahead.drop first) count width) :
      Repeats step ahead (count + 1) (first + width)

theorem Repeats.width_le {step : Scan} {ahead : List Char} {count width : Nat}
    (repeats : step.Repeats ahead count width) : width ≤ ahead.length := by
  induction repeats with
  | done => exact Nat.zero_le _
  | more taken _ _ inductionHypothesis =>
      have fits := step.width_le taken
      rw [List.length_drop] at inductionHypothesis
      omega

/-- A scan that takes one character of a class is repeated over all that stand in front. -/
theorem IsChar.repeats {step : Scan} {accepts : Char → Bool} (isChar : step.IsChar accepts)
    (ahead : List Char) :
    step.Repeats ahead (ahead.takeWhile accepts).length (ahead.takeWhile accepts).length := by
  induction ahead with
  | nil => exact .done (isChar [])
  | cons c rest inductionHypothesis =>
      have first : step (c :: rest) = if accepts c then some 1 else none := isChar (c :: rest)
      cases accepted : accepts c with
      | false =>
          rw [accepted] at first
          rw [List.takeWhile_cons_of_neg (by simp [accepted])]
          exact .done first
      | true =>
          rw [accepted] at first
          rw [List.takeWhile_cons_of_pos accepted, List.length_cons]
          have more := Repeats.more first Nat.zero_lt_one inductionHypothesis
          rwa [Nat.add_comm 1] at more

end Scan

end PegEngine
