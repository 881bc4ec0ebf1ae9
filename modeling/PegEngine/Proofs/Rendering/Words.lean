import Mathlib.Data.List.Basic
import PegEngine.Pattern.Rendering

/-!
Contract: the words of written patterns, and where each of them ends.

Literals, sets of characters, marks of counts and the single characters between them are words. No
word begins another one, so that a text falls into words in at most one way. Inside a literal or a
set the same holds for the written forms of characters and of the parts of a set.

Owns:
- `ReadableBefore`, that a written form and what follows it can be told from the text, with its rule
  for lists;
- `Escape`, the forms that a character has between marks;
- `CharSet.same_of_display`, by which the written form of a set tells its parts;
- `Word` and `Word.encode_prefixFree`.
-/

namespace PegEngine

/-! ## Written forms that can be told from what follows -/

section Readable

variable {α : Type} {write : α → List Char} {follows ends : List Char → Prop}

/-- A text that begins with a written form begins with no other, and the rest is determined, when
what follows the form is as `follows` says. -/
def ReadableBefore (follows : List Char → Prop) (write : α → List Char) : Prop :=
  ∀ ⦃first second : α⦄ ⦃rest left : List Char⦄, follows rest → follows left →
    write first ++ rest = write second ++ left → first = second ∧ rest = left

/-- No written form begins another one. -/
def PrefixFree (write : α → List Char) : Prop :=
  ReadableBefore (fun _ => True) write

/-- Forms one after another can be told apart when each of them may follow each, and none of them can
be taken for what comes behind the last. -/
theorem ReadableBefore.list (one : ReadableBefore follows write)
    (onward : ∀ value rest, follows (write value ++ rest) ∧ ¬ ends (write value ++ rest))
    (stops : ∀ rest, ends rest → follows rest) : ReadableBefore ends (List.flatMap write) := by
  have further {values : List α} {rest : List Char} (ended : ends rest) :
      follows (values.flatMap write ++ rest) := by
    cases values with
    | nil => exact stops rest ended
    | cons value values =>
        rw [List.flatMap_cons, List.append_assoc]
        exact (onward value _).1
  intro first second rest left ended alsoEnded same
  induction first generalizing second with
  | nil =>
      cases second with
      | nil => exact ⟨rfl, same⟩
      | cons value values =>
          rw [List.flatMap_nil, List.nil_append, List.flatMap_cons, List.append_assoc] at same
          exact absurd (same ▸ ended) (onward value _).2
  | cons value values inductionHypothesis =>
      cases second with
      | nil =>
          rw [List.flatMap_nil, List.nil_append, List.flatMap_cons, List.append_assoc] at same
          exact absurd (same ▸ alsoEnded) (onward value _).2
      | cons other others =>
          simp only [List.flatMap_cons, List.append_assoc] at same
          obtain ⟨rfl, sameRest⟩ := one (further ended) (further alsoEnded) same
          obtain ⟨rfl, rfl⟩ := inductionHypothesis sameRest
          exact ⟨rfl, rfl⟩

theorem PrefixFree.injective (free : PrefixFree write) : Function.Injective write :=
  fun _ _ same => (free trivial trivial (congrArg (· ++ []) same)).1

/-- A list of non-empty forms of which none begins another is told by the whole text. -/
theorem PrefixFree.flatMap_injective (free : PrefixFree write) (nonempty : ∀ value, write value ≠ []) :
    Function.Injective (List.flatMap write) := by
  have readable : ReadableBefore (· = []) (List.flatMap write) :=
    free.list (fun value rest => ⟨trivial, by simp [nonempty value]⟩) fun _ _ => trivial
  intro first second same
  exact (readable rfl rfl (congrArg (· ++ []) same)).1

end Readable

/-! ## Numbers -/

theorem exists_digit_of_mem_toDigits {base n : Nat} (big : 1 < base) {c : Char}
    (member : c ∈ Nat.toDigits base n) : ∃ digit < base, c = digit.digitChar := by
  induction n using Nat.strongRecOn with
  | ind n inductionHypothesis =>
      rw [Nat.toDigits_eq_if big] at member
      split at member
      next small => exact ⟨n, small, List.mem_singleton.mp member⟩
      next large =>
        rcases List.mem_append.mp member with front | last
        · have smaller : n / base < n :=
            Nat.div_lt_self (Nat.lt_of_lt_of_le (Nat.zero_lt_of_lt big) (Nat.le_of_not_lt large)) big
          exact inductionHypothesis _ smaller front
        · exact ⟨n % base, Nat.mod_lt _ (Nat.zero_lt_of_lt big), List.mem_singleton.mp last⟩

theorem toDigits_hexadecimal_injective : Function.Injective (Nat.toDigits 16) := by
  have digit : ∀ first < 16, ∀ second < 16,
      first.digitChar = second.digitChar → first = second := by decide
  intro first
  induction first using Nat.strongRecOn with
  | ind first inductionHypothesis =>
      intro second same
      rw [Nat.toDigits_eq_if (by decide), Nat.toDigits_eq_if (n := second) (by decide)] at same
      by_cases small : first < 16 <;> by_cases alsoSmall : second < 16 <;>
        simp only [small, alsoSmall, if_true, if_false] at same
      · exact digit _ small _ alsoSmall (List.singleton_inj.mp same)
      · exact absurd (List.append_eq_singleton_iff.mp same.symm) (by simp [Nat.toDigits_ne_nil])
      · exact absurd (List.append_eq_singleton_iff.mp same) (by simp [Nat.toDigits_ne_nil])
      · obtain ⟨quotients, digits⟩ := List.append_inj' same rfl
        have quotient : first / 16 = second / 16 :=
          inductionHypothesis _ (by omega) quotients
        have remainder : first % 16 = second % 16 :=
          digit _ (Nat.mod_lt _ (by decide)) _ (Nat.mod_lt _ (by decide)) (List.singleton_inj.mp digits)
        omega

/-! ## Runs of characters -/

/-- A run of characters of one sort ends where the next character is not of that sort. -/
theorem run_unique {p : Char → Bool} {first second rest left : List Char} (all : ∀ c ∈ first, p c)
    (alsoAll : ∀ c ∈ second, p c) (stops : ∀ c ∈ rest.head?, p c = false)
    (alsoStops : ∀ c ∈ left.head?, p c = false) (same : first ++ rest = second ++ left) :
    first = second ∧ rest = left := by
  have nothing {chars : List Char} (stops : ∀ c ∈ chars.head?, p c = false) :
      chars.takeWhile p = [] := by
    cases chars with
    | nil => rfl
    | cons c chars => simp [stops c rfl]
  have runs := congrArg (List.takeWhile p) same
  rw [List.takeWhile_append_of_pos all, List.takeWhile_append_of_pos alsoAll, nothing stops,
    nothing alsoStops, List.append_nil, List.append_nil] at runs
  subst runs
  exact ⟨rfl, List.append_cancel_left same⟩

/-! ## Characters -/

theorem Quoted.codePoint_prefixFree : PrefixFree codePoint := by
  have digits (c : Char) : ∀ digit ∈ Nat.toDigits 16 c.toNat, (digit != '\x7d') = true := by
    intro digit member
    obtain ⟨value, small, rfl⟩ := exists_digit_of_mem_toDigits (by decide) member
    exact (by decide : ∀ value < 16, (value.digitChar != '\x7d') = true) value small
  intro first second rest left _ _ same
  simp only [codePoint, List.cons_append, List.nil_append, List.append_assoc, List.cons.injEq,
    true_and] at same
  obtain ⟨sameDigits, sameRest⟩ :=
    run_unique (digits first) (digits second) (by simp) (by simp) same
  exact ⟨Char.ext (UInt32.toNat.inj (toDigits_hexadecimal_injective sameDigits)),
    (List.cons.inj sameRest).2⟩

/-- What a letter behind a backslash stands for. -/
def unescape : Char → Char
  | '0' => '\x00'
  | 't' => '\t'
  | 'r' => '\r'
  | 'n' => '\n'
  | c => c

/-- The forms of a character between marks, if the marks in the list may not stand for
themselves. -/
inductive Escape (marks : List Char) (c : Char) : List Char → Prop
  | plain (notBackslash : c ≠ '\\') (notMark : c ∉ marks) : Escape marks c [c]
  | letter {letter : Char} (meaning : unescape letter = c) (notPoint : letter ≠ 'u') :
      Escape marks c ['\\', letter]
  | point : Escape marks c (Quoted.codePoint c)

namespace Escape

variable {marks : List Char} {c d : Char} {form other : List Char}

theorem head (escape : Escape marks c form) (noBackslash : '\\' ∉ marks) :
    ∃ first tail, form = first :: tail ∧ first ∉ marks := by
  cases escape with
  | plain _ notMark => exact ⟨c, [], rfl, notMark⟩
  | letter | point => exact ⟨'\\', _, rfl, noBackslash⟩

/-- A form of a character is told from what follows it. A backslash tells forms of several
characters, and the letter behind it which. -/
theorem unique (escape : Escape marks c form) (alsoEscape : Escape marks d other)
    {rest left : List Char} (same : form ++ rest = other ++ left) : c = d ∧ rest = left := by
  cases escape with
  | plain notBackslash =>
      cases alsoEscape with
      | plain => simpa using same
      | letter | point => exact absurd (List.cons.inj same).1 notBackslash
  | letter meaning notPoint =>
      cases alsoEscape with
      | plain notBackslash => exact absurd (List.cons.inj same).1.symm notBackslash
      | letter alsoMeaning =>
          simp only [List.cons_append, List.nil_append, List.cons.injEq, true_and] at same
          obtain ⟨rfl, sameRest⟩ := same
          exact ⟨meaning.symm.trans alsoMeaning, sameRest⟩
      | point => exact absurd (List.cons.inj (List.cons.inj same).2).1 notPoint
  | point =>
      cases alsoEscape with
      | plain notBackslash => exact absurd (List.cons.inj same).1.symm notBackslash
      | letter _ notPoint => exact absurd (List.cons.inj (List.cons.inj same).2).1.symm notPoint
      | point => exact Quoted.codePoint_prefixFree trivial trivial same

end Escape

/-! ## Literals -/

namespace Quoted

theorem escape_isEscape (c : Char) : Escape ['"'] c (escape '"' c) := by
  unfold escape
  split_ifs with null tab carriage newline special
  · exact .letter null.symm (by decide)
  · exact .letter tab.symm (by decide)
  · exact .letter carriage.symm (by decide)
  · exact .letter newline.symm (by decide)
  · rcases special with rfl | rfl <;> exact .letter rfl (by decide)
  · exact .point
  · exact .plain (fun same => special (Or.inl same)) (by simpa using fun same => special (Or.inr same))

/-- A quoted text ends at the first mark that is not behind a backslash. -/
theorem encode_prefixFree : PrefixFree (encode '"') := by
  have free : PrefixFree (escape '"') := fun first second _ _ _ _ same =>
    (escape_isEscape first).unique (escape_isEscape second) same
  have inside : ReadableBefore (·.head? = some '"') (List.flatMap (escape '"')) := by
    refine free.list (fun c rest => ⟨trivial, ?_⟩) fun _ _ => trivial
    obtain ⟨first, tail, form, notMark⟩ := (escape_isEscape c).head (by decide)
    simpa [form] using notMark
  intro first second rest left _ _ same
  simp only [encode, List.cons_append, List.append_assoc, List.nil_append, List.cons.injEq,
    true_and] at same
  obtain ⟨rfl, sameRest⟩ := inside rfl rfl same
  exact ⟨rfl, (List.cons.inj sameRest).2⟩

end Quoted

/-! ## Sets of characters -/

namespace CharSet

theorem escape_isEscape (c : Char) : Escape [']', '-'] c (escape c) := by
  unfold escape
  split_ifs with newline carriage tab special
  · exact .letter newline.symm (by decide)
  · exact .letter carriage.symm (by decide)
  · exact .letter tab.symm (by decide)
  · rcases special with rfl | rfl | rfl | rfl <;> exact .letter rfl (by decide)
  · refine .plain (fun same => special (Or.inr (Or.inl same))) ?_
    simp only [List.mem_cons, List.not_mem_nil, or_false]
    tauto

theorem escape_prefixFree : PrefixFree escape :=
  fun first second _ _ _ _ same => (escape_isEscape first).unique (escape_isEscape second) same

/-- A part of a set ends where no dash follows. -/
theorem encodeClass_readable : ReadableBefore (·.head? ≠ some '-') encodeClass := by
  intro first second rest left noDash alsoNoDash same
  cases first with
  | single c =>
      cases second with
      | single d =>
          obtain ⟨rfl, sameRest⟩ := escape_prefixFree trivial trivial same
          exact ⟨rfl, sameRest⟩
      | range low high =>
          simp only [encodeClass, List.append_assoc] at same
          obtain ⟨-, sameRest⟩ := escape_prefixFree trivial trivial same
          exact absurd (congrArg List.head? sameRest) noDash
  | range low high =>
      simp only [encodeClass, List.append_assoc] at same
      cases second with
      | single d =>
          obtain ⟨-, sameRest⟩ := escape_prefixFree trivial trivial same
          exact absurd (congrArg List.head? sameRest.symm) alsoNoDash
      | range otherLow otherHigh =>
          simp only [List.append_assoc] at same
          obtain ⟨rfl, sameRest⟩ := escape_prefixFree trivial trivial same
          obtain ⟨rfl, sameBehind⟩ :=
            escape_prefixFree trivial trivial (List.cons.inj sameRest).2
          exact ⟨rfl, sameBehind⟩

theorem head_encodeClass (part : CharClass) :
    ∃ first tail, encodeClass part = first :: tail ∧ first ∉ [']', '-'] := by
  cases part with
  | single c => exact (escape_isEscape c).head (by decide)
  | range low high =>
      obtain ⟨first, tail, form, notMark⟩ := (escape_isEscape low).head (by decide)
      exact ⟨first, tail ++ '-' :: escape high, by rw [encodeClass, form, List.cons_append], notMark⟩

/-- A set ends at the first bracket that is not behind a backslash. -/
theorem encode_prefixFree : PrefixFree encode := by
  have inside : ReadableBefore (·.head? = some ']') (List.flatMap encodeClass) := by
    refine encodeClass_readable.list (fun part rest => ?_) fun rest ended => by simp [ended]
    obtain ⟨first, tail, form, notMark⟩ := head_encodeClass part
    simp_all
  intro first second rest left _ _ same
  simp only [encode, List.cons_append, List.append_assoc, List.nil_append, List.cons.injEq,
    true_and] at same
  obtain ⟨sameClasses, sameRest⟩ := inside rfl rfl same
  exact ⟨CharSet.mk.injEq .. ▸ sameClasses, (List.cons.inj sameRest).2⟩

/-- Sets that are written alike have the same parts in the same order, and so the same characters. -/
theorem same_of_display {first second : CharSet} (same : first.display = second.display) :
    first.classes = second.classes ∧ ∀ c, first.contains c = second.contains c := by
  obtain rfl : first = second := encode_prefixFree.injective (String.ofList_injective same)
  exact ⟨rfl, fun _ => rfl⟩

/-- A set of all characters that are escaped, with one of the letters that stand for them. -/
theorem same_of_display_escaped :
    let joined : CharSet :=
      ⟨(ofString "[\\-").classes ++ [.range '\t' '\n', .range ']' '^'] ++ (ofString "n\r").classes⟩
    let listed : CharSet :=
      ⟨[.single '[', .single '\\', .single '-', .range '\t' '\n', .range ']' '^', .single 'n',
        .single '\r']⟩
    joined.display = "[[\\\\\\-\\t-\\n\\]-\\^n\\r]" ∧ joined.display = listed.display ∧
      joined.classes = listed.classes ∧ ∀ c, joined.contains c = listed.contains c := by
  intro joined listed
  have same : joined.display = listed.display := by decide
  exact ⟨by decide, same, same_of_display same⟩

/-- A dash between characters is no range, and a line feed is no letter. -/
example :
    (ofString "a-c\n").display = "[a\\-c\\n]" ∧
      (CharSet.mk [.range 'a' 'c', .single 'n']).display = "[a-cn]" := by
  decide

end CharSet

/-! ## Marks of counts -/

namespace RepeatCount

/-- What a mark of a single character stands for. -/
def ofMark : Char → RepeatCount
  | '*' => .atLeast 0
  | '+' => .atLeast 1
  | _ => .atMost 1

/-- The number before the comma, if there is one. -/
def lower : RepeatCount → List Char
  | .atLeast count | .exactly count => Nat.toDigits 10 count
  | .atMost _ => []

/-- The comma and the number behind it, as far as they are there. -/
def upper : RepeatCount → List Char
  | .atLeast _ => [',']
  | .atMost count => ',' :: Nat.toDigits 10 count
  | .exactly _ => []

/-- A count is written as one mark, or as its numbers in braces. -/
theorem toList_display (count : RepeatCount) :
    (∃ mark ∈ ['*', '+', '?'], count.display.toList = [mark] ∧ ofMark mark = count) ∨
      count.display.toList = '\x7b' :: (count.lower ++ count.upper) ++ ['\x7d'] := by
  match count with
  | .atLeast 0 => exact Or.inl ⟨'*', by decide, rfl, rfl⟩
  | .atLeast 1 => exact Or.inl ⟨'+', by decide, rfl, rfl⟩
  | .atMost 1 => exact Or.inl ⟨'?', by decide, rfl, rfl⟩
  | .atLeast (minimum + 2) | .atMost 0 | .atMost (maximum + 2) | .exactly count =>
      right
      simp [display, lower, upper]

theorem digits_isDigit {count : Nat} : ∀ c ∈ Nat.toDigits 10 count, c.isDigit :=
  fun _ member => Nat.isDigit_of_mem_toDigits (by decide) (by decide) member

theorem digits_injective : Function.Injective (Nat.toDigits 10) := by
  intro first second same
  rw [← Nat.ofDigitChars_ten_toDigits (n := first), same, Nat.ofDigitChars_ten_toDigits]

theorem numbers_injective : Function.Injective fun count : RepeatCount => count.lower ++ count.upper := by
  have isDigit (count : RepeatCount) : ∀ c ∈ count.lower, c.isDigit := by
    cases count with
    | atLeast | exactly => exact digits_isDigit
    | atMost => nofun
  have stops (count : RepeatCount) : ∀ c ∈ count.upper.head?, c.isDigit = false := by
    cases count <;> simp [upper]
  intro first second same
  obtain ⟨sameLower, sameUpper⟩ :=
    run_unique (isDigit first) (isDigit second) (stops first) (stops second) same
  cases first <;> cases second <;> simp_all [lower, upper, Nat.toDigits_ne_nil, digits_injective.eq_iff]

theorem notBrace_of_mem {count : RepeatCount} :
    ∀ c ∈ count.lower ++ count.upper, (c != '\x7d') = true := by
  have digit {number : Nat} : ∀ c ∈ Nat.toDigits 10 number, (c != '\x7d') = true := by
    intro c member
    rw [bne_iff_ne]
    rintro rfl
    exact absurd (digits_isDigit _ member) (by decide)
  cases count with
  | atLeast minimum =>
      simp only [lower, upper, List.forall_mem_append]
      exact ⟨digit, by simp⟩
  | atMost maximum =>
      simp only [lower, upper, List.nil_append, List.forall_mem_cons]
      exact ⟨by decide, digit⟩
  | exactly count =>
      simp only [lower, upper, List.append_nil]
      exact digit

theorem display_prefixFree : PrefixFree fun count : RepeatCount => count.display.toList := by
  have noBrace : '\x7b' ∉ ['*', '+', '?'] := by decide
  intro first second rest left _ _ same
  dsimp only at same
  rcases toList_display first with ⟨mark, isMark, marked, meaning⟩ | braced
  · rcases toList_display second with ⟨other, _, alsoMarked, alsoMeaning⟩ | braced
    · rw [marked, alsoMarked] at same
      obtain ⟨rfl, sameRest⟩ := List.cons.inj same
      exact ⟨meaning.symm.trans alsoMeaning, sameRest⟩
    · rw [marked, braced] at same
      exact absurd ((List.cons.inj same).1 ▸ isMark) noBrace
  · rcases toList_display second with ⟨other, isMark, marked, _⟩ | alsoBraced
    · rw [marked, braced] at same
      exact absurd ((List.cons.inj same).1 ▸ isMark) noBrace
    · simp only [braced, alsoBraced, List.cons_append, List.append_assoc, List.cons.injEq,
        true_and] at same
      rw [← List.append_assoc, ← List.append_assoc] at same
      obtain ⟨sameNumbers, sameRest⟩ :=
        run_unique notBrace_of_mem notBrace_of_mem (by simp) (by simp) same
      exact ⟨numbers_injective sameNumbers, (List.cons.inj sameRest).2⟩

end RepeatCount

/-! ## Words -/

/-- The predicates in front of an operand. -/
inductive Sign where
  | negative
  | positive
deriving DecidableEq, Repr

inductive Word where
  | literal (chars : List Char)
  | charSet (set : CharSet)
  | mark (count : RepeatCount)
  | predicate (sign : Sign)
  | opening
  | closing
  | space
  | slash
deriving DecidableEq, Repr

namespace Word

def encode : Word → List Char
  | .literal chars => Quoted.encode '"' chars
  | .charSet set => set.encode
  | .mark count => count.display.toList
  | .predicate .negative => ['!']
  | .predicate .positive => ['&']
  | .opening => ['(']
  | .closing => [')']
  | .space => [' ']
  | .slash => ['/']

/-- The sort of word that a character begins, by the number of its constructor. -/
def sortOf : Char → Nat
  | '"' => 0
  | '[' => 1
  | '!' | '&' => 3
  | '(' => 4
  | ')' => 5
  | ' ' => 6
  | '/' => 7
  | _ => 2

theorem sortOf_head (word : Word) :
    ∃ first tail, word.encode = first :: tail ∧ sortOf first = word.ctorIdx := by
  cases word with
  | mark count =>
      rcases count.toList_display with ⟨mark, isMark, marked, -⟩ | braced
      · have sort : ∀ mark ∈ ['*', '+', '?'], sortOf mark = 2 := by simp [sortOf]
        exact ⟨mark, [], marked, sort mark isMark⟩
      · exact ⟨'\x7b', _, braced, by rfl⟩
  | predicate sign => cases sign <;> exact ⟨_, [], rfl, by rfl⟩
  | literal | charSet => exact ⟨_, _, rfl, by rfl⟩
  | opening | closing | space | slash => exact ⟨_, [], rfl, by rfl⟩

/-- No word begins another one. -/
theorem encode_prefixFree : PrefixFree encode := by
  intro first second rest left _ _ same
  have sorts : first.ctorIdx = second.ctorIdx := by
    obtain ⟨head, tail, form, sort⟩ := sortOf_head first
    obtain ⟨other, otherTail, otherForm, otherSort⟩ := sortOf_head second
    rw [form, otherForm] at same
    rw [← sort, ← otherSort, (List.cons.inj same).1]
  cases first with
  | literal chars =>
      cases second with
      | literal others =>
          obtain ⟨rfl, sameRest⟩ := Quoted.encode_prefixFree trivial trivial same
          exact ⟨rfl, sameRest⟩
      | _ => cases sorts
  | charSet set =>
      cases second with
      | charSet other =>
          obtain ⟨rfl, sameRest⟩ := CharSet.encode_prefixFree trivial trivial same
          exact ⟨rfl, sameRest⟩
      | _ => cases sorts
  | mark count =>
      cases second with
      | mark other =>
          obtain ⟨rfl, sameRest⟩ := RepeatCount.display_prefixFree trivial trivial same
          exact ⟨rfl, sameRest⟩
      | _ => cases sorts
  | predicate sign =>
      cases second with
      | predicate other => cases sign <;> cases other <;> simp_all [encode]
      | _ => cases sorts
  | opening =>
      cases second with
      | opening => exact ⟨rfl, (List.cons.inj same).2⟩
      | _ => cases sorts
  | closing =>
      cases second with
      | closing => exact ⟨rfl, (List.cons.inj same).2⟩
      | _ => cases sorts
  | space =>
      cases second with
      | space => exact ⟨rfl, (List.cons.inj same).2⟩
      | _ => cases sorts
  | slash =>
      cases second with
      | slash => exact ⟨rfl, (List.cons.inj same).2⟩
      | _ => cases sorts

end Word

end PegEngine
