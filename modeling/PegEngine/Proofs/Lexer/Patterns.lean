import PegEngine.Lexer
import PegEngine.Proofs.Pattern.Making

/-!
Contract: what the patterns of the lexer match.

All of them match as a scan does, except for strings.

Owns:
- the scans of the patterns, with the classes of characters that they go by;
- for each pattern, that its builder makes it.

Does not own: strings, which are in `PegEngine.Proofs.Lexer.Strings`.
-/

namespace PegEngine

theorem CharSet.contains_ofString {chars : String} {c : Char} :
    (CharSet.ofString chars).contains c ↔ c ∈ chars.toList := by
  simp [contains, ofString, CharClass.contains]

namespace Lexer

open Build

namespace Lexeme

def isBlank : Char → Bool :=
  (CharSet.ofString " \t").contains

def isLetter : Char → Bool :=
  (⟨[.range 'A' 'Z', .range 'a' 'z']⟩ : CharSet).contains

def isDigit : Char → Bool :=
  (⟨[.range '0' '9']⟩ : CharSet).contains

def isPunctuation : Char → Bool :=
  (CharSet.ofString punctuation).contains

def isLineEnd (c : Char) : Bool :=
  c == '\r' || c == '\n'

/-- The characters that an identifier goes on with. -/
def continuesWord (c : Char) : Bool :=
  isLetter c || c == '_' || isDigit c

def blanks : Scan :=
  .run isBlank 1

def newline : Scan :=
  .choice [.literal "\r\n".toList, .literal "\r".toList, .literal "\n".toList]

def comment : Scan :=
  .sequence [.choice [.literal "#".toList, .literal "//".toList], .run (!isLineEnd ·) 0]

def number : Scan :=
  .sequence [.run isDigit 1, .optional (.sequence [.literal ".".toList, .run isDigit 1])]

def wordStart : Scan :=
  .choice [.char isLetter, .literal "_".toList]

def identifier : Scan :=
  .sequence [wordStart, .run continuesWord 0]

/-! ## Classes of characters -/

theorem isLetter_eq (c : Char) : isLetter c = c.isAlpha := by
  have letters : c.isAlpha = (decide ('A' ≤ c ∧ c ≤ 'Z') || decide ('a' ≤ c) && decide (c ≤ 'z')) :=
    rfl
  simp [isLetter, CharSet.contains, CharClass.contains, letters]

theorem isDigit_eq (c : Char) : isDigit c = c.isDigit := by
  simp [isDigit, CharSet.contains, CharClass.contains, Char.isDigit, Char.le_def]

theorem decidedBy_newline : newline.DecidedBy isLineEnd := by
  have single : (Scan.choice [.literal ['\r'], .literal ['\n']]).DecidedBy isLineEnd := by
    have isChar := (Scan.isChar_literal '\r').choice ((Scan.isChar_literal '\n').choice
      Scan.isChar_choice_nil)
    have decided := isChar.decidedBy
    simp only [Bool.or_false] at decided
    exact decided
  -- Where both characters stand, the first one is enough.
  refine single.choice_of_covered fun ahead found => ?_
  cases ahead with
  | nil => cases found
  | cons c rest =>
      rw [single]
      by_cases carriage : c = '\r'
      · simp [isLineEnd, carriage]
      · simp [Scan.literal, Ne.symm carriage] at found

theorem isChar_wordStart : wordStart.IsChar fun c => isLetter c || c == '_' := by
  have isLetter : (Scan.char isLetter).IsChar isLetter := fun _ => rfl
  have isChar := isLetter.choice ((Scan.isChar_literal '_').choice Scan.isChar_choice_nil)
  simp only [Bool.or_false] at isChar
  exact isChar

theorem isChar_wordStep : (Scan.choice [wordStart, .char isDigit]).IsChar continuesWord := by
  have isDigit : (Scan.char isDigit).IsChar isDigit := fun _ => rfl
  have isChar := isChar_wordStart.choice (isDigit.choice Scan.isChar_choice_nil)
  simp only [Bool.or_false] at isChar
  exact isChar

/-! ## Builders -/

variable {final : Graph}

theorem makes_blanks : Makes final Pattern.someBlanks fun pattern =>
    ∀ store height, final.Scans store (height + 1) (final.kind pattern) blanks := by
  refine .bind (.scanCharSet _) fun blank => ?_
  refine (Makes.scanRun blank 1).mono ?_
  exact fun pattern isRun isBlank store height => isRun (isBlank store height) fun _ => rfl

theorem makes_newline : Makes final Pattern.newline fun pattern =>
    ∀ store height, final.Scans store (height + 1) (final.kind pattern) newline := by
  refine .bind (.scanLiteral _) fun both => ?_
  refine .bind (.scanLiteral _) fun carriage => ?_
  refine .bind (.scanLiteral _) fun feed => ?_
  refine (Makes.scanChoice _).mono ?_
  intro pattern inOrder isFeed isCarriage isBoth store height
  exact inOrder (.cons (isBoth store height)
    (.cons (isCarriage store height) (.cons (isFeed store height) .nil)))

theorem makes_comment : Makes final Lexer.comment fun pattern =>
    ∀ store height, final.Scans store (height + 5) (final.kind pattern) comment := by
  refine .bind (.scanLiteral _) fun hash => ?_
  refine .bind (.scanLiteral _) fun slashes => ?_
  refine .bind (.scanChoice _) fun mark => ?_
  refine .bind makes_newline fun lineEnd => ?_
  refine .bind (.scanUpTo _) fun rest => ?_
  refine (Makes.scanSequence _).mono ?_
  intro pattern inOrder isRest isLineEnd isMark isSlashes isHash store height
  exact inOrder (.cons (isMark (.cons (isHash store _) (.cons (isSlashes store _) .nil)))
    (.cons (isRest (isLineEnd store height) decidedBy_newline) .nil))

theorem makes_number : Makes final Lexer.number fun pattern =>
    ∀ store height, final.Scans store (height + 4) (final.kind pattern) number := by
  refine .bind (.scanCharSet _) fun digit => ?_
  refine .bind (.scanRun digit 1) fun digits => ?_
  refine .bind (.scanLiteral _) fun point => ?_
  refine .bind (.scanSequence _) fun fraction => ?_
  refine .bind (.scanOptional fraction) fun rest => ?_
  refine (Makes.scanSequence _).mono ?_
  intro pattern inOrder isRest isFraction isPoint isDigits isDigit store height
  have scansDigits : ∀ height, final.Scans store (height + 1) (final.kind digits) (.run _ 1) :=
    fun height => isDigits (isDigit store height) fun _ => rfl
  exact inOrder (.cons (scansDigits _)
    (.cons (isRest (isFraction (.cons (isPoint store _) (.cons (scansDigits height) .nil)))) .nil))

theorem makes_identifier : Makes final Lexer.identifier fun pattern =>
    ∀ store height, final.Scans store (height + 4) (final.kind pattern) identifier := by
  refine .bind (.scanCharSet _) fun letter => ?_
  refine .bind (.scanLiteral _) fun underscore => ?_
  refine .bind (.scanChoice _) fun start => ?_
  refine .bind (.scanCharSet _) fun digit => ?_
  refine .bind (.scanChoice _) fun step => ?_
  refine .bind (.scanRun step 0) fun rest => ?_
  refine (Makes.scanSequence _).mono ?_
  intro pattern inOrder isRest isStep isDigit isStart isUnderscore isLetter store height
  have scansStart : ∀ height, final.Scans store (height + 1) (final.kind start) wordStart :=
    fun height => isStart (.cons (isLetter store _) (.cons (isUnderscore store height) .nil))
  exact inOrder (.cons (scansStart _) (.cons (isRest
    (isStep (.cons (scansStart height) (.cons (isDigit store _) .nil))) isChar_wordStep) .nil))

end Lexeme

end Lexer

end PegEngine
