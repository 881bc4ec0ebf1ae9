import PegEngine.Error
import PegEngine.Text.Blank
import PegEngine.Text.Letter
import PegEngine.Text.Numeral
import PegEngine.Trace.Filter

/-!
Contract: reading a trace filter from its specification.

A specification is `term` or `term & rest` or `term | rest`, where a term is the name of a
filter or a specification in parentheses. The two operators bind alike and group to the right.
Blanks may stand around every word and mark.

`scan` goes through the characters once. It keeps what it waits for (`Expectation`) and the
constructs that are still open, the innermost first (`Opening`). It stops at the first character
that cannot follow, and the error carries the number of bytes before that character.
-/

namespace PegEngine

namespace TraceFilter

/-- The names of filters in specifications. -/
def ofName? (name : String) : Option TraceFilter :=
  [("false", hide), ("hide", hide), ("named", named), ("off", hide), ("on", .show),
    ("show", .show), ("show_only_success", onlySuccess), ("true", .show)].lookup name

namespace Specification

inductive Connective where
  | and
  | or
deriving DecidableEq, Repr

def Connective.apply (left right : TraceFilter) : Connective → TraceFilter
  | .and => .both left right
  | .or => .either left right

/-- A construct that is begun and not complete. -/
inductive Opening where
  /-- A parenthesis that is not closed. -/
  | group
  /-- A left operand and its operator, waiting for the right operand. -/
  | operand (left : TraceFilter) (operator : Connective)

/-- What the scan waits for. -/
inductive Expectation where
  | term
  /-- More of a name, whose letters are kept with the newest first. -/
  | name (letters : List Char)
  /-- What may follow a complete filter. -/
  | operator (value : TraceFilter)

/-- A scan between two characters. -/
structure Progress where
  expectation : Expectation
  openings : List Opening

inductive Fault where
  /-- The next character, or the end, cannot stand here. -/
  | unexpected
  | unknownName (name : String)
deriving DecidableEq, Repr

def startsName (c : Char) : Bool :=
  isLetter c || c == '_'

def continuesName (c : Char) : Bool :=
  isLetter c || isNumeral c || c == '_'

/-- The filter of a name whose letters are all read. -/
def finishName (letters : List Char) : Except Fault TraceFilter :=
  let name := String.ofList letters.reverse
  match ofName? name with
  | some filter => .ok filter
  | none => .error (.unknownName name)

/-- Complete a filter with the operands that wait for it, up to the innermost parenthesis. The
openings outside of that parenthesis come with it; there are none when there is no
parenthesis. -/
def complete (value : TraceFilter) : List Opening → TraceFilter × Option (List Opening)
  | [] => (value, none)
  | .group :: outer => (value, some outer)
  | .operand left operator :: outer => complete (operator.apply left value) outer

/-- Read one character after a complete filter. -/
def stepOperator (c : Char) (value : TraceFilter) (openings : List Opening) :
    Except Fault Progress :=
  if isBlank c then .ok ⟨.operator value, openings⟩
  else if c = '&' then .ok ⟨.term, .operand value .and :: openings⟩
  else if c = '|' then .ok ⟨.term, .operand value .or :: openings⟩
  else if c = ')' then
    match complete value openings with
    | (value, some outer) => .ok ⟨.operator value, outer⟩
    | (_, none) => .error .unexpected
  else .error .unexpected

def step (c : Char) (progress : Progress) : Except Fault Progress :=
  match progress.expectation with
  | .term =>
      if isBlank c then .ok progress
      else if c = '(' then .ok ⟨.term, .group :: progress.openings⟩
      else if startsName c then .ok ⟨.name [c], progress.openings⟩
      else .error .unexpected
  | .name letters =>
      if continuesName c then .ok ⟨.name (c :: letters), progress.openings⟩
      else
        match finishName letters with
        | .ok value => stepOperator c value progress.openings
        | .error fault => .error fault
  | .operator value => stepOperator c value progress.openings

/-- The filter of a scan that has read everything. -/
def finish (progress : Progress) : Except Fault TraceFilter :=
  let completed (value : TraceFilter) : Except Fault TraceFilter :=
    match complete value progress.openings with
    | (value, none) => .ok value
    | (_, some _) => .error .unexpected
  match progress.expectation with
  | .term => .error .unexpected
  | .name letters =>
      match finishName letters with
      | .ok value => completed value
      | .error fault => .error fault
  | .operator value => completed value

/-- Read the rest of a specification, of which `bytes` bytes are read. A fault comes with the
number of bytes before the place where it shows. -/
def scan (bytes : Nat) (progress : Progress) : List Char → Except (Fault × Nat) TraceFilter
  | [] =>
      match finish progress with
      | .ok filter => .ok filter
      | .error fault => .error (fault, bytes)
  | c :: rest =>
      match step c progress with
      | .ok progress => scan (bytes + c.utf8Size) progress rest
      | .error fault => .error (fault, bytes)

end Specification

open Specification in
def parse (spec : String) : Except PatternError TraceFilter :=
  match scan 0 ⟨.term, []⟩ spec.toList with
  | .ok filter => .ok filter
  | .error (.unexpected, byte) => .error (.invalidFilter spec byte)
  | .error (.unknownName name, _) => .error (.unknownFilter name)

end TraceFilter

end PegEngine
