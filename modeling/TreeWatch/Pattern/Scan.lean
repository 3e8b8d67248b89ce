import TreeWatch.Pattern.Error
import TreeWatch.Pattern.Mark
import TreeWatch.Pattern.Token

/-!
Turning a pattern text into tokens, one mark at a time.

The scan remembers the tokens read so far and the phase it is in: between tokens, behind one or
two stars that are not decided yet, or inside a group. A star becomes a wildcard only when the
mark behind it is known, since two stars are one token. Reading a mark and ending the text may
each find a fault; the first fault ends the scan.
-/

namespace TreeWatch.Pattern

open PatternError (Fault Reason)

inductive GroupPart
  /-- Nothing follows the bracket yet, so a caret would negate. -/
  | opened
  /-- The last member may still begin a range. -/
  | items (pending : Option Char)
  /-- The end of a range is due. -/
  | range (low : Char)
  deriving DecidableEq

inductive Phase
  | outside
  /-- A star has been read at this position. -/
  | star (start : Nat)
  /-- Two stars have been read, the first at this position. -/
  | stars (start : Nat)
  /-- A group is open since this position. -/
  | group (start : Nat) (choice : Group) (part : GroupPart)
  deriving DecidableEq

structure Scan where
  /-- The number of characters read. -/
  position : Nat
  /-- The tokens read, the last one first. -/
  reversed : List Token
  phase : Phase
  deriving DecidableEq

namespace Scan

def initial : Scan := ⟨0, [], .outside⟩

def fail {α : Type} (position : Nat) (reason : Reason) : Except Fault α :=
  .error ⟨position, reason⟩

/-- The scan behind a complete token and the mark that ends it. -/
def push (scan : Scan) (mark : Mark) (token : Token) : Scan :=
  ⟨scan.position + mark.width, token :: scan.reversed, .outside⟩

/-- The scan behind a mark that completes no token. -/
def enter (scan : Scan) (mark : Mark) (phase : Phase) : Scan :=
  ⟨scan.position + mark.width, scan.reversed, phase⟩

def readOutside (scan : Scan) : Mark → Except Fault Scan
  | .dangling => fail scan.position .danglingEscape
  | .escaped c => .ok (scan.push (.escaped c) (.literal c))
  | .bare c =>
      let previous := scan.reversed.head?
      if c = '/' then
        if previous = some .separator then fail scan.position .doubledSeparator
        else .ok (scan.push (.bare c) .separator)
      else if c = '?' then
        if previous = some .any then fail scan.position .singleAfterWildcard
        else .ok (scan.push (.bare c) .single)
      else if c = '*' then
        if previous = some .single then fail scan.position .anyAfterWildcard
        else .ok (scan.enter (.bare c) (.star scan.position))
      else if c = '[' then
        .ok (scan.enter (.bare c) (.group scan.position ⟨false, .empty, []⟩ .opened))
      else if c = ']' then fail scan.position .unexpectedClose
      else .ok (scan.push (.bare c) (.literal c))

/-- The tokens once two stars turn out to be a whole segment. -/
def closeStars (scan : Scan) (start : Nat) : Except Fault Scan :=
  match scan.reversed with
  | [] => .ok { scan with reversed := [.directories], phase := .outside }
  | .separator :: earlier =>
      .ok { scan with reversed := .directories :: .separator :: earlier, phase := .outside }
  | _ => fail start .directoriesInSegment

/-- The group with the member that can no longer begin a range. -/
def settle (choice : Group) : Option Char → Group
  | none => choice
  | some member => { choice with members := choice.members.insert member }

def readItem (scan : Scan) (start : Nat) (choice : Group) (pending : Option Char) :
    Mark → Except Fault Scan
  | .dangling => fail scan.position .danglingEscape
  | .escaped c => .ok (scan.enter (.escaped c) (.group start (settle choice pending) (.items c)))
  | .bare c =>
      if c = ']' then
        let choice := settle choice pending
        if choice.members.isEmpty && choice.ranges.isEmpty then fail start .emptyGroup
        else .ok (scan.push (.bare c) (.group choice))
      else if c = '-' then
        match pending with
        | none => fail scan.position .rangeWithoutStart
        | some low => .ok (scan.enter (.bare c) (.group start choice (.range low)))
      else .ok (scan.enter (.bare c) (.group start (settle choice pending) (.items c)))

/-- Ends a range. A range that holds nothing is reported behind its end. -/
def closeRange (scan : Scan) (start : Nat) (choice : Group) (low high : Char) (mark : Mark) :
    Except Fault Scan :=
  if high < low then fail (scan.position + mark.width) (.emptyRange low high)
  else
    .ok (scan.enter mark
      (.group start { choice with ranges := choice.ranges ++ [(low, high)] } (.items none)))

def readRangeEnd (scan : Scan) (start : Nat) (choice : Group) (low : Char) :
    Mark → Except Fault Scan
  | .dangling => fail scan.position .danglingEscape
  | .escaped c => closeRange scan start choice low c (.escaped c)
  | .bare c =>
      if c = ']' ∨ c = '-' then fail scan.position .rangeWithoutEnd
      else closeRange scan start choice low c (.bare c)

def readInGroup (scan : Scan) (start : Nat) (choice : Group) (mark : Mark) :
    GroupPart → Except Fault Scan
  | .opened =>
      if mark = .bare '^' then
        .ok (scan.enter mark (.group start { choice with negated := true } (.items none)))
      else readItem scan start choice none mark
  | .items pending => readItem scan start choice pending mark
  | .range low => readRangeEnd scan start choice low mark

def read (scan : Scan) (mark : Mark) : Except Fault Scan :=
  match scan.phase with
  | .outside => scan.readOutside mark
  | .star start =>
      if mark = .bare '*' then .ok (scan.enter mark (.stars start))
      else { scan with reversed := .any :: scan.reversed, phase := .outside }.readOutside mark
  | .stars start =>
      if mark = .bare '/' then (scan.closeStars start).bind (·.readOutside mark)
      else fail scan.position (.afterDirectories mark.head)
  | .group start choice part => scan.readInGroup start choice mark part

def finish (scan : Scan) : Except Fault (List Token) :=
  match scan.phase with
  | .outside => .ok scan.reversed.reverse
  | .star _ => .ok (.any :: scan.reversed).reverse
  | .stars start => (scan.closeStars start).map (·.reversed.reverse)
  | .group start _ _ => fail start .unterminatedGroup

end Scan

def tokensOf (text : List Char) : Except Fault (List Token) :=
  ((Mark.ofText text).foldlM Scan.read .initial).bind Scan.finish

end TreeWatch.Pattern
