import TreeWatch.Proofs.Pattern.Compilation

/-!
What reading a mark can come to.

The scan goes through a text mark by mark. One lemma, `outcome_of_read`, says all that a mark can do
to it: complete a token, begin something, go on with what is open, or be a fault. Whatever holds of
a scan, or of the faults that it finds, follows from the few outcomes there are.
-/

namespace TreeWatch

open PatternError (Fault Reason)

/-- Whether a fault is neither that something is unfinished nor that a range is empty. -/
structure PatternError.Reason.IsDefinite (reason : Reason) : Prop where
  finished : reason.isUnfinished = false
  notRange : ∀ low high, reason ≠ .emptyRange low high

/-- Marks as they are found in a text, where no backslash is bare. -/
def Mark.IsPlain (mark : Mark) : Prop := mark ≠ .bare '\\'

namespace Pattern.Scan

def start? : Phase → Option Nat
  | .outside => none
  | .star start => some start
  | .stars start => some start
  | .group start _ _ => some start

inductive Outcome (scan : Scan) (mark : Mark) : Except Fault Scan → Prop where
  | token {reversed} : Outcome scan mark (.ok ⟨scan.position + mark.width, reversed, .outside⟩)
  | star {reversed} :
      Outcome scan mark (.ok ⟨scan.position + mark.width, reversed, .star scan.position⟩)
  | stars {start} : scan.phase = .star start →
      Outcome scan mark (.ok (scan.enter mark (.stars start)))
  | opened {reversed choice} :
      Outcome scan mark
        (.ok ⟨scan.position + mark.width, reversed, .group scan.position choice .opened⟩)
  /-- Behind a caret or a range nothing is held back. -/
  | settled {start choice part later} : scan.phase = .group start choice part →
      Outcome scan mark (.ok (scan.enter mark (.group start later (.items none))))
  | member {start choice part later c} : scan.phase = .group start choice part →
      MemberText c mark.text →
      Outcome scan mark (.ok (scan.enter mark (.group start later (.items (some c)))))
  | dash {start choice low} : scan.phase = .group start choice (.items (some low)) →
      mark = .bare '-' →
      Outcome scan mark (.ok (scan.enter mark (.group start choice (.range low))))
  | dangling : mark = .dangling → Outcome scan mark (.error ⟨scan.position, .danglingEscape⟩)
  | wrong {reason} : reason.IsDefinite → Outcome scan mark (.error ⟨scan.position, reason⟩)
  /-- The fault is in what is open. -/
  | wrongStart {start reason} : start ∈ start? scan.phase → reason.IsDefinite →
      Outcome scan mark (.error ⟨start, reason⟩)
  | emptyRange {start choice low high} : scan.phase = .group start choice (.range low) →
      MemberText high mark.text → high < low →
      Outcome scan mark (.error ⟨scan.position + mark.width, .emptyRange low high⟩)

section Outcome

variable {scan origin : Scan} {mark : Mark} {start : Nat} {choice : Group}

theorem outcome_of_readOutside (same : scan.position = origin.position) (mark : Mark) :
    Outcome origin mark (scan.readOutside mark) := by
  cases mark with
  | dangling =>
      simp only [readOutside, fail, same]
      exact .dangling rfl
  | escaped c =>
      simp only [readOutside, push, same]
      exact .token
  | bare c =>
      simp only [readOutside, push, enter, fail, same]
      split
      · split
        · exact .wrong ⟨rfl, by simp⟩
        · exact .token
      · split
        · split
          · exact .wrong ⟨rfl, by simp⟩
          · exact .token
        · split
          · split
            · exact .wrong ⟨rfl, by simp⟩
            · exact .star
          · split
            · exact .opened
            · split
              · exact .wrong ⟨rfl, by simp⟩
              · exact .token

theorem memberText_of_plain {c : Char} (plain : (Mark.bare c).IsPlain) (notClose : c ≠ ']')
    (notDash : c ≠ '-') : MemberText c (Mark.bare c).text := by
  have notEscape : c ≠ '\\' := fun same => plain (congrArg Mark.bare same)
  apply MemberText.bare
  simp [notClose, notDash, notEscape]

theorem outcome_of_readItem {part : GroupPart} {pending : Option Char}
    (isOpen : scan.phase = .group start choice part)
    (holds : ∀ low, pending = some low → part = .items (some low)) (plain : mark.IsPlain) :
    Outcome scan mark (scan.readItem start choice pending mark) := by
  have isStart : start ∈ start? scan.phase := by
    rw [isOpen]
    rfl
  cases mark with
  | dangling => exact .dangling rfl
  | escaped c => exact .member isOpen (.escaped c)
  | bare c =>
      simp only [readItem]
      split
      · split
        · exact .wrongStart isStart ⟨rfl, by simp⟩
        · exact .token
      · rename_i notClose
        split
        · rename_i isDash
          cases pending with
          | none => exact .wrong ⟨rfl, by simp⟩
          | some low => exact .dash (holds low rfl ▸ isOpen) (congrArg Mark.bare isDash)
        · rename_i notDash
          exact .member isOpen (memberText_of_plain plain notClose notDash)

theorem outcome_of_readRangeEnd {low : Char}
    (isOpen : scan.phase = .group start choice (.range low)) (plain : mark.IsPlain) :
    Outcome scan mark (scan.readRangeEnd start choice low mark) := by
  have closes : ∀ high, MemberText high mark.text →
      Outcome scan mark (scan.closeRange start choice low high mark) := by
    intro high written
    unfold closeRange
    split
    · rename_i empty
      exact .emptyRange isOpen written empty
    · exact .settled isOpen
  cases mark with
  | dangling => exact .dangling rfl
  | escaped c => exact closes c (.escaped c)
  | bare c =>
      simp only [readRangeEnd]
      split
      · exact .wrong ⟨rfl, by simp⟩
      · rename_i noEnd
        rw [not_or] at noEnd
        exact closes c (memberText_of_plain plain noEnd.1 noEnd.2)

theorem closeStars_cases (scan : Scan) (start : Nat) :
    (∃ reversed, scan.closeStars start = .ok { scan with reversed, phase := .outside }) ∨
      scan.closeStars start = .error ⟨start, .directoriesInSegment⟩ ∧
        ∃ previous ∈ scan.reversed.head?, previous ≠ .separator := by
  obtain ⟨position, reversed, phase⟩ := scan
  cases reversed with
  | nil => exact .inl ⟨_, rfl⟩
  | cons previous earlier =>
      cases previous with
      | separator => exact .inl ⟨_, rfl⟩
      | _ => exact .inr ⟨rfl, _, rfl, by simp⟩

/-- What reading a mark of a text comes to is one of the outcomes. -/
theorem outcome_of_read (scan : Scan) (plain : mark.IsPlain) :
    Outcome scan mark (scan.read mark) := by
  obtain ⟨position, reversed, phase⟩ := scan
  cases phase with
  | outside => exact outcome_of_readOutside rfl mark
  | star start =>
      simp only [read]
      split
      · exact .stars rfl
      · apply outcome_of_readOutside
        rfl
  | stars start =>
      simp only [read]
      split
      · rcases closeStars_cases ⟨position, reversed, .stars start⟩ start with
          ⟨_, closed⟩ | ⟨failed, _⟩
        · rw [closed]
          apply outcome_of_readOutside
          rfl
        · rw [failed]
          exact .wrongStart rfl ⟨rfl, by simp⟩
      · exact .wrong ⟨rfl, by simp⟩
  | group start choice part =>
      cases part with
      | opened =>
          simp only [read, readInGroup]
          split
          · exact .settled rfl
          · exact outcome_of_readItem rfl (by simp) plain
      | items pending => exact outcome_of_readItem rfl (by simp) plain
      | range low => exact outcome_of_readRangeEnd rfl plain

end Outcome

end Pattern.Scan

end TreeWatch
