import TreeWatch.Proofs.Pattern.Step

/-!
Where a fault in a pattern text is reported.

Wherever the scan has got to, it knows how many characters it has read and where the stars or the
group began that are still open. A fault therefore is reported at a character of the text, with one
exception: an empty range is reported directly behind its end, where the text may be over.
-/

namespace TreeWatch

open PatternError (Fault)

theorem Mark.length_lt_append (mark : Mark) (read : List Char) :
    read.length < (read ++ mark.text).length := by
  cases mark <;> simp [Mark.text]

namespace Pattern

inductive Locates (text : List Char) : Fault → Prop where
  /-- The fault is at a character. -/
  | character {position reason} : position < text.length →
      (∀ low high, reason ≠ .emptyRange low high) → Locates text ⟨position, reason⟩
  /-- The fault is directly behind a range. -/
  | range {earlier range later low high} : text = earlier ++ range ++ later →
      ItemText (.range low high) range → high < low →
      Locates text ⟨(earlier ++ range).length, .emptyRange low high⟩

theorem Locates.append {text : List Char} {fault : Fault} (located : Locates text fault)
    (more : List Char) : Locates (text ++ more) fault := by
  cases located with
  | character inside notRange =>
      refine .character ?_ notRange
      rw [List.length_append]
      omega
  | range same written empty =>
      subst same
      exact .range (List.append_assoc _ _ _) written empty

namespace Scan

/-- Whether a text ends with what the scan holds back in some phase. -/
def Holds (read : List Char) : Phase → Prop
  | .group _ _ .opened => True
  | .group _ _ part => ∃ earlier held, read = earlier ++ held ∧ HeldText part held
  | _ => True

/-- What holds of a scan that has read so much of a text. -/
structure Behind (read : List Char) (scan : Scan) : Prop where
  position : scan.position = read.length
  start : ∀ start ∈ start? scan.phase, start < read.length
  held : Holds read scan.phase

def Sound (read : List Char) : Except Fault Scan → Prop
  | .ok scan => Behind read scan
  | .error fault => Locates read fault

theorem behind_initial : Behind [] initial where
  position := rfl
  start start member := by cases member
  held := trivial

/-- A mark takes the scan on behind it, or there is a fault in what is read then. -/
theorem Behind.sound {read : List Char} {scan : Scan} {mark : Mark} {result : Except Fault Scan}
    (behind : Behind read scan) (outcome : Outcome scan mark result) :
    Sound (read ++ mark.text) result := by
  have position : scan.position + mark.width = (read ++ mark.text).length := by
    rw [List.length_append, behind.position]
    rfl
  have here : scan.position < (read ++ mark.text).length := by
    rw [behind.position]
    exact mark.length_lt_append read
  have started : ∀ start ∈ start? scan.phase, start < (read ++ mark.text).length := by
    intro start isOpen
    exact (behind.start start isOpen).trans (mark.length_lt_append read)
  cases outcome with
  | token => exact ⟨position, by simp [start?], trivial⟩
  | star => exact ⟨position, by simpa [start?] using here, trivial⟩
  | stars isOpen =>
      rw [isOpen] at started
      exact ⟨position, started, trivial⟩
  | opened => exact ⟨position, by simpa [start?] using here, trivial⟩
  | settled isOpen =>
      rw [isOpen] at started
      exact ⟨position, started, _, [], (List.append_nil _).symm, .nothing⟩
  | member isOpen written =>
      rw [isOpen] at started
      exact ⟨position, started, read, _, rfl, .member written⟩
  | dash isOpen isDash =>
      have held := behind.held
      rw [isOpen] at started held
      obtain ⟨earlier, held, rfl, heldWritten⟩ := held
      cases heldWritten with
      | member written =>
          refine ⟨position, started, earlier, held ++ ['-'], ?_, .range written⟩
          rw [isDash]
          exact List.append_assoc _ _ _
  | dangling => exact .character here (by simp)
  | wrong definite => exact .character here definite.notRange
  | wrongStart isOpen definite => exact .character (started _ isOpen) definite.notRange
  | emptyRange isOpen written empty =>
      have held := behind.held
      rw [isOpen] at held
      obtain ⟨earlier, held, rfl, heldWritten⟩ := held
      cases heldWritten with
      | @range _ lowText lowWritten =>
          have text : earlier ++ (lowText ++ ['-']) ++ mark.text =
              earlier ++ (lowText ++ '-' :: mark.text) := by simp
          change Locates _ ⟨scan.position + mark.width, _⟩
          rw [position, text]
          exact .range (List.append_nil _).symm (.range lowWritten written) empty

theorem locates_of_finish {read : List Char} {scan : Scan} {fault : Fault}
    (behind : Behind read scan) (failed : scan.finish = .error fault) : Locates read fault := by
  obtain ⟨position, reversed, phase⟩ := scan
  cases phase with
  | outside => cases failed
  | star start => cases failed
  | stars start =>
      simp only [finish] at failed
      rcases closeStars_cases ⟨position, reversed, .stars start⟩ start with
        ⟨_, closed⟩ | ⟨notWhole, _⟩
      · rw [closed] at failed
        cases failed
      · rw [notWhole] at failed
        cases failed
        exact .character (behind.start start rfl) (by simp)
  | group start choice part =>
      cases failed
      exact .character (behind.start start rfl) (by simp)

theorem locates_of_step {read rest : List Char} {scan : Scan} {mark : Mark} {fault : Fault}
    (behind : Behind read scan) (plain : mark.IsPlain)
    (later : ∀ next, Behind (read ++ mark.text) next → next.readAll rest = .error fault →
      Locates (read ++ mark.text ++ rest) fault)
    (failed : (scan.read mark).bind (fun next => next.readAll rest) = .error fault) :
    Locates (read ++ mark.text ++ rest) fault := by
  have step := behind.sound (outcome_of_read scan plain)
  cases result : scan.read mark with
  | error found =>
      rw [result] at step failed
      cases failed
      exact step.append rest
  | ok next =>
      rw [result] at step failed
      exact later next step failed

/-- A scan that fails from some point on finds a fault in the text. -/
theorem locates_of_readAll {read text : List Char} {scan : Scan} {fault : Fault}
    (behind : Behind read scan) (failed : scan.readAll text = .error fault) :
    Locates (read ++ text) fault := by
  induction text using Mark.textInduction generalizing read scan with
  | nil =>
      rw [List.append_nil]
      exact locates_of_finish behind failed
  | dangling =>
      rw [readAll_dangling] at failed
      have later : ∀ next, Behind (read ++ Mark.text .dangling) next →
          next.readAll [] = .error fault →
          Locates (read ++ Mark.text .dangling ++ []) fault := by
        intro next behindNext failedNext
        rw [List.append_nil]
        exact locates_of_finish behindNext failedNext
      have located := locates_of_step behind (by simp [Mark.IsPlain]) later failed
      rwa [List.append_nil] at located
  | escaped c rest inductionHypothesis =>
      rw [readAll_escaped] at failed
      have located := locates_of_step behind (by simp [Mark.IsPlain])
        (fun next => inductionHypothesis) failed
      rwa [List.append_assoc] at located
  | bare c rest notEscape inductionHypothesis =>
      rw [readAll_bare _ notEscape] at failed
      have located := locates_of_step behind (by simp [Mark.IsPlain, notEscape])
        (fun next => inductionHypothesis) failed
      rwa [List.append_assoc] at located

end Scan

/-- Compiling a text either gives a pattern with that text or finds a fault in it. -/
theorem compile_locates (text : String) :
    (∃ pattern, compile text = .ok pattern ∧ pattern.text = text) ∨
      ∃ error, compile text = .error error ∧ error.pattern = text ∧
        Locates text.toList error.fault := by
  cases compiled : compile text with
  | ok pattern => exact .inl ⟨pattern, rfl, compile_eq_ok_iff.mp compiled⟩
  | error error =>
      obtain ⟨failed, same⟩ := compile_eq_error_iff.mp compiled
      rw [Scan.tokensOf_eq_readAll] at failed
      exact .inr ⟨error, rfl, same, Scan.locates_of_readAll Scan.behind_initial failed⟩

/-- An empty range at the end of the text is reported at no character of it. -/
theorem position_behind_text :
    ∃ error, compile "[b-a" = .error error ∧ error.pattern = "[b-a" ∧
      ¬error.position < "[b-a".length := by
  refine ⟨⟨"[b-a", ⟨4, .emptyRange 'b' 'a'⟩⟩, ?_, rfl, by decide⟩
  rw [compile_eq_error_iff]
  exact ⟨by decide, rfl⟩

end Pattern

end TreeWatch
