import TreeWatch.Proofs.Pattern.Step

/-!
What more text can do about a fault.

A text with a fault is unfinished or wrong. It is unfinished when it ends in the middle of an escape
or a group: some continuation of it compiles. Any other fault lasts. The scan comes to it before the
end of the text, or it is two stars in the wrong place, which no continuation puts right.
-/

namespace TreeWatch.Pattern

open PatternError (Fault Reason)

namespace Scan

def Extendable (scan : Scan) (text : List Char) : Prop :=
  ∃ more tokens, scan.readAll (text ++ more) = .ok tokens

section Open

variable (position start : Nat) (reversed : List Token) (choice : Group)

theorem exists_readAll_close (pending : Option Char)
    (inhabited : (∃ c, c ∈ (settle choice pending).members) ∨ (settle choice pending).ranges ≠ []) :
    ∃ tokens,
      readAll ⟨position, reversed, .group start choice (.items pending)⟩ [']'] = .ok tokens := by
  rw [readAll_close _ _ _ _ _ inhabited]
  exact ⟨_, rfl⟩

/-- An escaped character and a bracket end a group. The character is the member of the group or the
end of a range, where it has to be one that the range can end with. -/
theorem exists_readAll_group (part : GroupPart) :
    ∃ c tokens,
      readAll ⟨position, reversed, .group start choice part⟩ ['\\', c, ']'] = .ok tokens := by
  have items : ∀ pending, ∃ tokens,
      readAll ⟨position, reversed, .group start choice (.items pending)⟩ ['\\', 'a', ']'] =
        .ok tokens := by
    intro pending
    have reads := readAll_member position start reversed choice pending (.escaped 'a') [']']
    rw [List.cons_append, List.singleton_append] at reads
    rw [reads]
    apply exists_readAll_close
    exact .inl ⟨'a', CharSet.mem_insert.mpr (.inl rfl)⟩
  cases part with
  | opened =>
      refine ⟨'a', ?_⟩
      rw [readAll_opened _ _ _ _ (by decide)]
      exact items none
  | items pending => exact ⟨'a', items pending⟩
  | range low =>
      have reads := readAll_rangeEnd position start reversed choice low (.escaped low) [']']
      rw [List.cons_append, List.singleton_append, if_neg (Char.lt_irrefl low)] at reads
      refine ⟨low, ?_⟩
      rw [reads]
      apply exists_readAll_close
      exact .inr (by simp [settle, Group.add])

end Open

theorem readAll_literal (position : Nat) (reversed : List Token) (c : Char) :
    readAll ⟨position, reversed, .outside⟩ ['\\', c] =
      .ok (reversed.reverse ++ [.literal c]) := by
  rw [readAll_escaped]
  simp [read, readOutside, push, finish, Except.bind]

section End

variable {scan : Scan} {fault : Fault}

theorem not_extendable_stars {position start : Nat} {reversed : List Token} {text : List Char}
    (wrong : (∃ previous ∈ reversed.head?, previous ≠ .separator) ∨ ∃ c ∈ text.head?, c ≠ '/') :
    ¬Extendable ⟨position, reversed, .stars start⟩ text := by
  rintro ⟨more, tokens, succeeded⟩
  obtain ⟨separated, ends⟩ := whole_of_readAll_stars succeeded
  rcases wrong with ⟨previous, member, notSeparator⟩ | ⟨c, member, notSeparator⟩
  · exact notSeparator (separated previous member)
  · apply notSeparator
    apply ends
    cases text with
    | nil => cases member
    | cons d rest => exact member

theorem extendable_iff_of_finish (failed : scan.finish = .error fault) :
    scan.Extendable [] ↔ fault.reason.isUnfinished = true := by
  obtain ⟨position, reversed, phase⟩ := scan
  cases phase with
  | outside => cases failed
  | star start => cases failed
  | stars start =>
      simp only [finish] at failed
      rcases closeStars_cases ⟨position, reversed, .stars start⟩ start with
        ⟨_, closed⟩ | ⟨notWhole, wrong⟩
      · rw [closed] at failed
        cases failed
      · rw [notWhole] at failed
        cases failed
        exact iff_of_false (not_extendable_stars (.inl wrong)) Bool.false_ne_true
  | group start choice part =>
      cases failed
      obtain ⟨c, completes⟩ := exists_readAll_group position start reversed choice part
      exact iff_of_true ⟨['\\', c, ']'], completes⟩ rfl

theorem exists_fault_of_dangling (scan : Scan) : ∃ fault, scan.read .dangling = .error fault := by
  obtain ⟨position, reversed, phase⟩ := scan
  cases phase with
  | group start choice part => cases part <;> exact ⟨_, rfl⟩
  | _ => exact ⟨_, rfl⟩

theorem extendable_iff_of_dangling (failed : scan.read .dangling = .error fault) :
    scan.Extendable ['\\'] ↔ fault.reason.isUnfinished = true := by
  obtain ⟨position, reversed, phase⟩ := scan
  cases phase with
  | outside =>
      cases failed
      exact iff_of_true ⟨['a'], _, readAll_literal position reversed 'a'⟩ rfl
  | star start =>
      cases failed
      refine iff_of_true ⟨['a'], reversed.reverse ++ [.any, .literal 'a'], ?_⟩ rfl
      rw [readAll_star (by decide)]
      change readAll _ ['\\', 'a'] = _
      rw [readAll_literal]
      simp
  | stars start =>
      cases failed
      apply iff_of_false
      · exact not_extendable_stars (.inr ⟨'\\', rfl, by decide⟩)
      · exact Bool.false_ne_true
  | group start choice part =>
      obtain ⟨c, completes⟩ := exists_readAll_group position start reversed choice part
      cases part <;> cases failed <;> exact iff_of_true ⟨[c, ']'], completes⟩ rfl

end End

section Step

variable {scan : Scan} {mark : Mark} {fault : Fault}

theorem Outcome.finished {result : Except Fault Scan} (outcome : Outcome scan mark result)
    (notDangling : mark ≠ .dangling) (failed : result = .error fault) :
    fault.reason.isUnfinished = false := by
  cases outcome with
  | dangling isDangling => exact absurd isDangling notDangling
  | wrong definite =>
      cases failed
      exact definite.finished
  | wrongStart _ definite =>
      cases failed
      exact definite.finished
  | emptyRange =>
      cases failed
      rfl
  | _ => cases failed

theorem extendable_iff_of_step {rest : List Char} (plain : mark.IsPlain)
    (notDangling : mark ≠ .dangling)
    (reads : ∀ later,
      scan.readAll (mark.text ++ later) = (scan.read mark).bind fun next => next.readAll later)
    (later : ∀ next : Scan, next.readAll rest = .error fault →
      (next.Extendable rest ↔ fault.reason.isUnfinished = true))
    (failed : scan.readAll (mark.text ++ rest) = .error fault) :
    scan.Extendable (mark.text ++ rest) ↔ fault.reason.isUnfinished = true := by
  have extended : ∀ more, scan.readAll (mark.text ++ rest ++ more) =
      (scan.read mark).bind fun next => next.readAll (rest ++ more) := by
    intro more
    rw [List.append_assoc, reads]
  rw [reads] at failed
  simp only [Extendable, extended]
  cases result : scan.read mark with
  | error found =>
      rw [result] at failed
      cases failed
      rw [(outcome_of_read scan plain).finished notDangling result]
      apply iff_of_false
      · rintro ⟨more, tokens, succeeded⟩
        cases succeeded
      · exact Bool.false_ne_true
  | ok next =>
      rw [result] at failed
      exact later next failed

/-- A scan that fails succeeds on a continuation of the text exactly if the fault is that something
is unfinished. -/
theorem extendable_iff {text : List Char} (failed : scan.readAll text = .error fault) :
    scan.Extendable text ↔ fault.reason.isUnfinished = true := by
  induction text using Mark.textInduction generalizing scan with
  | nil => exact extendable_iff_of_finish failed
  | dangling =>
      obtain ⟨found, result⟩ := exists_fault_of_dangling scan
      rw [readAll_dangling, result] at failed
      cases failed
      exact extendable_iff_of_dangling result
  | escaped c rest inductionHypothesis =>
      have plain : (Mark.escaped c).IsPlain := by simp [Mark.IsPlain]
      exact extendable_iff_of_step plain (by simp) (readAll_escaped scan c)
        (fun next => inductionHypothesis) failed
  | bare c rest notEscape inductionHypothesis =>
      have plain : (Mark.bare c).IsPlain := by simp [Mark.IsPlain, notEscape]
      exact extendable_iff_of_step plain (by simp) (readAll_bare scan notEscape)
        (fun next => inductionHypothesis) failed

end Step

end Scan

theorem isUnfinished_iff {reason : Reason} :
    reason.isUnfinished = true ↔ reason = .danglingEscape ∨ reason = .unterminatedGroup := by
  cases reason <;> simp [Reason.isUnfinished]

/-- A text with a fault has a continuation that compiles exactly if it is unfinished. -/
theorem exists_compile_append_iff {text : String} {error : PatternError}
    (failed : compile text = .error error) :
    (∃ more pattern, compile (text ++ more) = .ok pattern) ↔
      error.fault.reason.isUnfinished = true := by
  rw [← Scan.extendable_iff (compile_eq_error_iff.mp failed).1]
  constructor
  · rintro ⟨more, pattern, compiled⟩
    refine ⟨more.toList, pattern.tokens, ?_⟩
    rw [← String.toList_append]
    exact exists_compile_iff.mp ⟨pattern, compiled, rfl⟩
  · rintro ⟨more, tokens, succeeded⟩
    have spelled : tokensOf (text ++ String.ofList more).toList = .ok tokens := by
      rw [String.toList_append, String.toList_ofList]
      exact succeeded
    obtain ⟨pattern, compiled, _⟩ := exists_compile_iff.mpr spelled
    exact ⟨_, pattern, compiled⟩

/-- Something unfinished can be finished, and any other fault lasts. -/
theorem unfinished_or_wrong {text : String} {error : PatternError}
    (failed : compile text = .error error) :
    (error.fault.reason = .danglingEscape ∨ error.fault.reason = .unterminatedGroup →
      ∃ more pattern, compile (text ++ more) = .ok pattern) ∧
    (¬(error.fault.reason = .danglingEscape ∨ error.fault.reason = .unterminatedGroup) →
      ∀ more, ∃ later, compile (text ++ more) = .error later) := by
  rw [← isUnfinished_iff, ← exists_compile_append_iff failed]
  refine ⟨id, ?_⟩
  intro wrong more
  cases compiled : compile (text ++ more) with
  | ok pattern => exact absurd ⟨more, pattern, compiled⟩ wrong
  | error later => exact ⟨later, rfl⟩

/-- A group that was opened can be completed. A group that was not opened cannot be closed. -/
theorem unfinished_or_wrong_bracket :
    compile "a[" = .error ⟨"a[", ⟨1, .unterminatedGroup⟩⟩ ∧
      (∃ more pattern, compile ("a[" ++ more) = .ok pattern) ∧
      compile "a]" = .error ⟨"a]", ⟨1, .unexpectedClose⟩⟩ ∧
      ∀ more, ∃ later, compile ("a]" ++ more) = .error later := by
  have opened : compile "a[" = .error ⟨"a[", ⟨1, .unterminatedGroup⟩⟩ :=
    compile_eq_error_iff.mpr ⟨by decide, rfl⟩
  have closed : compile "a]" = .error ⟨"a]", ⟨1, .unexpectedClose⟩⟩ :=
    compile_eq_error_iff.mpr ⟨by decide, rfl⟩
  exact ⟨opened, (unfinished_or_wrong opened).1 (.inr rfl), closed,
    (unfinished_or_wrong closed).2 (by simp)⟩

end TreeWatch.Pattern
