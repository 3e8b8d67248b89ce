import TreeWatch.Proofs.Pattern.Segments

/-!
The wildcard for directories between two parts of a pattern.

Behind a separator the scan starts afresh, so what is written there is read as it would be on its
own. Hence a wildcard for directories can be put between two parts of a pattern, or put there once
more. A second one changes nothing, and the first one loses no path of proper names, since it may
take no directory at all.
-/

namespace TreeWatch

/-- Whether tokens end where a segment of a pattern does. -/
def ClosesSegment (tokens : List Token) : Prop := ∀ last ∈ tokens.getLast?, last = .separator

theorem ClosesSegment.cases_cons {token : Token} {later : List Token}
    (closes : ClosesSegment (token :: later)) :
    token = .separator ∧ later = [] ∨ later ≠ [] ∧ ClosesSegment later := by
  cases later with
  | nil => exact .inl ⟨closes token rfl, rfl⟩
  | cons second later =>
      rw [ClosesSegment, List.getLast?_cons_cons] at closes
      exact .inr ⟨by simp, closes⟩

theorem ClosesSegment.of_cons {token : Token} {later : List Token}
    (closes : ClosesSegment (token :: later)) : ClosesSegment later := by
  obtain ⟨_, rfl⟩ | ⟨_, closesLater⟩ := closes.cases_cons
  · simp [ClosesSegment]
  · exact closesLater

namespace Pattern

section Reading

variable {head tail : List Char} {before tokens : List Token}

theorem tokensOf_append_iff (compiled : tokensOf head = .ok before)
    (closes : ClosesSegment before) :
    tokensOf (head ++ tail) = .ok tokens ↔
      ∃ behind, tokens = before ++ behind ∧ WellFormed tokens ∧ Spells behind tail := by
  obtain ⟨wellFormed, spelled⟩ := Scan.tokensOf_eq_ok_iff.mp compiled
  have separated : ∀ last ∈ before.getLast?, Scan.EndsBefore last tail := by
    intro last member
    cases closes last member
    exact ⟨by simp, by simp⟩
  have reads := Scan.readAll_append spelled separated 0 [] (by simpa using wellFormed)
  rw [List.append_nil] at reads
  rw [Scan.tokensOf_eq_readAll, Scan.initial, reads]
  constructor
  · intro succeeded
    obtain ⟨whole, behind, rfl, spelledBehind⟩ := Scan.spells_of_readAll
      (by simpa using wellFormed) (by simpa using separated) succeeded
    exact ⟨behind, by simp, whole, spelledBehind⟩
  · rintro ⟨behind, rfl, whole, spelledBehind⟩
    rw [Scan.readAll_of_spells spelledBehind _ _ (by simpa using whole), List.reverse_reverse]

theorem spells_directories {behind : List Token} (spelled : Spells behind tail) :
    Spells (.directories :: .separator :: behind) (['*', '*', '/'] ++ tail) := by
  have whole : Spells (.directories :: .separator :: behind) (['*', '*'] ++ (['/'] ++ tail)) :=
    .cons .directories (.cons .separator spelled)
  exact whole

theorem tokensOf_directories_iff (compiled : tokensOf head = .ok before)
    (closes : ClosesSegment before) :
    tokensOf (head ++ (['*', '*', '/'] ++ tail)) = .ok tokens ↔
      ∃ behind, tokens = before ++ .directories :: .separator :: behind ∧ WellFormed tokens ∧
        Spells behind tail := by
  have wildcard : tokensOf ['*', '*', '/'] = .ok [.directories, .separator] := rfl
  have wildcardCloses : ClosesSegment [.directories, .separator] := by simp [ClosesSegment]
  rw [tokensOf_append_iff compiled closes]
  constructor
  · rintro ⟨later, rfl, whole, spelled⟩
    have alone := Scan.tokensOf_eq_ok_iff.mpr ⟨whole.right_of_append, spelled⟩
    obtain ⟨behind, rfl, _, spelledBehind⟩ := (tokensOf_append_iff wildcard wildcardCloses).mp alone
    exact ⟨behind, rfl, whole, spelledBehind⟩
  · rintro ⟨behind, rfl, whole, spelledBehind⟩
    exact ⟨_, rfl, whole, spells_directories spelledBehind⟩

theorem WellFormed.repeat_directories {behind : List Token}
    (wellFormed : WellFormed (before ++ .directories :: .separator :: behind)) :
    WellFormed (before ++ .directories :: .separator :: .directories :: .separator :: behind) := by
  obtain ⟨adjoin, groups⟩ := wellFormed
  obtain ⟨chainBefore, chainBehind, across⟩ := List.isChain_append.mp adjoin
  have first : Adjoins .directories .separator := by constructor <;> simp
  have second : Adjoins .separator .directories := by constructor <;> simp
  constructor
  · refine List.isChain_append.mpr ⟨chainBefore, ?_, across⟩
    exact .cons_cons first (.cons_cons second chainBehind)
  · intro choice member
    apply groups choice
    simpa using member

end Reading

end Pattern

open Pattern (WellFormed)

/-- Whether the last character of a path belongs to a name. -/
def EndsInName (path : List Char) : Prop := ∃ c ∈ path.getLast?, c ≠ separator

theorem EndsInName.of_append {taken rest : List Char} (ends : EndsInName (taken ++ rest))
    (present : rest ≠ []) : EndsInName rest := by
  rwa [EndsInName, List.getLast?_append_of_ne_nil taken present] at ends

theorem endsInName_joined {names : List (List Char)} (present : names ≠ [])
    (named : ∀ name ∈ names, name ≠ [] ∧ separator ∉ name) : EndsInName (joined names) := by
  induction names with
  | nil => exact absurd rfl present
  | cons name names inductionHypothesis =>
      cases names with
      | nil =>
          obtain ⟨nonempty, free⟩ := named name List.mem_cons_self
          rw [joined_singleton]
          refine ⟨name.getLast nonempty, List.getLast?_eq_some_getLast nonempty, ?_⟩
          intro same
          exact free (same ▸ List.getLast_mem nonempty)
      | cons next names =>
          obtain ⟨c, last, notSeparator⟩ := inductionHypothesis (by simp)
            (fun other member => named other (List.mem_cons_of_mem name member))
          refine ⟨c, ?_, notSeparator⟩
          rw [joined_cons_cons, List.getLast?_append, List.getLast?_cons, last]
          rfl

namespace Covers

variable {before behind : List Token} {path : List Char}

theorem not_nil_of_closes (wellFormed : WellFormed (before ++ behind))
    (closes : ClosesSegment before) (present : before ≠ []) : ¬Covers (before ++ behind) [] := by
  rw [nil_iff wellFormed]
  match before with
  | [] => exact absurd rfl present
  | [token] =>
      cases closes token rfl
      cases behind <;> simp [Cursor.takesNothing, Token.isStretch]
  | _ :: _ :: _ => simp [Cursor.takesNothing]

theorem rest_ne_nil {token : Token} {c : Char} {rest : List Char}
    (wellFormed : WellFormed (token :: before ++ behind)) (closes : ClosesSegment (token :: before))
    (accepted : token.accepts c = true) (ends : EndsInName (c :: rest))
    (covered : Covers (before ++ behind) rest) : rest ≠ [] := by
  rintro rfl
  obtain ⟨rfl, rfl⟩ | ⟨present, closesLater⟩ := closes.cases_cons
  · obtain ⟨last, same, notSeparator⟩ := ends
    cases same
    exact notSeparator (eq_of_beq accepted)
  · exact not_nil_of_closes wellFormed.of_cons closesLater present covered

/-- Tokens behind the end of a segment can be replaced by others that cover as much, provided that
some of the path is left for them. -/
theorem of_behind {before behind others : List Token} {path : List Char}
    (wellFormed : WellFormed (before ++ behind)) (closes : ClosesSegment before)
    (leaves : Covers behind [] → EndsInName path)
    (covers : ∀ rest, rest ≠ [] → Covers behind rest → Covers others rest)
    (covered : Covers (before ++ behind) path) : Covers (before ++ others) path := by
  match before, path with
  | [], path =>
      apply covers path ?_ covered
      rintro rfl
      obtain ⟨c, last, _⟩ := leaves covered
      cases last
  | .any :: before, path =>
      obtain ⟨isSeparator, _⟩ | ⟨present, closesLater⟩ := closes.cases_cons
      · cases isSeparator
      · obtain ⟨stretch, rest, rfl, free, coveredRest⟩ := any_iff.mp covered
        have left : rest ≠ [] := by
          rintro rfl
          exact not_nil_of_closes wellFormed.of_cons closesLater present coveredRest
        have leavesRest := fun nothing => (leaves nothing).of_append left
        exact .any free (of_behind wellFormed.of_cons closesLater leavesRest covers coveredRest)
  | [.directories], path => cases closes _ rfl
  | .directories :: second :: before, path =>
      cases wellFormed.adjoins.behindDirectories rfl
      obtain ⟨names, rest, rfl, named, left, coveredRest⟩ := directories_iff.mp covered
      have leavesRest := fun nothing => (leaves nothing).of_append left
      exact .directories named left
        (of_behind wellFormed.of_cons.of_cons closes.of_cons.of_cons leavesRest covers coveredRest)
  | .literal _ :: before, []
  | .separator :: before, []
  | .single :: before, []
  | .group _ :: before, [] => exact absurd covered (not_cons_nil rfl)
  | .literal _ :: before, c :: rest
  | .separator :: before, c :: rest
  | .single :: before, c :: rest
  | .group _ :: before, c :: rest =>
      obtain ⟨accepted, coveredRest⟩ := (cons_iff rfl).mp covered
      have leavesRest : Covers behind [] → EndsInName rest := by
        intro nothing
        have ends : EndsInName ([c] ++ rest) := leaves nothing
        exact ends.of_append (rest_ne_nil wellFormed closes accepted ends coveredRest)
      exact .one accepted
        (of_behind wellFormed.of_cons closes.of_cons leavesRest covers coveredRest)

theorem directories_repeat_iff {later : List Token} :
    Covers (.directories :: .separator :: .directories :: .separator :: later) path ↔
      Covers (.directories :: .separator :: later) path := by
  constructor
  · intro covered
    obtain ⟨names, rest, rfl, named, _, coveredRest⟩ := directories_iff.mp covered
    obtain ⟨others, final, rfl, othersNamed, left, coveredFinal⟩ := directories_iff.mp coveredRest
    apply directories_iff.mpr
    refine ⟨names ++ others, final, by simp, ?_, left, coveredFinal⟩
    intro name member
    exact (List.mem_append.mp member).elim (named name) (othersNamed name)
  · intro covered
    apply directories_iff.mpr
    refine ⟨[], path, rfl, by simp, ?_, covered⟩
    rintro rfl
    exact not_directories_nil covered

theorem behind_repeat_iff (wellFormed : WellFormed (before ++ .directories :: .separator :: behind))
    (closes : ClosesSegment before) :
    Covers (before ++ .directories :: .separator :: .directories :: .separator :: behind) path ↔
      Covers (before ++ .directories :: .separator :: behind) path := by
  have never : ∀ {later : List Token}, Covers (.directories :: .separator :: later) [] →
      EndsInName path := fun nothing => absurd nothing not_directories_nil
  constructor
  · intro covered
    apply of_behind wellFormed.repeat_directories closes never ?_ covered
    intro rest _ coveredRest
    exact directories_repeat_iff.mp coveredRest
  · intro covered
    apply of_behind wellFormed closes never ?_ covered
    intro rest _ coveredRest
    exact directories_repeat_iff.mpr coveredRest

theorem insert_directories (wellFormed : WellFormed (before ++ behind))
    (closes : ClosesSegment before) (ends : EndsInName path)
    (covered : Covers (before ++ behind) path) :
    Covers (before ++ .directories :: .separator :: behind) path := by
  apply of_behind wellFormed closes (fun _ => ends) ?_ covered
  intro rest left coveredRest
  apply directories_iff.mpr
  exact ⟨[], rest, rfl, by simp, left, coveredRest⟩

end Covers

namespace Pattern

variable {head tail : String} {before : List Token}

theorem tokens_of_written {pattern : Pattern} (closes : ClosesSegment before)
    (compiled : tokensOf head.toList = .ok before)
    (written : compile (head ++ "**/" ++ tail) = .ok pattern) :
    ∃ behind, pattern.tokens = before ++ .directories :: .separator :: behind ∧
      Spells behind tail.toList := by
  have text : pattern.text.toList = head.toList ++ (['*', '*', '/'] ++ tail.toList) := by
    rw [compile_eq_ok_iff.mp written, String.toList_append, String.toList_append, List.append_assoc]
    rfl
  have tokens := pattern.compiled
  rw [text] at tokens
  obtain ⟨behind, same, _, spelled⟩ := (tokensOf_directories_iff compiled closes).mp tokens
  exact ⟨behind, same, spelled⟩

/-- Where a wildcard for directories can be written it can be written twice, and the pattern matches
as before. -/
theorem exists_repeated (compiled : tokensOf head.toList = .ok before)
    (closes : ClosesSegment before) {once : Pattern}
    (written : compile (head ++ "**/" ++ tail) = .ok once) :
    ∃ twice, compile (head ++ "**/**/" ++ tail) = .ok twice ∧
      ∀ path, once.matches path = twice.matches path := by
  obtain ⟨behind, tokens, spelled⟩ := tokens_of_written closes compiled written
  have wellFormed := once.wellFormed_tokens
  rw [tokens] at wellFormed
  have text : (head ++ "**/**/" ++ tail).toList =
      head.toList ++ (['*', '*', '/'] ++ (['*', '*', '/'] ++ tail.toList)) := by
    rw [String.toList_append, String.toList_append, List.append_assoc]
    rfl
  have repeated : tokensOf (head ++ "**/**/" ++ tail).toList =
      .ok (before ++ .directories :: .separator :: .directories :: .separator :: behind) := by
    rw [text, tokensOf_directories_iff compiled closes]
    exact ⟨_, rfl, wellFormed.repeat_directories, spells_directories spelled⟩
  obtain ⟨twice, writtenTwice, twiceTokens⟩ := exists_compile_iff.mpr repeated
  refine ⟨twice, writtenTwice, fun path => ?_⟩
  rw [Bool.eq_iff_iff, Pattern.matches, tokensMatch_iff_covers once.wellFormed_tokens,
    Pattern.matches, tokensMatch_iff_covers twice.wellFormed_tokens, tokens, twiceTokens]
  exact (Covers.behind_repeat_iff wellFormed closes).symm

/-- A wildcard for directories that is inserted where a segment ends loses no path that ends in a
name. -/
theorem matches_of_inserted (compiled : tokensOf head.toList = .ok before)
    (closes : ClosesSegment before) {plain inserted : Pattern}
    (writtenPlain : compile (head ++ tail) = .ok plain)
    (written : compile (head ++ "**/" ++ tail) = .ok inserted) {path : String}
    (ends : EndsInName path.toList) (matched : plain.matches path = true) :
    inserted.matches path = true := by
  have plainText : plain.text.toList = head.toList ++ tail.toList := by
    rw [compile_eq_ok_iff.mp writtenPlain, String.toList_append]
  have plainCompiled := plain.compiled
  rw [plainText, tokensOf_append_iff compiled closes] at plainCompiled
  obtain ⟨behind, plainTokens, plainWellFormed, plainSpelled⟩ := plainCompiled
  obtain ⟨others, tokens, spelled⟩ := tokens_of_written closes compiled written
  have wellFormed := inserted.wellFormed_tokens
  rw [tokens] at wellFormed
  rw [plainTokens] at plainWellFormed
  have one := Scan.tokensOf_eq_ok_iff.mpr ⟨plainWellFormed.right_of_append, plainSpelled⟩
  have other := Scan.tokensOf_eq_ok_iff.mpr
    ⟨wellFormed.right_of_append.of_cons.of_cons, spelled⟩
  cases one.symm.trans other
  rw [Pattern.matches, tokensMatch_iff_covers plain.wellFormed_tokens, plainTokens] at matched
  rw [Pattern.matches, tokensMatch_iff_covers inserted.wellFormed_tokens, tokens]
  exact Covers.insert_directories plainWellFormed closes ends matched

/-- Between two parts of a pattern, the first of which is nothing or ends with a separator, a second
wildcard for directories changes nothing, and a first one keeps every path of names. -/
theorem matches_between_parts (head tail : String)
    (closes : head = "" ∨
      ∃ part, compile head = .ok part ∧ part.tokens.getLast? = some .separator) :
    (∀ once, compile (head ++ "**/" ++ tail) = .ok once →
      ∃ twice, compile (head ++ "**/**/" ++ tail) = .ok twice ∧
        ∀ path, once.matches path = twice.matches path) ∧
    ∀ plain once, compile (head ++ tail) = .ok plain →
      compile (head ++ "**/" ++ tail) = .ok once →
      ∀ names : List String, names ≠ [] → (∀ name ∈ names, name ≠ "" ∧ separator ∉ name.toList) →
        plain.matches ("/".intercalate names) = true →
        once.matches ("/".intercalate names) = true := by
  obtain ⟨before, compiled, closesBefore⟩ :
      ∃ before, tokensOf head.toList = .ok before ∧ ClosesSegment before := by
    obtain rfl | ⟨part, compiled, last⟩ := closes
    · exact ⟨[], rfl, by simp [ClosesSegment]⟩
    · refine ⟨part.tokens, exists_compile_iff.mp ⟨part, compiled, rfl⟩, ?_⟩
      intro token member
      exact (Option.some.inj (last.symm.trans member)).symm
  refine ⟨fun once => exists_repeated compiled closesBefore, ?_⟩
  intro plain once writtenPlain written names present named
  apply matches_of_inserted compiled closesBefore writtenPlain written
  rw [String.toList_intercalate]
  apply endsInName_joined (by simpa using present)
  intro name member
  obtain ⟨text, textMember, rfl⟩ := List.mem_map.mp member
  simpa using named text textMember

/-- A source file that lies right below the directory of the sources. -/
theorem matches_between_parts_sources :
    ∃ part plain once twice, compile "lib/" = .ok part ∧ part.tokens.getLast? = some .separator ∧
      compile ("lib/" ++ "*.c") = .ok plain ∧ plain.matches "lib/a.c" = true ∧
      compile ("lib/" ++ "**/" ++ "*.c") = .ok once ∧ once.matches "lib/a.c" = true ∧
      compile ("lib/" ++ "**/**/" ++ "*.c") = .ok twice ∧
      ∀ path, once.matches path = twice.matches path := by
  obtain ⟨part, compiled, partTokens⟩ : ∃ part, compile "lib/" = .ok part ∧
      part.tokens = [.literal 'l', .literal 'i', .literal 'b', .separator] :=
    exists_compile_iff.mpr (by decide)
  obtain ⟨plain, writtenPlain, plainTokens⟩ : ∃ plain, compile ("lib/" ++ "*.c") = .ok plain ∧
      plain.tokens = part.tokens ++ [.any, .literal '.', .literal 'c'] :=
    exists_compile_iff.mpr (by rw [partTokens]; decide)
  obtain ⟨once, written, _⟩ : ∃ once, compile ("lib/" ++ "**/" ++ "*.c") = .ok once ∧
      once.tokens =
        part.tokens ++ [.directories, .separator, .any, .literal '.', .literal 'c'] :=
    exists_compile_iff.mpr (by rw [partTokens]; decide)
  have last : part.tokens.getLast? = some .separator := by rw [partTokens]; rfl
  have between := matches_between_parts "lib/" "*.c" (.inr ⟨part, compiled, last⟩)
  obtain ⟨twice, writtenTwice, same⟩ := between.1 once written
  have path : "/".intercalate ["lib", "a.c"] = "lib/a.c" := by decide
  have matched : plain.matches ("/".intercalate ["lib", "a.c"]) = true := by
    rw [Pattern.matches, plainTokens, partTokens, path]
    cbv
  have kept :=
    between.2 plain once writtenPlain written ["lib", "a.c"] (by simp) (by decide) matched
  rw [path] at matched kept
  exact ⟨part, plain, once, twice, compiled, last, writtenPlain, matched, written, kept,
    writtenTwice, same⟩

end Pattern

end TreeWatch
