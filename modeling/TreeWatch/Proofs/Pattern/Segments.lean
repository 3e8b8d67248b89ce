import TreeWatch.Proofs.Pattern.Covering

/-!
Matching by whole names.

Cut at its separators, a pattern is a list of segments, and a path a list of names. A segment of
ordinary tokens takes one name; a wildcard for directories takes any number of them, but at least
one if it comes last. On paths of proper names this agrees with the search through the characters,
unless a pattern spells a separator as an ordinary character.
-/

namespace TreeWatch

/-- Whether segments can consume all names, each the names that it is for. -/
inductive Consumes : List (List Token) → List (List Char) → Prop where
  | nil : Consumes [] []
  /-- An ordinary segment consumes one name, which it matches on its own. -/
  | name {segment name later names} : segment ≠ [.directories] →
      tokensMatch segment name = true → Consumes later names →
      Consumes (segment :: later) (name :: names)
  | lastDirectories {names} : names ≠ [] → Consumes [[.directories]] names
  | directories {later names} (taken) : later ≠ [] → Consumes later names →
      Consumes ([.directories] :: later) (taken ++ names)

namespace Consumes

variable {name : List Char} {later : List (List Token)} {names : List (List Char)}

theorem nil_iff {names : List (List Char)} : Consumes [] names ↔ names = [] := by
  constructor
  · intro consumes
    cases consumes
    rfl
  · rintro rfl
    exact .nil

theorem name_iff {segment : List Token} (ordinary : segment ≠ [.directories]) :
    Consumes (segment :: later) (name :: names) ↔
      tokensMatch segment name = true ∧ Consumes later names := by
  constructor
  · generalize whole : name :: names = path
    intro consumes
    cases consumes with
    | name _ matched consumed =>
        cases whole
        exact ⟨matched, consumed⟩
    | lastDirectories => exact absurd rfl ordinary
    | directories => exact absurd rfl ordinary
  · rintro ⟨matched, consumed⟩
    exact .name ordinary matched consumed

theorem names_ne_nil {segments : List (List Token)} (consumes : Consumes segments names)
    (present : segments ≠ []) : names ≠ [] := by
  induction consumes with
  | nil => exact absurd rfl present
  | name => simp
  | lastDirectories nonempty => exact nonempty
  | directories taken more _ inductionHypothesis =>
      intro none
      exact inductionHypothesis more (List.append_eq_nil_iff.mp none).2

theorem lastDirectories_iff : Consumes [[.directories]] names ↔ names ≠ [] :=
  ⟨fun consumes => consumes.names_ne_nil (by simp), .lastDirectories⟩

theorem directories_iff (more : later ≠ []) :
    Consumes ([.directories] :: later) (name :: names) ↔
      Consumes later (name :: names) ∨ Consumes ([.directories] :: later) names := by
  constructor
  · generalize whole : name :: names = path
    intro consumes
    cases consumes with
    | name ordinary => exact absurd rfl ordinary
    | lastDirectories => exact absurd rfl more
    | directories taken _ consumed =>
        cases taken with
        | nil => exact .inl consumed
        | cons first taken =>
            cases whole
            exact .inr (.directories taken more consumed)
  · rintro (consumed | consumes)
    · exact .directories [] more consumed
    · cases consumes with
      | name ordinary => exact absurd rfl ordinary
      | lastDirectories => exact absurd rfl more
      | directories taken _ consumed =>
          exact .directories (name :: taken) more consumed

end Consumes

def joined (names : List (List Char)) : List Char := [separator].intercalate names

theorem joined_singleton (name : List Char) : joined [name] = name :=
  List.intercalate_singleton

theorem joined_cons_cons (name next : List Char) (names : List (List Char)) :
    joined (name :: next :: names) = name ++ separator :: joined (next :: names) := by
  rw [joined, List.intercalate_cons_cons, List.append_assoc]
  rfl

/-- Whether what the token takes cannot hold a separator. -/
structure Token.StaysInName (token : Token) : Prop where
  separator : token ≠ .separator
  directories : token ≠ .directories
  literal : token ≠ .literal TreeWatch.separator

theorem Token.StaysInName.ne_separator {token : Token} (stays : token.StaysInName) {c : Char}
    (accepted : token.accepts c = true) : c ≠ TreeWatch.separator := by
  rintro rfl
  cases token with
  | literal expected =>
      apply stays.literal
      rw [eq_of_beq accepted]
  | separator => exact stays.separator rfl
  | single => cases accepted
  | group => cases accepted
  | any => cases accepted
  | directories => cases accepted

namespace Covers

open Cursor (afterDirectory? afterDirectory?_eq_some_iff)
open Cursor (afterSeparator? afterSeparator?_eq_some_iff)

variable {segment later : List Token} {name rest : List Char}

theorem append_iff {path : List Char} (plain : .directories ∉ segment) :
    Covers (segment ++ later) path ↔
      ∃ taken rest, path = taken ++ rest ∧ Covers segment taken ∧ Covers later rest := by
  induction segment generalizing path with
  | nil =>
      constructor
      · intro covered
        exact ⟨[], path, rfl, .nil, covered⟩
      · rintro ⟨taken, rest, rfl, nothing, covered⟩
        cases nothing
        exact covered
  | cons token segment inductionHypothesis =>
      obtain ⟨notDirectories, plainRest⟩ := not_or.mp (List.mem_cons.not.mp plain)
      rw [List.cons_append]
      by_cases isAny : token = .any
      · subst isAny
        simp only [any_iff, inductionHypothesis plainRest]
        constructor
        · rintro ⟨stretch, _, rfl, free, taken, rest, rfl, covered, coveredLater⟩
          exact ⟨stretch ++ taken, rest, (List.append_assoc _ _ _).symm,
            ⟨stretch, taken, rfl, free, covered⟩, coveredLater⟩
        · rintro ⟨_, rest, rfl, ⟨stretch, taken, rfl, free, covered⟩, coveredLater⟩
          exact ⟨stretch, taken ++ rest, List.append_assoc _ _ _, free, taken, rest, rfl, covered,
            coveredLater⟩
      · have single : token.isStretch = false := by
          rw [Bool.eq_false_iff, ne_eq, isStretch_iff]
          simp [isAny, Ne.symm notDirectories]
        cases path with
        | nil =>
            refine iff_of_false (not_cons_nil single) ?_
            rintro ⟨taken, rest, same, covered, _⟩
            cases (List.append_eq_nil_iff.mp same.symm).1
            exact not_cons_nil single covered
        | cons c path =>
            rw [cons_iff single, inductionHypothesis plainRest]
            constructor
            · rintro ⟨accepted, taken, rest, rfl, covered, coveredLater⟩
              exact ⟨c :: taken, rest, rfl, .one accepted covered, coveredLater⟩
            · rintro ⟨taken, rest, same, covered, coveredLater⟩
              cases taken with
              | nil => exact absurd covered (not_cons_nil single)
              | cons d taken =>
                  cases same
                  obtain ⟨accepted, covered⟩ := (cons_iff single).mp covered
                  exact ⟨accepted, taken, rest, rfl, covered, coveredLater⟩

theorem separator_not_mem (covers : Covers segment name)
    (stays : ∀ token ∈ segment, token.StaysInName) : separator ∉ name := by
  induction covers with
  | nil => simp
  | one accepted _ inductionHypothesis =>
      have different := (stays _ List.mem_cons_self).ne_separator accepted
      have free :=
        inductionHypothesis fun token member => stays token (List.mem_cons_of_mem _ member)
      simp [Ne.symm different, free]
  | any free _ inductionHypothesis =>
      have freeRest :=
        inductionHypothesis fun token member => stays token (List.mem_cons_of_mem _ member)
      simp [free, freeRest]
  | lastDirectories => exact absurd rfl (stays _ List.mem_cons_self).directories
  | directories => exact absurd rfl (stays _ List.mem_cons_self).directories

theorem separator_iff : Covers (.separator :: later) (separator :: rest) ↔ Covers later rest := by
  rw [cons_iff rfl]
  exact and_iff_right rfl

theorem segment_iff (stays : ∀ token ∈ segment, token.StaysInName) (free : separator ∉ name) :
    Covers (segment ++ .separator :: later) (name ++ separator :: rest) ↔
      Covers segment name ∧ Covers later rest := by
  have plain : .directories ∉ segment := fun member => (stays _ member).directories rfl
  rw [append_iff plain]
  constructor
  · rintro ⟨taken, others, same, covered, coveredLater⟩
    cases others with
    | nil => exact absurd coveredLater (not_cons_nil rfl)
    | cons c others =>
        obtain ⟨accepted, coveredRest⟩ := (cons_iff rfl).mp coveredLater
        cases eq_of_beq accepted
        have first : afterSeparator? (name ++ separator :: rest) = some rest :=
          afterSeparator?_eq_some_iff.mpr ⟨name, free, rfl⟩
        have second : afterSeparator? (name ++ separator :: rest) = some others :=
          afterSeparator?_eq_some_iff.mpr ⟨taken, covered.separator_not_mem stays, same⟩
        cases first.symm.trans second
        exact ⟨List.append_cancel_right same ▸ covered, coveredRest⟩
  · rintro ⟨covered, coveredLater⟩
    exact ⟨name, _, rfl, covered, separator_iff.mpr coveredLater⟩

theorem not_segment (stays : ∀ token ∈ segment, token.StaysInName) (free : separator ∉ name) :
    ¬Covers (segment ++ .separator :: later) name := by
  have plain : .directories ∉ segment := fun member => (stays _ member).directories rfl
  rw [append_iff plain]
  rintro ⟨taken, others, rfl, _, coveredLater⟩
  cases others with
  | nil => exact not_cons_nil rfl coveredLater
  | cons c others =>
      obtain ⟨accepted, _⟩ := (cons_iff rfl).mp coveredLater
      cases eq_of_beq accepted
      simp at free

theorem directories_append_iff (named : name ≠ [] ∧ separator ∉ name) :
    Covers (.directories :: .separator :: later) (name ++ separator :: rest) ↔
      Covers later (name ++ separator :: rest) ∨
        Covers (.directories :: .separator :: later) rest := by
  have found : afterDirectory? (name ++ separator :: rest) = some rest :=
    afterDirectory?_eq_some_iff.mpr ⟨name, named, rfl⟩
  cases name with
  | nil => exact absurd rfl named.1
  | cons c name =>
      rw [List.cons_append] at found ⊢
      rw [directories_cons_iff, found]
      simp

theorem directories_name_iff (named : name ≠ [] ∧ separator ∉ name) :
    Covers (.directories :: .separator :: later) name ↔ Covers later name := by
  have none : afterDirectory? name = none := by
    rw [Option.eq_none_iff_forall_ne_some]
    intro rest found
    obtain ⟨directory, _, same⟩ := afterDirectory?_eq_some_iff.mp found
    exact named.2 (by simp [same])
  cases name with
  | nil => exact absurd rfl named.1
  | cons c name =>
      rw [directories_cons_iff, none]
      simp

end Covers

namespace Pattern

variable {segment later : List Token}

theorem WellFormed.left_of_append (wellFormed : WellFormed (segment ++ later)) :
    WellFormed segment :=
  ⟨wellFormed.adjoin.left_of_append, fun choice member =>
    wellFormed.groups choice (List.mem_append_left _ member)⟩

theorem WellFormed.right_of_append (wellFormed : WellFormed (segment ++ later)) :
    WellFormed later :=
  ⟨wellFormed.adjoin.right_of_append, fun choice member =>
    wellFormed.groups choice (List.mem_append_right _ member)⟩

theorem WellFormed.eq_directories (wellFormed : WellFormed segment)
    (uncut : .separator ∉ segment) (member : .directories ∈ segment) :
    segment = [.directories] := by
  obtain ⟨before, behind, rfl, _⟩ := List.eq_append_cons_of_mem member
  have nothingBehind : behind = [] := by
    cases behind with
    | nil => rfl
    | cons next behind =>
        cases wellFormed.right_of_append.adjoins.behindDirectories rfl
        simp at uncut
  have nothingBefore : before = [] := by
    cases before using List.reverseRecOn with
    | nil => rfl
    | append_singleton before previous =>
        rw [List.append_assoc] at wellFormed
        cases wellFormed.right_of_append.adjoins.beforeDirectories rfl
        simp at uncut
  rw [nothingBefore, nothingBehind]
  rfl

theorem WellFormed.staysInName (wellFormed : WellFormed segment) (uncut : .separator ∉ segment)
    (unescaped : .literal separator ∉ segment) (ordinary : segment ≠ [.directories]) :
    ∀ token ∈ segment, token.StaysInName := by
  intro token member
  constructor
  · rintro rfl
    exact uncut member
  · rintro rfl
    exact ordinary (wellFormed.eq_directories uncut member)
  · rintro rfl
    exact unescaped member

end Pattern

open Pattern (WellFormed)

section Joined

variable {segment later : List Token} {segments : List (List Token)} {names : List (List Char)}

theorem covers_ordinary_iff (wellFormed : WellFormed segment)
    (stays : ∀ token ∈ segment, token.StaysInName) (ordinary : segment ≠ [.directories])
    (more : segments ≠ []) (present : names ≠ [])
    (named : ∀ name ∈ names, name ≠ [] ∧ separator ∉ name)
    (laterConsumes : ∀ names, names ≠ [] → (∀ name ∈ names, name ≠ [] ∧ separator ∉ name) →
      (Covers later (joined names) ↔ Consumes segments names)) :
    Covers (segment ++ .separator :: later) (joined names) ↔
      Consumes (segment :: segments) names := by
  match names with
  | [] => exact absurd rfl present
  | [name] =>
      obtain ⟨_, free⟩ := named name List.mem_cons_self
      rw [joined_singleton, Consumes.name_iff ordinary]
      refine iff_of_false (Covers.not_segment stays free) ?_
      rintro ⟨_, consumed⟩
      exact consumed.names_ne_nil more rfl
  | name :: next :: names =>
      obtain ⟨_, free⟩ := named name List.mem_cons_self
      rw [joined_cons_cons, Covers.segment_iff stays free, Consumes.name_iff ordinary,
        tokensMatch_iff_covers wellFormed,
        laterConsumes _ (by simp) fun other member => named other (List.mem_cons_of_mem _ member)]

theorem covers_directories_iff (more : segments ≠ []) (present : names ≠ [])
    (named : ∀ name ∈ names, name ≠ [] ∧ separator ∉ name)
    (laterConsumes : ∀ names, names ≠ [] → (∀ name ∈ names, name ≠ [] ∧ separator ∉ name) →
      (Covers later (joined names) ↔ Consumes segments names)) :
    Covers (.directories :: .separator :: later) (joined names) ↔
      Consumes ([.directories] :: segments) names := by
  induction names with
  | nil => exact absurd rfl present
  | cons name names inductionHypothesis =>
      have nameNamed := named name List.mem_cons_self
      have namesNamed := fun other member => named other (List.mem_cons_of_mem name member)
      rw [Consumes.directories_iff more, ← laterConsumes _ present named]
      cases names with
      | nil =>
          have none : ¬Consumes ([.directories] :: segments) [] :=
            fun consumes => consumes.names_ne_nil (by simp) rfl
          rw [joined_singleton, Covers.directories_name_iff nameNamed]
          simp [none]
      | cons next names =>
          rw [joined_cons_cons, Covers.directories_append_iff nameNamed,
            inductionHypothesis (by simp) namesNamed]

end Joined

/-- Tokens cover a path exactly when their segments consume its names. -/
theorem covers_joined_iff {tokens : List Token} {names : List (List Char)}
    (wellFormed : WellFormed tokens) (unescaped : .literal separator ∉ tokens)
    (present : names ≠ []) (named : ∀ name ∈ names, name ≠ [] ∧ separator ∉ name) :
    Covers tokens (joined names) ↔ Consumes (tokens.splitOn .separator) names := by
  by_cases cut : .separator ∈ tokens
  · obtain ⟨segment, later, rfl, uncut⟩ := List.eq_append_cons_of_mem cut
    have laterConsumes : ∀ names, names ≠ [] → (∀ name ∈ names, name ≠ [] ∧ separator ∉ name) →
        (Covers later (joined names) ↔ Consumes (later.splitOn .separator) names) :=
      fun names present named => covers_joined_iff wellFormed.right_of_append.of_cons
        (fun member => unescaped (by simp [member])) present named
    have more : later.splitOn .separator ≠ [] := List.splitOn_ne_nil _ _
    rw [List.splitOn_append_cons_self_of_not_mem uncut]
    by_cases isDirectories : segment = [.directories]
    · subst isDirectories
      exact covers_directories_iff more present named laterConsumes
    · have stays := wellFormed.left_of_append.staysInName uncut
        (fun member => unescaped (List.mem_append_left _ member)) isDirectories
      exact covers_ordinary_iff wellFormed.left_of_append stays isDirectories more present named
        laterConsumes
  · rw [List.splitOn_eq_singleton cut]
    by_cases isDirectories : tokens = [.directories]
    · subst isDirectories
      rw [Consumes.lastDirectories_iff]
      exact iff_of_true .lastDirectories present
    · have stays := wellFormed.staysInName cut unescaped isDirectories
      match names with
      | [] => exact absurd rfl present
      | [name] =>
          rw [joined_singleton, Consumes.name_iff isDirectories, tokensMatch_iff_covers wellFormed]
          exact (and_iff_left .nil).symm
      | name :: next :: names =>
          rw [Consumes.name_iff isDirectories, Consumes.nil_iff]
          refine iff_of_false ?_ (by simp)
          intro covered
          apply covered.separator_not_mem stays
          simp [joined_cons_cons]
termination_by tokens.length
decreasing_by
  subst_vars
  simp only [List.length_append, List.length_cons]
  omega

/-- A pattern that spells no separator as an ordinary character matches a path of proper names
exactly when its segments can consume the names. -/
theorem Pattern.matches_iff_consumes (pattern : Pattern) {names : List String}
    (unescaped : .literal separator ∉ pattern.tokens) (present : names ≠ [])
    (named : ∀ name ∈ names, name ≠ "" ∧ separator ∉ name.toList) :
    pattern.matches ("/".intercalate names) = true ↔
      Consumes (pattern.tokens.splitOn .separator) (names.map String.toList) := by
  have path : ("/".intercalate names).toList = joined (names.map String.toList) :=
    String.toList_intercalate
  have namedLists : ∀ name ∈ names.map String.toList, name ≠ [] ∧ separator ∉ name := by
    intro name member
    obtain ⟨text, textMember, rfl⟩ := List.mem_map.mp member
    simpa using named text textMember
  rw [Pattern.matches, path, tokensMatch_iff_covers pattern.wellFormed_tokens]
  exact covers_joined_iff pattern.wellFormed_tokens unescaped (by simpa using present) namedLists

/-- Sources in a directory of three letters, however deep it lies. -/
def Pattern.sources : Pattern where
  text := "**/s?c/*.[ch]"
  tokens := [.directories, .separator, .literal 's', .single, .literal 'c', .separator, .any,
    .literal '.', .group ⟨false, ⟨['c', 'h'], by decide⟩, []⟩]
  compiled := rfl

/-- The wildcard for directories leaves the last two names to the segments behind it. -/
theorem Pattern.matches_iff_consumes_sources :
    .literal separator ∉ Pattern.sources.tokens ∧
      (∀ name ∈ ["lib", "core", "src", "a.c"], name ≠ "" ∧ separator ∉ name.toList) ∧
      Pattern.sources.matches "lib/core/src/a.c" = true := by
  have unescaped : .literal separator ∉ Pattern.sources.tokens := by decide
  have named : ∀ name ∈ ["lib", "core", "src", "a.c"], name ≠ "" ∧ separator ∉ name.toList := by
    decide
  have consumed : Consumes (Pattern.sources.tokens.splitOn .separator)
      (["lib", "core", "src", "a.c"].map String.toList) :=
    .directories ["lib".toList, "core".toList] (by decide) <|
      .name (by decide) (by cbv) <| .name (by decide) (by cbv) .nil
  refine ⟨unescaped, named, ?_⟩
  exact (Pattern.matches_iff_consumes Pattern.sources unescaped (by simp) named).mpr consumed

end TreeWatch
