import TreeWatch.Proofs.Pattern.Compilation
import TreeWatch.Proofs.Pattern.Moves

/-!
What it means for tokens to match a path, and that the search decides it.

Tokens cover a path that can be cut into pieces, one for each of them in turn. The relation
follows the tokens; the search follows the characters of the path and knows directories only by
the separators behind them. Tokens that are not well formed may cover paths that the search
misses, since it leaves no more than one wildcard for the end of the path.
-/

namespace TreeWatch

/-- Whether a path can be cut into pieces that the tokens take one after another. -/
inductive Covers : List Token → List Char → Prop where
  | nil : Covers [] []
  | one {token c later rest} : token.accepts c = true → Covers later rest →
      Covers (token :: later) (c :: rest)
  | any {stretch later rest} : separator ∉ stretch → Covers later rest →
      Covers (.any :: later) (stretch ++ rest)
  /-- At the end the wildcard for directories takes whatever is left. -/
  | lastDirectories {rest} : Covers [.directories] rest
  /-- Elsewhere it takes named directories, and what is behind its separator is not empty. -/
  | directories {names : List (List Char)} {later rest} :
      (∀ name ∈ names, name ≠ [] ∧ separator ∉ name) → rest ≠ [] → Covers later rest →
      Covers (.directories :: .separator :: later)
        (names.flatMap (fun name => name ++ [separator]) ++ rest)

namespace Cursor

theorem afterSeparator?_eq_some_iff {path rest : List Char} :
    afterSeparator? path = some rest ↔
      ∃ name, separator ∉ name ∧ path = name ++ separator :: rest := by
  induction path with
  | nil => simp [afterSeparator?]
  | cons c path inductionHypothesis =>
      rw [afterSeparator?]
      split
      · rename_i isSeparator
        subst isSeparator
        constructor
        · rintro ⟨rfl⟩
          exact ⟨[], by simp, rfl⟩
        · rintro ⟨name, free, same⟩
          cases name with
          | nil => simpa using same
          | cons d name =>
              cases same
              exact absurd List.mem_cons_self free
      · rename_i notSeparator
        rw [inductionHypothesis]
        constructor
        · rintro ⟨name, free, rfl⟩
          exact ⟨c :: name, by simp [free, Ne.symm notSeparator], rfl⟩
        · rintro ⟨name, free, same⟩
          cases name with
          | nil =>
              cases same
              exact absurd rfl notSeparator
          | cons d name =>
              cases same
              exact ⟨name, fun member => free (List.mem_cons_of_mem _ member), rfl⟩

theorem afterDirectory?_eq_some_iff {path rest : List Char} :
    afterDirectory? path = some rest ↔
      ∃ name, (name ≠ [] ∧ separator ∉ name) ∧ path = name ++ separator :: rest := by
  cases path with
  | nil => simp [afterDirectory?]
  | cons c path =>
      rw [afterDirectory?]
      split
      · rename_i isSeparator
        simp only [reduceCtorEq, false_iff]
        rintro ⟨name, ⟨nonempty, free⟩, same⟩
        cases name with
        | nil => exact nonempty rfl
        | cons d name =>
            cases same
            exact free (isSeparator ▸ List.mem_cons_self)
      · rename_i notSeparator
        have whole : afterSeparator? path = afterSeparator? (c :: path) := by
          rw [afterSeparator?.eq_2, if_neg notSeparator]
        rw [whole, afterSeparator?_eq_some_iff]
        constructor
        · rintro ⟨name, free, same⟩
          refine ⟨name, ⟨?_, free⟩, same⟩
          rintro rfl
          cases same
          exact notSeparator rfl
        · rintro ⟨name, ⟨_, free⟩, same⟩
          exact ⟨name, free, same⟩

end Cursor

namespace Covers

open Cursor (takesNothing afterDirectory? afterDirectory?_eq_some_iff)

theorem cons_iff {token : Token} (plain : token.isStretch = false) {later : List Token} {c : Char}
    {rest : List Char} :
    Covers (token :: later) (c :: rest) ↔ token.accepts c = true ∧ Covers later rest := by
  constructor
  · generalize whole : c :: rest = path
    intro covers
    cases covers with
    | one accepted covered =>
        cases whole
        exact ⟨accepted, covered⟩
    | _ => cases plain
  · rintro ⟨accepted, covered⟩
    exact .one accepted covered

theorem not_cons_nil {token : Token} (plain : token.isStretch = false) {later : List Token} :
    ¬Covers (token :: later) [] := by
  generalize empty : [] = path
  intro covers
  cases covers with
  | one => cases empty
  | _ => cases plain

theorem any_iff {later : List Token} {path : List Char} :
    Covers (.any :: later) path ↔
      ∃ stretch rest, path = stretch ++ rest ∧ separator ∉ stretch ∧ Covers later rest := by
  constructor
  · intro covers
    cases covers with
    | one accepted => cases accepted
    | any free covered => exact ⟨_, _, rfl, free, covered⟩
  · rintro ⟨stretch, rest, rfl, free, covered⟩
    exact .any free covered

theorem any_cons_iff {later : List Token} {c : Char} {rest : List Char} :
    Covers (.any :: later) (c :: rest) ↔
      Covers later (c :: rest) ∨ c ≠ separator ∧ Covers (.any :: later) rest := by
  constructor
  · intro covers
    obtain ⟨stretch, others, same, free, covered⟩ := any_iff.mp covers
    cases stretch with
    | nil => exact .inl (same ▸ covered)
    | cons d stretch =>
        cases same
        obtain ⟨notSeparator, stillFree⟩ := not_or.mp (List.mem_cons.not.mp free)
        exact .inr ⟨Ne.symm notSeparator, .any stillFree covered⟩
  · rintro (covered | ⟨notSeparator, covers⟩)
    · apply any_iff.mpr
      exact ⟨[], _, rfl, by simp, covered⟩
    · obtain ⟨stretch, others, rfl, free, covered⟩ := any_iff.mp covers
      exact any_iff.mpr
        ⟨c :: stretch, others, rfl, by simp [free, Ne.symm notSeparator], covered⟩

theorem directories_iff {later : List Token} {path : List Char} :
    Covers (.directories :: .separator :: later) path ↔
      ∃ (names : List (List Char)) (rest : List Char),
        path = names.flatMap (fun name => name ++ [separator]) ++ rest ∧
        (∀ name ∈ names, name ≠ [] ∧ separator ∉ name) ∧ rest ≠ [] ∧ Covers later rest := by
  constructor
  · intro covers
    cases covers with
    | one accepted => cases accepted
    | directories named nonempty covered => exact ⟨_, _, rfl, named, nonempty, covered⟩
  · rintro ⟨names, rest, rfl, named, nonempty, covered⟩
    exact .directories named nonempty covered

theorem not_directories_nil {later : List Token} :
    ¬Covers (.directories :: .separator :: later) [] := by
  intro covers
  obtain ⟨names, rest, same, _, nonempty, _⟩ := directories_iff.mp covers
  exact nonempty (List.append_eq_nil_iff.mp same.symm).2

theorem directories_cons_iff {later : List Token} {c : Char} {rest : List Char} :
    Covers (.directories :: .separator :: later) (c :: rest) ↔
      Covers later (c :: rest) ∨ ∃ others, afterDirectory? (c :: rest) = some others ∧
        Covers (.directories :: .separator :: later) others := by
  constructor
  · intro covers
    obtain ⟨names, final, same, named, nonempty, covered⟩ := directories_iff.mp covers
    cases names with
    | nil => exact .inl (same ▸ covered)
    | cons name names =>
        have namedLater := fun name member => named name (List.mem_cons_of_mem _ member)
        refine .inr ⟨_, afterDirectory?_eq_some_iff.mpr ⟨name, named name List.mem_cons_self, ?_⟩,
          .directories namedLater nonempty covered⟩
        simpa using same
  · rintro (covered | ⟨others, found, covers⟩)
    · apply directories_iff.mpr
      exact ⟨[], _, rfl, by simp, by simp, covered⟩
    · obtain ⟨name, nameFits, same⟩ := afterDirectory?_eq_some_iff.mp found
      obtain ⟨names, final, rfl, named, nonempty, covered⟩ := directories_iff.mp covers
      refine directories_iff.mpr ⟨name :: names, final, by simpa using same, ?_, nonempty, covered⟩
      intro other member
      rcases List.mem_cons.mp member with rfl | later
      · exact nameFits
      · exact named other later

theorem isStretch_iff {token : Token} :
    token.isStretch = true ↔ token = .any ∨ token = .directories := by
  cases token <;> simp [Token.isStretch]

theorem nil_iff {tokens : List Token} (wellFormed : Pattern.WellFormed tokens) :
    Covers tokens [] ↔ takesNothing tokens = true := by
  match tokens with
  | [] => exact ⟨fun _ => rfl, fun _ => .nil⟩
  | [token] =>
      by_cases stretch : token.isStretch = true
      · refine ⟨fun _ => stretch, fun _ => ?_⟩
        rcases isStretch_iff.mp stretch with rfl | rfl
        · apply any_iff.mpr
          exact ⟨[], [], rfl, by simp, .nil⟩
        · exact .lastDirectories
      · exact ⟨fun covers => absurd covers (not_cons_nil (Bool.eq_false_iff.mpr stretch)),
          fun takes => absurd takes stretch⟩
  | token :: second :: later =>
      refine ⟨fun covers => ?_, fun takes => by cases takes⟩
      have adjoin := wellFormed.adjoins
      by_cases stretch : token.isStretch = true
      · rcases isStretch_iff.mp stretch with rfl | rfl
        · obtain ⟨_, rest, same, _, covered⟩ := any_iff.mp covers
          cases (List.append_eq_nil_iff.mp same.symm).2
          have plain : second.isStretch = false := by
            cases second with
            | any => exact absurd rfl (adjoin.behindAny rfl).2
            | directories => cases adjoin.beforeDirectories rfl
            | _ => rfl
          exact absurd covered (not_cons_nil plain)
        · cases adjoin.behindDirectories rfl
          exact absurd covers not_directories_nil
      · exact absurd covers (not_cons_nil (Bool.eq_false_iff.mpr stretch))

end Covers

namespace Cursor

open Pattern (WellFormed)

theorem step_of_plain {token : Token} (plain : token.isStretch = false) (later : List Token)
    (c : Char) (rest : List Char) :
    step ⟨token :: later, c :: rest⟩ =
      if token.accepts c then .go ⟨later, rest⟩ none else .stuck := by
  cases token <;> first | rfl | cases plain

theorem succeeds_nil_iff {tokens : List Token} :
    Succeeds ⟨tokens, []⟩ ↔ takesNothing tokens = true := by
  by_cases takes : takesNothing tokens = true
  · exact iff_of_true (.found (by simp [step, takes])) takes
  · exact iff_of_false (not_succeeds_of_stuck (by simp [step, takes])) takes

theorem succeeds_plain_iff {token : Token} (plain : token.isStretch = false) {later : List Token}
    {c : Char} {rest : List Char} :
    Succeeds ⟨token :: later, c :: rest⟩ ↔ token.accepts c = true ∧ Succeeds ⟨later, rest⟩ := by
  have moved := step_of_plain plain later c rest
  by_cases accepted : token.accepts c = true
  · rw [if_pos accepted] at moved
    simp [succeeds_iff_of_go moved, accepted]
  · rw [if_neg accepted] at moved
    simp [not_succeeds_of_stuck moved, accepted]

theorem succeeds_any_iff {later : List Token} {c : Char} {rest : List Char} :
    Succeeds ⟨.any :: later, c :: rest⟩ ↔
      Succeeds ⟨later, c :: rest⟩ ∨ c ≠ separator ∧ Succeeds ⟨.any :: later, rest⟩ := by
  rw [succeeds_iff_of_go rfl]
  by_cases isSeparator : c = separator <;> simp [isSeparator]

theorem succeeds_directories_iff {skipped : Token} {later : List Token} {c : Char}
    {rest : List Char} :
    Succeeds ⟨.directories :: skipped :: later, c :: rest⟩ ↔
      Succeeds ⟨later, c :: rest⟩ ∨ ∃ others, afterDirectory? (c :: rest) = some others ∧
        Succeeds ⟨.directories :: skipped :: later, others⟩ := by
  rw [succeeds_iff_of_go rfl]
  simp

/-- A cursor succeeds exactly when its tokens cover what is left of the path. -/
theorem succeeds_iff_covers {tokens : List Token} {path : List Char}
    (wellFormed : WellFormed tokens) : Succeeds ⟨tokens, path⟩ ↔ Covers tokens path := by
  match tokens, path with
  | tokens, [] => exact succeeds_nil_iff.trans (Covers.nil_iff wellFormed).symm
  | [], c :: rest =>
      exact iff_of_false (not_succeeds_of_stuck rfl) (fun covers => by cases covers)
  | .any :: later, c :: rest =>
      rw [succeeds_any_iff, Covers.any_cons_iff, succeeds_iff_covers wellFormed.of_cons,
        succeeds_iff_covers wellFormed]
  | [.directories], c :: rest => exact iff_of_true (.found rfl) .lastDirectories
  | .directories :: second :: later, c :: rest =>
      cases wellFormed.adjoins.behindDirectories rfl
      rw [succeeds_directories_iff, Covers.directories_cons_iff,
        succeeds_iff_covers wellFormed.of_cons.of_cons]
      refine or_congr_right (exists_congr fun others => and_congr_right fun found => ?_)
      have shorter : others.length ≤ rest.length :=
        Nat.le_of_lt_succ (length_lt_of_afterDirectory? found)
      exact succeeds_iff_covers wellFormed
  | .literal _ :: later, c :: rest
  | .separator :: later, c :: rest
  | .single :: later, c :: rest
  | .group _ :: later, c :: rest =>
      rw [succeeds_plain_iff rfl, Covers.cons_iff rfl, succeeds_iff_covers wellFormed.of_cons]
termination_by tokens.length + path.length
decreasing_by all_goals simp only [List.length_cons]; omega

end Cursor

theorem tokensMatch_iff_covers {tokens : List Token} (wellFormed : Pattern.WellFormed tokens)
    (path : List Char) : tokensMatch tokens path = true ↔ Covers tokens path := by
  rw [tokensMatch, search_iff_succeeds]
  simp [Cursor.succeeds_iff_covers wellFormed]

/-- The wildcard for directories, on its own, matches whatever there is. -/
theorem Pattern.matches_of_wildcard {pattern : Pattern} (wildcard : pattern.text = "**")
    (path : String) : pattern.matches path = true := by
  have tokens : pattern.tokens = [.directories] := by
    have compiled := pattern.compiled
    rw [wildcard] at compiled
    exact (Except.ok.inj compiled).symm
  apply (tokensMatch_iff_covers pattern.wellFormed_tokens path.toList).mpr
  rw [tokens]
  exact .lastDirectories

/-- A pattern, which always is a text that compiles, matches exactly the paths that its tokens
cover. -/
theorem Pattern.matches_iff_covers (pattern : Pattern) (path : String) :
    pattern.matches path = true ↔ Covers pattern.tokens path.toList :=
  tokensMatch_iff_covers pattern.wellFormed_tokens path.toList

end TreeWatch
