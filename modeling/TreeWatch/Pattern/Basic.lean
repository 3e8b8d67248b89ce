import TreeWatch.Pattern.Scan

/-!
Compiled patterns. A pattern is its text together with the tokens that the text spells, so two
patterns are equal when their texts are.
-/

namespace TreeWatch

structure Pattern where
  text : String
  tokens : List Token
  compiled : Pattern.tokensOf text.toList = .ok tokens

namespace Pattern

theorem ext_text {first second : Pattern} (same : first.text = second.text) : first = second := by
  obtain ⟨text, tokens, compiled⟩ := first
  obtain ⟨_, others, otherCompiled⟩ := second
  cases same
  cases compiled.symm.trans otherCompiled
  rfl

theorem text_inj {first second : Pattern} : first.text = second.text ↔ first = second :=
  ⟨ext_text, fun same => by rw [same]⟩

instance : DecidableEq Pattern := fun first second =>
  decidable_of_iff (first.text = second.text) text_inj

def compile (text : String) : Except PatternError Pattern :=
  match spelled : tokensOf text.toList with
  | .ok tokens => .ok ⟨text, tokens, spelled⟩
  | .error fault => .error ⟨text, fault⟩

theorem compile_eq_ok_iff {text : String} {pattern : Pattern} :
    compile text = .ok pattern ↔ pattern.text = text := by
  unfold compile
  obtain ⟨patternText, patternTokens, compiled⟩ := pattern
  split
  · rename_i tokens spelled
    constructor
    · intro same
      cases same
      rfl
    · intro same
      exact congrArg Except.ok (ext_text same.symm)
  · rename_i fault spelled
    constructor
    · intro same
      cases same
    · intro same
      cases same
      exact absurd (spelled.symm.trans compiled) (by simp)

theorem compile_eq_error_iff {text : String} {error : PatternError} :
    compile text = Except.error error ↔
      tokensOf text.toList = .error error.fault ∧ error.pattern = text := by
  unfold compile
  obtain ⟨pattern, fault⟩ := error
  split
  · rename_i list spelled
    simp [spelled]
  · rename_i found spelled
    simp [spelled, and_comm, eq_comm]

/-- A pattern as a diagnostic shows it. -/
def describe (pattern : Pattern) : String :=
  "Pattern(" ++ Text.quote pattern.text ++ ")"

end Pattern

end TreeWatch
