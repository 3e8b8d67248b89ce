import TreeWatch.Pattern.Search

/-!
The search as a question of reachability.

A cursor succeeds if steps lead from it to one at which everything has been taken. The search
answers whether some cursor of its stack succeeds, so its answer does not depend on the order in
which it comes to the cursors or on how often it does.
-/

namespace TreeWatch

namespace Cursor

/-- Whether the search may go on from one cursor to another. -/
def Leads (cursor next : Cursor) : Prop :=
  ∃ first other, cursor.step = .go first other ∧ (next = first ∨ next ∈ other)

inductive Succeeds : Cursor → Prop where
  | found {cursor} : cursor.step = .found → Succeeds cursor
  | leads {cursor next} : Leads cursor next → Succeeds next → Succeeds cursor

theorem not_succeeds_of_stuck {cursor : Cursor} (stuck : cursor.step = .stuck) :
    ¬cursor.Succeeds := by
  intro succeeds
  cases succeeds with
  | found found => cases stuck.symm.trans found
  | leads leads _ =>
      obtain ⟨first, other, moved, _⟩ := leads
      cases stuck.symm.trans moved

theorem succeeds_iff_of_go {cursor first : Cursor} {other : Option Cursor}
    (moved : cursor.step = .go first other) :
    cursor.Succeeds ↔ first.Succeeds ∨ ∃ alternative ∈ other, alternative.Succeeds := by
  constructor
  · intro succeeds
    cases succeeds with
    | found found => cases moved.symm.trans found
    | leads leads next =>
        obtain ⟨_, _, sameMove, taken⟩ := leads
        cases moved.symm.trans sameMove
        rcases taken with rfl | member
        · exact .inl next
        · exact .inr ⟨_, member, next⟩
  · rintro (next | ⟨alternative, member, next⟩)
    · exact .leads ⟨first, other, moved, .inl rfl⟩ next
    · exact .leads ⟨first, other, moved, .inr member⟩ next

end Cursor

theorem search_iff_succeeds (stack : List Cursor) :
    search stack = true ↔ ∃ cursor ∈ stack, cursor.Succeeds := by
  fun_induction search stack with
  | case1 => simp
  | case2 cursor stack found => simp [Cursor.Succeeds.found found]
  | case3 cursor stack stuck inductionHypothesis =>
      rw [inductionHypothesis]
      simp [Cursor.not_succeeds_of_stuck stuck]
  | case4 cursor stack next other moved inductionHypothesis =>
      rw [inductionHypothesis]
      simp only [List.mem_cons, List.mem_append, Option.mem_toList, Option.mem_def, or_and_right,
        exists_or, exists_eq_left, Cursor.succeeds_iff_of_go moved, or_assoc]

end TreeWatch
