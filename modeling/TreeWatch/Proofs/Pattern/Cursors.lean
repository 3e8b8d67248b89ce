import Mathlib.Data.List.Infix
import Mathlib.Logic.Relation
import TreeWatch.Proofs.Pattern.Covering

/-!
Where the cursors of a search can stand.

A step goes over tokens and characters and never back, so all cursors that can be reached from one
stand within it, and there is one of them for each number of tokens and characters that are left.
Listed from the beginning of the path on, each of them leads only to cursors behind it.
-/

namespace TreeWatch

namespace Cursor

theorem Leads.size_lt {cursor next : Cursor} (leads : Leads cursor next) :
    next.size < cursor.size := by
  obtain ⟨first, other, moved, taken⟩ := leads
  obtain ⟨firstSmaller, otherSmaller⟩ := size_lt_of_step moved
  rcases taken with rfl | member
  · exact firstSmaller
  · exact otherSmaller next member

structure Within (cursor start : Cursor) : Prop where
  tokens : cursor.tokens <:+ start.tokens
  rest : cursor.rest <:+ start.rest

theorem Within.refl (cursor : Cursor) : cursor.Within cursor :=
  ⟨List.suffix_refl _, List.suffix_refl _⟩

theorem Within.trans {cursor between start : Cursor} (first : cursor.Within between)
    (second : between.Within start) : cursor.Within start :=
  ⟨first.tokens.trans second.tokens, first.rest.trans second.rest⟩

/-- A step goes over tokens and characters, never back. -/
theorem Leads.within {cursor next : Cursor} (leads : Leads cursor next) : next.Within cursor := by
  obtain ⟨first, other, moved, taken⟩ := leads
  unfold step at moved
  split at moved
  · split at moved <;> cases moved
  · cases moved
  · cases moved
    rcases taken with rfl | member
    · exact ⟨List.suffix_cons _ _, List.suffix_refl _⟩
    · split at member
      · cases member
      · cases member
        exact ⟨List.suffix_refl _, List.suffix_cons _ _⟩
  · cases moved
  · cases moved
    rcases taken with rfl | member
    · exact ⟨(List.suffix_cons _ _).trans (List.suffix_cons _ _), List.suffix_refl _⟩
    · obtain ⟨rest, found, rfl⟩ := Option.map_eq_some_iff.mp member
      obtain ⟨name, _, same⟩ := afterDirectory?_eq_some_iff.mp found
      refine ⟨List.suffix_refl _, ?_⟩
      rw [same]
      exact (List.suffix_cons _ _).trans (List.suffix_append _ _)
  · split at moved
    · cases moved
      rcases taken with rfl | member
      · exact ⟨List.suffix_cons _ _, List.suffix_cons _ _⟩
      · cases member
    · cases moved

/-- The cursors within a start, those that are nearer to the end of the path behind the others. -/
def cursorsWithin (start : Cursor) : List Cursor :=
  start.rest.tails.flatMap fun rest => start.tokens.tails.map fun tokens => ⟨tokens, rest⟩

theorem mem_cursorsWithin {cursor start : Cursor} :
    cursor ∈ start.cursorsWithin ↔ cursor.Within start := by
  simp only [cursorsWithin, List.mem_flatMap, List.mem_map, List.mem_tails]
  constructor
  · rintro ⟨rest, restSuffix, tokens, tokensSuffix, rfl⟩
    exact ⟨tokensSuffix, restSuffix⟩
  · intro within
    exact ⟨cursor.rest, within.rest, cursor.tokens, within.tokens, rfl⟩

theorem length_cursorsWithin (start : Cursor) :
    start.cursorsWithin.length = (start.tokens.length + 1) * (start.rest.length + 1) := by
  simp [cursorsWithin, Nat.mul_comm]

def Precedes (cursor next : Cursor) : Prop :=
  next.rest.length < cursor.rest.length ∨
    next.rest.length = cursor.rest.length ∧ next.tokens.length < cursor.tokens.length

theorem not_precedes_of_precedes {cursor next : Cursor} (precedes : cursor.Precedes next) :
    ¬next.Precedes cursor := by
  unfold Precedes at *
  omega

theorem Leads.precedes {cursor next : Cursor} (leads : Leads cursor next) :
    cursor.Precedes next := by
  have smaller := leads.size_lt
  have noMoreTokens := leads.within.tokens.length_le
  have noMoreRest := leads.within.rest.length_le
  unfold Precedes
  simp only [size] at smaller
  omega

theorem pairwise_tails {α : Type} (values : List α) :
    values.tails.Pairwise fun one later => later.length < one.length := by
  induction values with
  | nil => simp
  | cons value values inductionHypothesis =>
      rw [List.tails_cons, List.pairwise_cons]
      refine ⟨?_, inductionHypothesis⟩
      intro later member
      have isSuffix : later <:+ values := (List.mem_tails _ _).mp member
      exact Nat.lt_succ_of_le isSuffix.length_le

theorem pairwise_cursorsWithin (start : Cursor) : start.cursorsWithin.Pairwise Precedes := by
  unfold cursorsWithin
  rw [List.pairwise_flatMap]
  constructor
  · intro rest _
    rw [List.pairwise_map]
    exact (pairwise_tails _).imp fun fewer => .inr ⟨rfl, fewer⟩
  · apply (pairwise_tails _).imp
    intro rest later shorter cursor isHere next isLater
    obtain ⟨_, _, rfl⟩ := List.mem_map.mp isHere
    obtain ⟨_, _, rfl⟩ := List.mem_map.mp isLater
    exact .inl shorter

/-- Whether each cursor of a list leads only to cursors behind it. -/
def LeadOnward : List Cursor → Prop
  | [] => True
  | cursor :: behind => (∀ next, Leads cursor next → next ∈ behind) ∧ LeadOnward behind

theorem leadOnward_of_pairwise (earlier : List Cursor) {cursors : List Cursor}
    (ordered : (earlier ++ cursors).Pairwise Precedes)
    (closed : ∀ cursor ∈ cursors, ∀ next, Leads cursor next → next ∈ earlier ++ cursors) :
    LeadOnward cursors := by
  induction cursors generalizing earlier with
  | nil => trivial
  | cons cursor behind inductionHypothesis =>
      constructor
      · intro next leads
        have member := closed cursor (by simp) next leads
        simp only [List.mem_append, List.mem_cons] at member
        rcases member with isEarlier | rfl | isBehind
        · have precedes := (List.pairwise_append.mp ordered).2.2 next isEarlier cursor (by simp)
          exact absurd precedes (not_precedes_of_precedes leads.precedes)
        · exact absurd leads.precedes (not_precedes_of_precedes leads.precedes)
        · exact isBehind
      · have same : earlier ++ cursor :: behind = (earlier ++ [cursor]) ++ behind := by simp
        rw [same] at ordered closed
        apply inductionHypothesis (earlier ++ [cursor]) ordered
        intro other member
        exact closed other (List.mem_cons_of_mem _ member)

theorem leadOnward_cursorsWithin (start : Cursor) : LeadOnward start.cursorsWithin := by
  apply leadOnward_of_pairwise [] (pairwise_cursorsWithin start)
  intro cursor member next leads
  exact mem_cursorsWithin.mpr (leads.within.trans (mem_cursorsWithin.mp member))

theorem within_of_reachable {start cursor : Cursor}
    (reachable : Relation.ReflTransGen Leads start cursor) : cursor.Within start := by
  induction reachable with
  | refl => exact .refl start
  | tail _ leads inductionHypothesis => exact leads.within.trans inductionHypothesis

theorem succeeds_iff_reachable {cursor : Cursor} :
    cursor.Succeeds ↔ ∃ last, Relation.ReflTransGen Leads cursor last ∧ last.step = .found := by
  constructor
  · intro succeeds
    induction succeeds with
    | @found cursor found => exact ⟨cursor, .refl, found⟩
    | leads leads _ inductionHypothesis =>
        obtain ⟨last, reachable, found⟩ := inductionHypothesis
        exact ⟨last, .head leads reachable, found⟩
  · rintro ⟨last, reachable, found⟩
    induction reachable using Relation.ReflTransGen.head_induction_on with
    | refl => exact .found found
    | head leads _ inductionHypothesis => exact .leads leads inductionHypothesis

end Cursor

end TreeWatch
