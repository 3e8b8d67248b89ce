import Mathlib.Data.Multiset.AddSub
import TreeWatch.Proofs.Pattern.Cursors

/-!
Searching without coming to a cursor twice.

The search records nothing, so it may handle a cursor again and again. Its answer depends on the
cursors that can be reached and on nothing else: it is the answer of every search that handles
pending cursors in some order and may drop those that it has handled before. `explore` is such a
search, which drops all of them. `tabulate` goes the other way, from the end of the path, and writes
down an answer for each cursor there can be.
-/

namespace TreeWatch

open Cursor (Leads LeadOnward Precedes)
open Relation (ReflTransGen)

/-- What a search may answer that takes the pending cursors in any order and may drop those that it
has handled. -/
inductive Explores : List Cursor → Multiset Cursor → Bool → Prop where
  | nothing {handled} : Explores handled 0 false
  | found {handled cursor pending} : cursor.step = .found →
      Explores handled (cursor ::ₘ pending) true
  | dropped {handled cursor pending answer} : cursor ∈ handled →
      Explores handled pending answer → Explores handled (cursor ::ₘ pending) answer
  | stuck {handled cursor pending answer} : cursor.step = .stuck →
      Explores (cursor :: handled) pending answer → Explores handled (cursor ::ₘ pending) answer
  | go {handled cursor pending next other answer} : cursor.step = .go next other →
      Explores (cursor :: handled) (next ::ₘ (↑other.toList + pending)) answer →
      Explores handled (cursor ::ₘ pending) answer

/-- Whether all that is to be found from handled cursors can be found from smaller pending ones. -/
def Pursued (handled : List Cursor) (pending : Multiset Cursor) : Prop :=
  ∀ cursor ∈ handled, cursor.Succeeds →
    ∃ next ∈ pending, next.size < cursor.size ∧ next.Succeeds

/-- What may be pending instead of a cursor and some others: these, and smaller cursors that succeed
exactly if the one does. -/
structure Replaces (cursor : Cursor) (pending later : Multiset Cursor) : Prop where
  kept : ∀ next ∈ pending, next ∈ later
  finds : cursor.Succeeds → ∃ next ∈ later, next.size < cursor.size ∧ next.Succeeds
  fair : ∀ next ∈ later, next.Succeeds → next ∈ pending ∨ cursor.Succeeds

namespace Replaces

variable {handled : List Cursor} {cursor : Cursor} {pending later : Multiset Cursor}

theorem of_stuck (stuck : cursor.step = .stuck) : Replaces cursor pending pending where
  kept _ member := member
  finds succeeds := absurd succeeds (Cursor.not_succeeds_of_stuck stuck)
  fair _ member _ := .inl member

theorem of_handled (pursued : Pursued handled (cursor ::ₘ pending)) (isHandled : cursor ∈ handled) :
    Replaces cursor pending pending where
  kept _ member := member
  finds succeeds := by
    obtain ⟨next, member, smaller, nextSucceeds⟩ := pursued cursor isHandled succeeds
    rcases Multiset.mem_cons.mp member with rfl | isPending
    · exact absurd smaller (Nat.lt_irrefl _)
    · exact ⟨next, isPending, smaller, nextSucceeds⟩
  fair _ member _ := .inl member

theorem of_go {next : Cursor} {other : Option Cursor} (moved : cursor.step = .go next other) :
    Replaces cursor pending (next ::ₘ (↑other.toList + pending)) where
  kept _ member := by simp [member]
  finds succeeds := by
    rcases (Cursor.succeeds_iff_of_go moved).mp succeeds with found | ⟨alternative, member, found⟩
    · exact ⟨next, by simp, Leads.size_lt ⟨next, other, moved, .inl rfl⟩, found⟩
    · have leads : Leads cursor alternative := ⟨next, other, moved, .inr member⟩
      exact ⟨alternative, by simp [Option.mem_def.mp member], leads.size_lt, found⟩
  fair earlier member succeeds := by
    simp only [Multiset.mem_cons, Multiset.mem_add, Multiset.mem_coe, Option.mem_toList] at member
    rcases member with rfl | isOther | isPending
    · exact .inr (.leads ⟨earlier, other, moved, .inl rfl⟩ succeeds)
    · exact .inr (.leads ⟨next, other, moved, .inr isOther⟩ succeeds)
    · exact .inl isPending

theorem pursued (replaces : Replaces cursor pending later)
    (pursued : Pursued handled (cursor ::ₘ pending)) : Pursued (cursor :: handled) later := by
  intro earlier member succeeds
  rcases List.mem_cons.mp member with rfl | isHandled
  · exact replaces.finds succeeds
  · obtain ⟨next, nextPending, smaller, nextSucceeds⟩ := pursued earlier isHandled succeeds
    rcases Multiset.mem_cons.mp nextPending with rfl | isPending
    · obtain ⟨last, lastPending, lastSmaller, lastSucceeds⟩ := replaces.finds nextSucceeds
      exact ⟨last, lastPending, lastSmaller.trans smaller, lastSucceeds⟩
    · exact ⟨next, replaces.kept next isPending, smaller, nextSucceeds⟩

theorem exists_succeeds_iff (replaces : Replaces cursor pending later) :
    (∃ next ∈ cursor ::ₘ pending, next.Succeeds) ↔ ∃ next ∈ later, next.Succeeds := by
  constructor
  · rintro ⟨next, member, succeeds⟩
    rcases Multiset.mem_cons.mp member with rfl | isPending
    · obtain ⟨last, lastPending, _, lastSucceeds⟩ := replaces.finds succeeds
      exact ⟨last, lastPending, lastSucceeds⟩
    · exact ⟨next, replaces.kept next isPending, succeeds⟩
  · rintro ⟨next, member, succeeds⟩
    rcases replaces.fair next member succeeds with isPending | cursorSucceeds
    · exact ⟨next, Multiset.mem_cons_of_mem isPending, succeeds⟩
    · exact ⟨cursor, Multiset.mem_cons_self _ _, cursorSucceeds⟩

end Replaces

/-- Whatever the order and whatever is dropped, the answer is whether a pending cursor succeeds. -/
theorem Explores.answer_iff {handled : List Cursor} {pending : Multiset Cursor} {answer : Bool}
    (explores : Explores handled pending answer) (pursued : Pursued handled pending) :
    answer = true ↔ ∃ cursor ∈ pending, cursor.Succeeds := by
  induction explores with
  | nothing => simp
  | found found => exact iff_of_true rfl ⟨_, Multiset.mem_cons_self _ _, .found found⟩
  | dropped isHandled _ inductionHypothesis =>
      have replaces := Replaces.of_handled pursued isHandled
      rw [replaces.exists_succeeds_iff]
      apply inductionHypothesis
      intro earlier member
      exact replaces.pursued pursued earlier (List.mem_cons_of_mem _ member)
  | @stuck _ cursor pending _ stuck _ inductionHypothesis =>
      have replaces : Replaces cursor pending pending := .of_stuck stuck
      rw [replaces.exists_succeeds_iff]
      exact inductionHypothesis (replaces.pursued pursued)
  | @go _ cursor pending next other _ moved _ inductionHypothesis =>
      have replaces : Replaces cursor pending (next ::ₘ (↑other.toList + pending)) := .of_go moved
      rw [replaces.exists_succeeds_iff]
      exact inductionHypothesis (replaces.pursued pursued)

theorem explores_search (handled stack : List Cursor) : Explores handled stack (search stack) := by
  fun_induction search stack generalizing handled with
  | case1 => exact .nothing
  | case2 cursor stack found =>
      rw [← Multiset.cons_coe]
      exact .found found
  | case3 cursor stack stuck inductionHypothesis =>
      rw [← Multiset.cons_coe]
      exact .stuck stuck (inductionHypothesis _)
  | case4 cursor stack next other moved inductionHypothesis =>
      rw [← Multiset.cons_coe]
      apply Explores.go moved
      rw [Multiset.coe_add, Multiset.cons_coe]
      exact inductionHypothesis _

structure Exploration where
  answer : Bool
  /-- The cursors that were handled, the last one first. -/
  handled : List Cursor

/-- The search that records the cursors it handles and handles none of them again. -/
def explore (handled : List Cursor) (stack : List Cursor) : Exploration :=
  match stack with
  | [] => ⟨false, handled⟩
  | cursor :: stack =>
      if cursor ∈ handled then explore handled stack
      else
        match _moved : cursor.step with
        | .found => ⟨true, cursor :: handled⟩
        | .stuck => explore (cursor :: handled) stack
        | .go next other => explore (cursor :: handled) (next :: (other.toList ++ stack))
termination_by Cursor.totalWeight stack
decreasing_by
  · exact Nat.lt_add_of_pos_left cursor.weight_pos
  · exact Nat.lt_add_of_pos_left cursor.weight_pos
  · have smaller := Cursor.weight_lt_of_step _moved
    simp only [Cursor.totalWeight, Cursor.totalWeight_append]
    omega

theorem explores_explore (handled stack : List Cursor) :
    Explores handled stack (explore handled stack).answer := by
  fun_induction explore handled stack with
  | case1 => exact .nothing
  | case2 handled cursor stack isHandled inductionHypothesis =>
      rw [← Multiset.cons_coe]
      exact .dropped isHandled inductionHypothesis
  | case3 handled cursor stack _ found =>
      rw [← Multiset.cons_coe]
      exact .found found
  | case4 handled cursor stack _ stuck inductionHypothesis =>
      rw [← Multiset.cons_coe]
      exact .stuck stuck inductionHypothesis
  | case5 handled cursor stack _ next other moved inductionHypothesis =>
      rw [← Multiset.cons_coe]
      apply Explores.go moved
      rw [Multiset.coe_add, Multiset.cons_coe]
      exact inductionHypothesis

theorem nodup_handled {handled stack : List Cursor} (nodup : handled.Nodup) :
    (explore handled stack).handled.Nodup := by
  fun_induction explore handled stack with
  | case1 => exact nodup
  | case2 handled cursor stack isHandled inductionHypothesis => exact inductionHypothesis nodup
  | case3 handled cursor stack fresh found => exact List.nodup_cons.mpr ⟨fresh, nodup⟩
  | case4 handled cursor stack fresh stuck inductionHypothesis =>
      exact inductionHypothesis (List.nodup_cons.mpr ⟨fresh, nodup⟩)
  | case5 handled cursor stack fresh next other moved inductionHypothesis =>
      exact inductionHypothesis (List.nodup_cons.mpr ⟨fresh, nodup⟩)

theorem handled_of_leads {holds : Cursor → Prop} {handled stack : List Cursor}
    (kept : ∀ cursor next, Leads cursor next → holds cursor → holds next)
    (handledHold : ∀ cursor ∈ handled, holds cursor) (stackHolds : ∀ cursor ∈ stack, holds cursor) :
    ∀ cursor ∈ (explore handled stack).handled, holds cursor := by
  fun_induction explore handled stack with
  | case1 => exact handledHold
  | case2 handled cursor stack isHandled inductionHypothesis =>
      exact inductionHypothesis handledHold fun next member =>
        stackHolds next (List.mem_cons_of_mem _ member)
  | case3 handled cursor stack _ found =>
      exact List.forall_mem_cons.mpr ⟨stackHolds cursor (by simp), handledHold⟩
  | case4 handled cursor stack _ stuck inductionHypothesis =>
      obtain ⟨cursorHolds, stackHolds⟩ := List.forall_mem_cons.mp stackHolds
      exact inductionHypothesis (List.forall_mem_cons.mpr ⟨cursorHolds, handledHold⟩) stackHolds
  | case5 handled cursor stack _ next other moved inductionHypothesis =>
      obtain ⟨cursorHolds, stackHolds⟩ := List.forall_mem_cons.mp stackHolds
      apply inductionHypothesis (List.forall_mem_cons.mpr ⟨cursorHolds, handledHold⟩)
      intro later member
      simp only [List.mem_cons, List.mem_append, Option.mem_toList] at member
      rcases member with rfl | isOther | isStacked
      · exact kept cursor later ⟨later, other, moved, .inl rfl⟩ cursorHolds
      · exact kept cursor later ⟨next, other, moved, .inr isOther⟩ cursorHolds
      · exact stackHolds later isStacked

theorem reachable_of_handled {start cursor : Cursor}
    (member : cursor ∈ (explore [] [start]).handled) : ReflTransGen Leads start cursor := by
  refine handled_of_leads ?_ ?_ ?_ cursor member
  · intro earlier next leads reachable
    exact reachable.tail leads
  · simp
  · simp [ReflTransGen.refl]

theorem length_handled_le (start : Cursor) :
    (explore [] [start]).handled.length ≤ (start.tokens.length + 1) * (start.rest.length + 1) := by
  rw [← Cursor.length_cursorsWithin]
  have nodup : (explore [] [start]).handled.Nodup := nodup_handled List.nodup_nil
  apply (List.subperm_of_subset nodup _).length_le
  intro cursor member
  exact Cursor.mem_cursorsWithin.mpr (Cursor.within_of_reachable (reachable_of_handled member))

section Table

def Cursor.answer (table : List (Cursor × Bool)) (cursor : Cursor) : Bool :=
  match cursor.step with
  | .found => true
  | .stuck => false
  | .go next other =>
      decide ((next, true) ∈ table) ||
        other.any fun alternative => decide ((alternative, true) ∈ table)

/-- A table of answers, filled from the last cursor on. -/
def tabulate : List Cursor → List (Cursor × Bool)
  | [] => []
  | cursor :: behind => (cursor, cursor.answer (tabulate behind)) :: tabulate behind

/-- Whether a table has the right answers at some cursors and no others. -/
def Records (table : List (Cursor × Bool)) (cursors : List Cursor) : Prop :=
  ∀ cursor answer,
    (cursor, answer) ∈ table ↔ cursor ∈ cursors ∧ (answer = true ↔ cursor.Succeeds)

theorem Records.answer_iff {table : List (Cursor × Bool)} {behind : List Cursor} {cursor : Cursor}
    (records : Records table behind) (onward : ∀ next, Leads cursor next → next ∈ behind) :
    cursor.answer table = true ↔ cursor.Succeeds := by
  have recorded : ∀ next, Leads cursor next → ((next, true) ∈ table ↔ next.Succeeds) := by
    intro next leads
    rw [records]
    simp [onward next leads]
  unfold Cursor.answer
  split
  · rename_i found
    simp [Cursor.Succeeds.found found]
  · rename_i stuck
    simp [Cursor.not_succeeds_of_stuck stuck]
  · rename_i next other moved
    rw [Cursor.succeeds_iff_of_go moved, ← recorded next ⟨next, other, moved, .inl rfl⟩]
    simp only [Bool.or_eq_true, decide_eq_true_eq, Option.any_eq_true, Option.mem_def]
    apply or_congr_right
    apply exists_congr
    intro alternative
    apply and_congr_right
    intro isOther
    exact recorded alternative ⟨next, other, moved, .inr isOther⟩

theorem records_tabulate {cursors : List Cursor} (onward : LeadOnward cursors) :
    Records (tabulate cursors) cursors := by
  induction cursors with
  | nil => simp [Records, tabulate]
  | cons cursor behind inductionHypothesis =>
      obtain ⟨leadsBehind, behindOnward⟩ := onward
      have records := inductionHypothesis behindOnward
      have right := records.answer_iff leadsBehind
      intro other answer
      simp only [tabulate, List.mem_cons, Prod.mk.injEq, records other answer, or_and_right]
      apply or_congr_left
      apply and_congr_right
      rintro rfl
      rw [Bool.eq_iff_iff, right]

theorem map_fst_tabulate (cursors : List Cursor) : (tabulate cursors).map Prod.fst = cursors := by
  induction cursors with
  | nil => rfl
  | cons cursor behind inductionHypothesis => simp [tabulate, inductionHypothesis]

end Table

theorem tokensMatch_iff_succeeds (tokens : List Token) (path : List Char) :
    tokensMatch tokens path = true ↔ Cursor.Succeeds ⟨tokens, path⟩ := by
  simp [tokensMatch, search_iff_succeeds]

theorem explores_iff_of_start (tokens : List Token) (path : List Char) (answer : Bool) :
    Explores [] {⟨tokens, path⟩} answer ↔ answer = tokensMatch tokens path := by
  constructor
  · intro explores
    have found := explores.answer_iff (by simp [Pursued])
    rw [Bool.eq_iff_iff, found, tokensMatch_iff_succeeds]
    simp
  · rintro rfl
    exact explores_search [] [⟨tokens, path⟩]

theorem mem_table_iff {start cursor : Cursor} {answer : Bool} :
    (cursor, answer) ∈ tabulate start.cursorsWithin ↔
      cursor.Within start ∧ answer = tokensMatch cursor.tokens cursor.rest := by
  rw [records_tabulate (Cursor.leadOnward_cursorsWithin start), Cursor.mem_cursorsWithin]
  apply and_congr_right
  intro _
  rw [← tokensMatch_iff_succeeds cursor.tokens cursor.rest]
  exact Bool.eq_iff_iff.symm

/-- The answer is that of a search which handles no cursor twice, and that of a table with an entry
for each cursor there is. It depends on the cursors that can be reached: every search that takes
pending ones in some order comes to it, whether it drops those that it has handled or not. -/
theorem tokensMatch_explored (tokens : List Token) (path : List Char) :
    (explore [] [⟨tokens, path⟩]).answer = tokensMatch tokens path ∧
    (explore [] [⟨tokens, path⟩]).handled.Nodup ∧
    (∀ cursor ∈ (explore [] [⟨tokens, path⟩]).handled, ReflTransGen Leads ⟨tokens, path⟩ cursor) ∧
    (explore [] [⟨tokens, path⟩]).handled.length ≤ (tokens.length + 1) * (path.length + 1) ∧
    (∀ cursor answer, (cursor, answer) ∈ tabulate (Cursor.cursorsWithin ⟨tokens, path⟩) ↔
      cursor.Within ⟨tokens, path⟩ ∧ answer = tokensMatch cursor.tokens cursor.rest) ∧
    (tabulate (Cursor.cursorsWithin ⟨tokens, path⟩)).length =
      (tokens.length + 1) * (path.length + 1) ∧
    ((tabulate (Cursor.cursorsWithin ⟨tokens, path⟩)).map Prod.fst).Pairwise Precedes ∧
    (tokensMatch tokens path = true ↔
      ∃ last, ReflTransGen Leads ⟨tokens, path⟩ last ∧ last.step = .found) ∧
    ∀ answer, Explores [] {⟨tokens, path⟩} answer ↔ answer = tokensMatch tokens path := by
  refine ⟨?_, ?_, ?_, ?_, ?_, ?_, ?_, ?_, ?_⟩
  · rw [← explores_iff_of_start]
    exact explores_explore [] [⟨tokens, path⟩]
  · exact nodup_handled List.nodup_nil
  · intro cursor member
    exact reachable_of_handled member
  · exact length_handled_le ⟨tokens, path⟩
  · intro cursor answer
    exact mem_table_iff
  · rw [← List.length_map Prod.fst, map_fst_tabulate, Cursor.length_cursorsWithin]
  · rw [map_fst_tabulate]
    exact Cursor.pairwise_cursorsWithin ⟨tokens, path⟩
  · rw [tokensMatch_iff_succeeds, Cursor.succeeds_iff_reachable]
  · exact explores_iff_of_start tokens path

end TreeWatch
