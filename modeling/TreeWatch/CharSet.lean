/-!
Finite sets of characters, kept as lists in ascending order so that equal sets are equal lists.
-/

namespace TreeWatch

structure CharSet where
  toList : List Char
  ascending : toList.Pairwise (· < ·)
  deriving DecidableEq

namespace CharSet

instance : Membership Char CharSet := ⟨fun set c => c ∈ set.toList⟩

instance (c : Char) (set : CharSet) : Decidable (c ∈ set) :=
  inferInstanceAs (Decidable (c ∈ set.toList))

def empty : CharSet := ⟨[], .nil⟩

def isEmpty (set : CharSet) : Bool := set.toList.isEmpty

def insertSorted (c : Char) : List Char → List Char
  | [] => [c]
  | d :: rest =>
      if c < d then c :: d :: rest else if c = d then d :: rest else d :: insertSorted c rest

theorem mem_insertSorted {c d : Char} {list : List Char} :
    d ∈ insertSorted c list ↔ d = c ∨ d ∈ list := by
  induction list with
  | nil => simp [insertSorted]
  | cons head tail inductionHypothesis =>
      unfold insertSorted
      split
      · simp
      · split
        · rename_i same
          simp [same]
        · simp only [List.mem_cons, inductionHypothesis]
          exact or_left_comm

theorem insertSorted_ascending {c : Char} {list : List Char} (sorted : list.Pairwise (· < ·)) :
    (insertSorted c list).Pairwise (· < ·) := by
  induction list with
  | nil => simp [insertSorted]
  | cons head tail inductionHypothesis =>
      unfold insertSorted
      obtain ⟨below, tailSorted⟩ := List.pairwise_cons.mp sorted
      split
      · rename_i less
        refine List.pairwise_cons.mpr ⟨fun d member => ?_, sorted⟩
        rcases List.mem_cons.mp member with rfl | member
        · exact less
        · exact Char.lt_trans less (below d member)
      · rename_i notLess
        split
        · exact sorted
        · rename_i different
          refine List.pairwise_cons.mpr ⟨fun d member => ?_, inductionHypothesis tailSorted⟩
          rcases mem_insertSorted.mp member with rfl | member
          · exact Std.lt_of_le_of_ne (Char.not_lt.mp notLess) (Ne.symm different)
          · exact below d member

def insert (set : CharSet) (c : Char) : CharSet :=
  ⟨insertSorted c set.toList, insertSorted_ascending set.ascending⟩

@[simp]
theorem mem_insert {c d : Char} {set : CharSet} : d ∈ set.insert c ↔ d = c ∨ d ∈ set :=
  mem_insertSorted

@[simp]
theorem not_mem_empty (c : Char) : c ∉ empty := List.not_mem_nil

@[ext]
theorem ext {first second : CharSet} (same : ∀ c, c ∈ first ↔ c ∈ second) : first = second := by
  obtain ⟨list, sorted⟩ := first
  obtain ⟨other, otherSorted⟩ := second
  congr
  exact List.Perm.eq_of_pairwise
    (fun c d _ _ less greater => absurd (Char.lt_trans less greater) (Char.lt_irrefl c))
    sorted otherSorted
    ((List.perm_ext_iff_of_nodup (sorted.imp Char.ne_of_lt) (otherSorted.imp Char.ne_of_lt)).mpr
      same)

end CharSet

end TreeWatch
