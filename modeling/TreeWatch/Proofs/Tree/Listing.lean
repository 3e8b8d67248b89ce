import Mathlib.Data.List.Basic
import Mathlib.Tactic.Choose
import TreeWatch.Proofs.Tree.Names
import TreeWatch.Tree.Listing

/-!
What the listing of a directory has to say.

Below a directory, names lead to other nodes through directories that can be listed. The contents
of the directory give an account of all these nodes, of each of them once, and in the order of the
names; where a directory cannot be listed, the account says why. `exists_lists` proves this by
induction on the tree.
-/

namespace TreeWatch

namespace Node

/-- Why a node cannot be listed, if it is a directory that cannot be. -/
def refused? (shown : Path → String) (location : Path) : Node → Option Failure
  | .directory _ listable _ => refusal? shown location listable
  | _ => none

/-- Whether names lead from a node to another one through directories that can be listed. No name
leads on from a link. -/
inductive Reaches (shown : Path → String) : Path → Node → List String → Node → Prop where
  | here {location node} : Reaches shown location node [] node
  | through {location time listable children name child names target} :
      refusal? shown location listable = none → (name, child) ∈ children →
      Reaches shown (location.child name) child names target →
      Reaches shown location (.directory time listable children) (name :: names) target

section Reaches

variable {shown : Path → String} {location : Path} {node target : Node}

theorem reaches_nil_iff : Reaches shown location node [] target ↔ target = node := by
  constructor
  · intro reaches
    cases reaches
    rfl
  · rintro rfl
    exact .here

theorem reaches_cons_iff {time : Seconds} {listable : Bool} {children : List (String × Node)}
    {name : String} {names : List String} :
    Reaches shown location (.directory time listable children) (name :: names) target ↔
      refusal? shown location listable = none ∧
        ∃ child ∈ children, child.1 = name ∧
          Reaches shown (location.child child.1) child.2 names target := by
  constructor
  · intro reaches
    cases reaches with
    | through listed member below => exact ⟨listed, _, member, rfl, below⟩
  · rintro ⟨listed, child, member, rfl, below⟩
    exact .through listed member below

theorem Reaches.fileNames {names : List String} (reaches : Reaches shown location node names target)
    (wellFormed : node.WellFormed) : ∀ name ∈ names, IsFileName name := by
  induction reaches with
  | here => simp
  | through _ member _ inductionHypothesis =>
      cases wellFormed with
      | directory _ named below =>
          exact List.forall_mem_cons.mpr ⟨named _ member, inductionHypothesis (below _ member)⟩

/-- Whether a list has the nodes that can be reached from a node, each with the names that lead to
it, in the order of these names. -/
structure Lists (shown : Path → String) (location : Path) (node : Node)
    (found : List (List String × Node)) : Prop where
  complete : ∀ names target, (names, target) ∈ found ↔ Reaches shown location node names target
  ordered : found.Pairwise fun first second => List.Lex (· < ·) first.1 second.1

theorem lists_of_closed
    (closed : ∀ name names target, ¬Reaches shown location node (name :: names) target) :
    Lists shown location node [([], node)] where
  complete names target := by
    cases names with
    | nil => simp [reaches_nil_iff]
    | cons name names => simp [closed name names target]
  ordered := List.pairwise_singleton _ _

end Reaches

section Order

variable {children : List (String × Node)}

def inOrder (children : List (String × Node)) : List (String × Node) :=
  children.mergeSort fun first second => first.1 ≤ second.1

theorem mem_inOrder {child : String × Node} : child ∈ inOrder children ↔ child ∈ children :=
  List.mem_mergeSort

theorem pairwise_inOrder (distinct : (children.map Prod.fst).Nodup) :
    (inOrder children).Pairwise fun first second => first.1 < second.1 := by
  have ascending : (inOrder children).Pairwise fun first second => first.1 ≤ second.1 := by
    have sorted : (inOrder children).Pairwise fun first second =>
        decide (first.1 ≤ second.1) = true := by
      apply List.pairwise_mergeSort
      · intro first second third
        simpa using String.le_trans
      · intro first second
        simpa using String.le_total first.1 second.1
    simpa using sorted
  have different : (inOrder children).Pairwise fun first second => first.1 ≠ second.1 := by
    have same : (inOrder children).Perm children := List.mergeSort_perm _ _
    exact List.pairwise_map.mp ((same.map Prod.fst).nodup_iff.mpr distinct)
  apply (ascending.and different).imp
  rintro first second ⟨notGreater, notSame⟩
  apply String.not_le.mp
  intro notLess
  exact notSame (String.le_antisymm notGreater notLess)

/-- What is found below a child, seen from its directory. -/
def inside (name : String) (found : List String × Node) : List String × Node :=
  (name :: found.1, found.2)

variable {shown : Path → String} {location : Path} {time : Seconds} {listable : Bool}

theorem lists_directory (listed : refusal? shown location listable = none)
    (distinct : (children.map Prod.fst).Nodup)
    {found : String × Node → List (List String × Node)}
    (lists : ∀ child ∈ children, Lists shown (location.child child.1) child.2 (found child)) :
    Lists shown location (.directory time listable children)
      (([], .directory time listable children) ::
        (inOrder children).flatMap fun child => (found child).map (inside child.1)) where
  complete names target := by
    cases names with
    | nil => simp [reaches_nil_iff, inside]
    | cons name names =>
        rw [reaches_cons_iff]
        simp only [List.mem_cons, Prod.mk.injEq, reduceCtorEq, false_and, false_or,
          List.mem_flatMap, mem_inOrder, List.mem_map, inside, List.cons.injEq, listed, true_and]
        apply exists_congr
        intro child
        apply and_congr_right
        intro member
        rw [← (lists child member).complete]
        constructor
        · rintro ⟨⟨others, other⟩, isFound, ⟨rfl, rfl⟩, rfl⟩
          exact ⟨rfl, isFound⟩
        · rintro ⟨rfl, isFound⟩
          exact ⟨(names, target), isFound, ⟨rfl, rfl⟩, rfl⟩
  ordered := by
    rw [List.pairwise_cons, List.pairwise_flatMap]
    refine ⟨?_, ?_, ?_⟩
    · intro other member
      obtain ⟨child, _, isInside⟩ := List.mem_flatMap.mp member
      obtain ⟨one, _, rfl⟩ := List.mem_map.mp isInside
      exact .nil
    · intro child member
      rw [List.pairwise_map]
      exact (lists child (mem_inOrder.mp member)).ordered.imp fun before => .cons before
    · apply (pairwise_inOrder distinct).imp
      intro first second less one isFirst other isSecond
      obtain ⟨_, _, rfl⟩ := List.mem_map.mp isFirst
      obtain ⟨_, _, rfl⟩ := List.mem_map.mp isSecond
      exact .rel less

end Order

section Contents

variable (shown : Path → String) (location : Path) (names : String)

def complaint (node : Node) : List LocatedEntry :=
  ((node.refused? shown location).map fun failure =>
    ⟨⟨if names = "" then "." else names, true, some failure⟩, location⟩).toList

/-- What the listing of a directory says about a node that it comes to, if names lead there from
the directory. -/
def account (found : List String × Node) : List LocatedEntry :=
  ⟨⟨found.1.foldl nameBelow names, found.2.isDirectory, none⟩, found.1.foldl Path.child location⟩ ::
    complaint shown (found.1.foldl Path.child location) (found.1.foldl nameBelow names) found.2

theorem account_inside (name : String) (found : List String × Node) :
    account shown location names (inside name found) =
      account shown (location.child name) (nameBelow names name) found := rfl

def branch (child : String × Node) : List LocatedEntry :=
  ⟨⟨nameBelow names child.1, child.2.isDirectory, none⟩, location.child child.1⟩ ::
    contents shown (location.child child.1) (nameBelow names child.1) child.2

theorem branches_eq (children : List (String × Node)) :
    branches shown location names children =
      children.map fun child => (child.1, branch shown location names child) := by
  induction children with
  | nil => rfl
  | cons child children inductionHypothesis =>
      simp [branches, branch, inductionHypothesis]

theorem contents_of_listed {time : Seconds} {listable : Bool} {children : List (String × Node)}
    (listed : refusal? shown location listable = none) :
    contents shown location names (.directory time listable children) =
      (inOrder children).flatMap (branch shown location names) := by
  have sorted : (children.map fun child => (child.1, branch shown location names child)).mergeSort
      (fun first second => first.1 ≤ second.1) =
        (inOrder children).map fun child => (child.1, branch shown location names child) := by
    rw [inOrder, List.map_mergeSort]
    intro first _ second _
    rfl
  rw [contents, listed, branches_eq]
  simp only [sorted, List.flatMap_map]

theorem contents_of_refused {time : Seconds} {listable : Bool} {children : List (String × Node)}
    {failure : Failure} (refused : refusal? shown location listable = some failure) :
    contents shown location names (.directory time listable children) =
      complaint shown location names (.directory time listable children) := by
  rw [contents, refused, complaint, refused?, refused]
  rfl

/-- The contents of a node give an account of all nodes that can be reached from it, in order. -/
theorem exists_lists {node : Node} (wellFormed : node.WellFormed) (location : Path)
    (names : String) :
    ∃ found, Lists shown location node (([], node) :: found) ∧
      contents shown location names node =
        complaint shown location names node ++ found.flatMap (account shown location names) := by
  induction wellFormed generalizing location names with
  | file =>
      refine ⟨[], lists_of_closed ?_, by simp [contents, complaint, refused?]⟩
      intro name names target reaches
      cases reaches
  | link =>
      refine ⟨[], lists_of_closed ?_, by simp [contents, complaint, refused?]⟩
      intro name names target reaches
      cases reaches
  | @directory time listable children distinct _ _ inductionHypothesis =>
      cases isListed : refusal? shown location listable with
      | some failure =>
          refine ⟨[], lists_of_closed ?_, by simp [contents_of_refused _ _ _ isListed]⟩
          intro name names target reaches
          cases (reaches_cons_iff.mp reaches).1.symm.trans isListed
      | none =>
          have below : ∀ child ∈ children, ∃ found,
              Lists shown (location.child child.1) child.2 (([], child.2) :: found) ∧
                branch shown location names child =
                  (([], child.2) :: found).flatMap
                    (account shown (location.child child.1) (nameBelow names child.1)) := by
            intro child member
            obtain ⟨found, lists, same⟩ := inductionHypothesis child member
              (location.child child.1) (nameBelow names child.1)
            refine ⟨found, lists, ?_⟩
            rw [branch, same]
            rfl
          choose! found lists same using below
          refine ⟨_, lists_directory isListed distinct lists, ?_⟩
          rw [contents_of_listed _ _ _ isListed, List.flatMap_assoc]
          have quiet : complaint shown location names (.directory time listable children) = [] := by
            rw [complaint, refused?, isListed]
            rfl
          rw [quiet, List.nil_append]
          apply List.flatMap_congr
          intro child member
          rw [same child (mem_inOrder.mp member), List.flatMap_map]
          simp only [account_inside]

end Contents

end Node

end TreeWatch
