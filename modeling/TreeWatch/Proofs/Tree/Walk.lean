import Mathlib.Data.List.Infix
import TreeWatch.Proofs.Tree.Listing
import TreeWatch.Tree.Files

/-!
What a walk through the files of a directory yields.

The entries come in the order of their lists of names, which is not that of their paths as texts.
What begins with the names of a directory therefore stands together, right behind the directory.
`LocalFiles.walk_in_order` says which entries a walk yields, and in which order.
-/

namespace TreeWatch

namespace Node

section Together

theorem isPrefix_of_between {first between last : List String}
    (before : List.Lex (· < ·) first between) (behind : List.Lex (· < ·) between last)
    (isPrefix : first <+: last) : first <+: between := by
  induction first generalizing between last with
  | nil => exact List.nil_prefix
  | cons name first inductionHypothesis =>
      obtain ⟨more, rfl⟩ := isPrefix
      cases before with
      | rel less =>
          cases behind with
          | rel greater => exact absurd greater (String.lt_asymm less)
          | cons _ => exact absurd less (String.lt_irrefl _)
      | cons before =>
          cases behind with
          | rel less => exact absurd less (String.lt_irrefl _)
          | cons behind =>
              exact List.cons_prefix_cons.mpr
                ⟨rfl, inductionHypothesis before behind (List.prefix_append _ _)⟩

theorem not_lex_of_isPrefix {first last : List String} (isPrefix : first <+: last) :
    ¬List.Lex (· < ·) last first := by
  intro before
  induction first generalizing last with
  | nil => cases before
  | cons name first inductionHypothesis =>
      obtain ⟨more, rfl⟩ := isPrefix
      cases before with
      | rel less => exact String.lt_irrefl _ less
      | cons before => exact inductionHypothesis (List.prefix_append _ _) before

/-- Whether each directory of a list is followed at once by all that is below it. -/
def KeepsTogether (found : List (List String × Node)) : Prop :=
  ∀ before one behind, found = before ++ one :: behind →
    ∃ below beyond, behind = below ++ beyond ∧ (∀ other ∈ below, one.1 <+: other.1) ∧
      ∀ other ∈ before ++ beyond, ¬one.1 <+: other.1

theorem exists_below {one : List String × Node} {behind : List (List String × Node)}
    (ordered : (one :: behind).Pairwise fun first second => List.Lex (· < ·) first.1 second.1) :
    ∃ below beyond, behind = below ++ beyond ∧ (∀ other ∈ below, one.1 <+: other.1) ∧
      ∀ other ∈ beyond, ¬one.1 <+: other.1 := by
  induction behind with
  | nil => exact ⟨[], [], rfl, by simp, by simp⟩
  | cons next behind inductionHypothesis =>
      obtain ⟨oneBefore, withoutNext, withoutOne⟩ := List.pairwise_cons_cons.mp ordered
      by_cases isBelow : one.1 <+: next.1
      · obtain ⟨below, beyond, rfl, belowBegin, beyondDiffer⟩ := inductionHypothesis withoutNext
        refine ⟨next :: below, beyond, rfl, ?_, beyondDiffer⟩
        exact List.forall_mem_cons.mpr ⟨isBelow, belowBegin⟩
      · refine ⟨[], next :: behind, rfl, by simp, ?_⟩
        intro other member isPrefix
        rcases List.mem_cons.mp member with rfl | isBehind
        · exact isBelow isPrefix
        · have nextBefore := List.rel_of_pairwise_cons withoutOne isBehind
          exact isBelow (isPrefix_of_between oneBefore nextBefore isPrefix)

theorem keepsTogether_of_ordered {found : List (List String × Node)}
    (ordered : found.Pairwise fun first second => List.Lex (· < ·) first.1 second.1) :
    KeepsTogether found := by
  rintro before one behind rfl
  obtain ⟨_, fromOne, apart⟩ := List.pairwise_append.mp ordered
  obtain ⟨below, beyond, rfl, belowBegin, beyondDiffer⟩ := exists_below fromOne
  refine ⟨below, beyond, rfl, belowBegin, ?_⟩
  intro other member isPrefix
  rcases List.mem_append.mp member with isBefore | isBeyond
  · exact not_lex_of_isPrefix isPrefix (apart other isBefore one List.mem_cons_self)
  · exact beyondDiffer other isBeyond isPrefix

end Together

section PathText

theorem nameBelow_ne (names : String) {name : String} (present : name ≠ "") :
    nameBelow names name ≠ "" := by
  unfold nameBelow
  split
  · exact present
  · simp

theorem foldl_nameBelow_of_ne {path : String} (present : path ≠ "") {names : List String}
    (named : ∀ name ∈ names, IsFileName name) :
    names.foldl nameBelow path = "/".intercalate (path :: names) := by
  induction names generalizing path with
  | nil => rfl
  | cons name names inductionHypothesis =>
      obtain ⟨nameNamed, namesNamed⟩ := List.forall_mem_cons.mp named
      rw [List.foldl_cons, inductionHypothesis (nameBelow_ne path nameNamed.present) namesNamed,
        nameBelow, if_neg present]
      rfl

theorem foldl_nameBelow {names : List String} (present : names ≠ [])
    (named : ∀ name ∈ names, IsFileName name) :
    names.foldl nameBelow "" = "/".intercalate names := by
  cases names with
  | nil => exact absurd rfl present
  | cons name names =>
      obtain ⟨nameNamed, namesNamed⟩ := List.forall_mem_cons.mp named
      exact foldl_nameBelow_of_ne nameNamed.present namesNamed

end PathText

end Node

namespace LocalFiles

open Node (Lists Reaches KeepsTogether account complaint)

/-- Whether a walk can list its root, which is a certain directory. -/
structure CanList (files : LocalFiles) (root : String) (node : Node) : Prop where
  usable : (files.locate root).unusable? = none
  found : files.find (files.locate root) = .ok node
  isDirectory : node.isDirectory = true
  notRefused : node.refused? files.shown (files.locate root) = none

def entryOf (found : List String × Node) : Entry :=
  ⟨"/".intercalate found.1, found.2.isDirectory, none⟩

/-- What a walk yields where it comes to a node: its entry and, if the node is a directory that
cannot be listed, another one that says why. -/
def entriesOf (files : LocalFiles) (root : String) (found : List String × Node) : List Entry :=
  entryOf found ::
    ((found.2.refused? files.shown (found.1.foldl Path.child (files.locate root))).map
      fun failure => ⟨"/".intercalate found.1, true, some failure⟩).toList

variable {files : LocalFiles} {root : String} {node : Node}

theorem map_entry_account {found : List String × Node} (present : found.1 ≠ [])
    (named : ∀ name ∈ found.1, IsFileName name) :
    (account files.shown (files.locate root) "" found).map (·.entry) =
      files.entriesOf root found := by
  have path := Node.foldl_nameBelow present named
  have pathPresent : "/".intercalate found.1 ≠ "" := by
    intro empty
    have same := Path.stepsIn_intercalate present named
    rw [empty] at same
    have member : "" ∈ found.1 := by
      rw [← same]
      decide
    exact (named "" member).present rfl
  rw [account, path, complaint, if_neg pathPresent, entriesOf, entryOf]
  cases found.2.refused? files.shown (found.1.foldl Path.child (files.locate root)) with
  | none => rfl
  | some failure => rfl

theorem ne_nil_of_lists {shown : Path → String} {location : Path}
    {found : List (List String × Node)} (lists : Lists shown location node (([], node) :: found))
    {one : List String × Node} (member : one ∈ found) : one.1 ≠ [] := by
  have before : List.Lex (· < ·) [] one.1 := List.rel_of_pairwise_cons lists.ordered member
  intro empty
  rw [empty] at before
  cases before

theorem filter_entriesOf (found : List (List String × Node)) :
    (found.flatMap (files.entriesOf root)).filter (·.failure.isNone) = found.map entryOf := by
  rw [List.filter_flatMap, List.map_eq_flatMap]
  apply List.flatMap_congr
  intro one _
  rw [entriesOf]
  cases one.2.refused? files.shown (one.1.foldl Path.child (files.locate root)) with
  | none => rfl
  | some failure => rfl

theorem exists_place {path : Path} (found : files.find path = .ok node) :
    ∃ place, files.top.follow Node.linkLimit path.origin path.names = .ok place ∧
      files.top.at? place = some node := by
  unfold find Node.find at found
  split at found
  · cases found
  · cases search : files.top.follow Node.linkLimit path.origin path.names with
    | error error => simp [search, Except.map] at found
    | ok place =>
        cases isThere : files.top.at? place with
        | none => simp [search, isThere, Except.map] at found
        | some reached =>
            simp only [search, isThere, Except.map, Except.ok.injEq] at found
            exact ⟨place, rfl, found ▸ isThere⟩

theorem CanList.wellFormed (canList : files.CanList root node) (wellFormed : files.top.WellFormed) :
    node.WellFormed := by
  obtain ⟨place, _, isThere⟩ := exists_place canList.found
  exact wellFormed.at? isThere

theorem exists_listing (wellFormed : files.top.WellFormed) (canList : files.CanList root node) :
    ∃ found, Lists files.shown (files.locate root) node (([], node) :: found) ∧
      files.listing (files.locate root) =
        found.flatMap (account files.shown (files.locate root) "") := by
  obtain ⟨found, lists, same⟩ :=
    Node.exists_lists files.shown (canList.wellFormed wellFormed) (files.locate root) ""
  refine ⟨found, lists, ?_⟩
  rw [listing, canList.found]
  simp [canList.isDirectory, same, complaint, canList.notRefused]

/-- A walk lists all nodes below its root that can be reached without passing through a link or a
directory that cannot be listed, each of them once and in the order of the names that lead to it,
so that a directory is followed at once by its contents. A directory that cannot be listed has one
more entry, right behind its own, and the walk goes on. -/
theorem walk_in_order (wellFormed : files.top.WellFormed) (canList : files.CanList root node) :
    ∃ found : List (List String × Node),
      (∀ names target, (names, target) ∈ found ↔
        names ≠ [] ∧ Reaches files.shown (files.locate root) node names target) ∧
      files.walk root = ⟨found.flatMap (files.entriesOf root), none⟩ ∧
      (files.walk root).entries.filter (·.failure.isNone) = found.map entryOf ∧
      (∀ one ∈ found, Path.stepsIn (entryOf one).path = one.1) ∧
      (found.Pairwise fun first second => List.Lex (· < ·) first.1 second.1) ∧
      KeepsTogether found := by
  obtain ⟨found, lists, same⟩ := exists_listing wellFormed canList
  have named : ∀ one ∈ found, ∀ name ∈ one.1, IsFileName name := by
    intro one member
    have reaches := (lists.complete one.1 one.2).mp (List.mem_cons_of_mem _ member)
    exact reaches.fileNames (canList.wellFormed wellFormed)
  have entries : (files.listing (files.locate root)).map (·.entry) =
      found.flatMap (files.entriesOf root) := by
    rw [same, List.map_flatMap]
    apply List.flatMap_congr
    intro one member
    exact map_entry_account (ne_nil_of_lists lists member) (named one member)
  have walked : files.walk root = ⟨found.flatMap (files.entriesOf root), none⟩ := by
    simp only [walk, canList.usable, entries]
  refine ⟨found, ?_, walked, ?_, ?_, ?_, ?_⟩
  · intro names target
    rw [← lists.complete, List.mem_cons]
    constructor
    · intro member
      exact ⟨ne_nil_of_lists lists member, .inr member⟩
    · rintro ⟨present, isRoot | member⟩
      · cases isRoot
        exact absurd rfl present
      · exact member
  · rw [walked]
    exact filter_entriesOf found
  · intro one member
    exact Path.stepsIn_intercalate (ne_nil_of_lists lists member) (named one member)
  · exact lists.ordered.of_cons
  · exact Node.keepsTogether_of_ordered lists.ordered.of_cons

/-- A directory with files, a link, and directories of which one cannot be listed. -/
def mixed : LocalFiles where
  top := .directory 0 true [("a-b", .file 0), ("locked", .directory 0 false [("c", .file 0)]),
    ("to", .link "a"), ("a", .directory 0 true [("b", .file 0)])]
  home := none
  base := ⟨.relative, []⟩

theorem walk_in_order_of_mixed :
    mixed.top.WellFormed ∧ mixed.CanList "." mixed.top ∧
      ∃ found : List (List String × Node),
        mixed.walk "." = ⟨found.flatMap (mixed.entriesOf "."), none⟩ ∧
        (["a", "b"], .file 0) ∈ found ∧ (["to"], .link "a") ∈ found ∧
        ∀ target, (["locked", "c"], target) ∉ found := by
  have file : Node.WellFormed (.file 0) := .file
  have wellFormed : mixed.top.WellFormed := by
    apply Node.WellFormed.directory (by decide) (by decide)
    simp only [List.forall_mem_cons]
    exact ⟨file, .directory (by decide) (by decide) (by simp [file]), .link,
      .directory (by decide) (by decide) (by simp [file]), by simp⟩
  have canList : mixed.CanList "." mixed.top := by
    constructor
    · decide
    · have isShort : ¬Node.pathLimit < (mixed.shown (mixed.locate ".")).utf8ByteSize := by decide
      have names : (mixed.locate ".").names = [] := by decide
      rw [find, Node.find, if_neg isShort, names, Node.follow]
      rfl
    · rfl
    · decide
  obtain ⟨found, complete, walked, _⟩ := walk_in_order wellFormed canList
  refine ⟨wellFormed, canList, found, walked, ?_, ?_, ?_⟩
  · have reached : Reaches mixed.shown ((mixed.locate ".").child "a")
        (.directory 0 true [("b", .file 0)]) ["b"] (.file 0) :=
      .through (by decide) List.mem_cons_self .here
    exact (complete _ _).mpr ⟨by simp, .through (by decide) (by simp) reached⟩
  · exact (complete _ _).mpr ⟨by simp, .through (by decide) (by simp) .here⟩
  · intro target member
    obtain ⟨_, reaches⟩ := (complete _ _).mp member
    obtain ⟨_, child, isChild, isNamed, below⟩ := Node.reaches_cons_iff.mp reaches
    simp only [List.mem_cons, List.not_mem_nil, or_false] at isChild
    rcases isChild with rfl | rfl | rfl | rfl
    · exact absurd isNamed (by decide)
    · exact absurd (Node.reaches_cons_iff.mp below).1 (by decide)
    · exact absurd isNamed (by decide)
    · exact absurd isNamed (by decide)

example : (mixed.walk ".").entries.map (·.path) =
    ["a", "a/b", "a-b", "locked", "locked", "to"] := by
  cbv

end LocalFiles

end TreeWatch
