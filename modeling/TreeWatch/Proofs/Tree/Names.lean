import TreeWatch.Tree.Resolve

/-!
The names in a tree, and the paths that they make.

A tree is well formed if the names in each of its directories are distinct and are such that a file
can have them. Whatever is found in such a tree is well formed again. A path that is written with
such names can be taken apart into them.
-/

namespace TreeWatch

/-- A name that a file can have in a directory. -/
structure IsFileName (name : String) : Prop where
  present : name ≠ ""
  /-- The directory itself and the one above it are not among its contents. -/
  noDots : name ≠ "." ∧ name ≠ ".."
  noSeparator : separator ∉ name.toList
  noNull : '\x00' ∉ name.toList

theorem isFileName_iff {name : String} : IsFileName name ↔
    name ≠ "" ∧ (name ≠ "." ∧ name ≠ "..") ∧ separator ∉ name.toList ∧ '\x00' ∉ name.toList := by
  constructor
  · rintro ⟨present, noDots, noSeparator, noNull⟩
    exact ⟨present, noDots, noSeparator, noNull⟩
  · rintro ⟨present, noDots, noSeparator, noNull⟩
    exact ⟨present, noDots, noSeparator, noNull⟩

instance (name : String) : Decidable (IsFileName name) := decidable_of_iff _ isFileName_iff.symm

inductive Node.WellFormed : Node → Prop where
  | file {time} : WellFormed (.file time)
  | link {target} : WellFormed (.link target)
  | directory {time listable children} : (children.map Prod.fst).Nodup →
      (∀ child ∈ children, IsFileName child.1) → (∀ child ∈ children, WellFormed child.2) →
      WellFormed (.directory time listable children)

namespace Node.WellFormed

theorem emptyDirectory (time : Seconds) : (Node.emptyDirectory time).WellFormed := by
  apply directory <;> simp

theorem child {node child : Node} {name : String} (wellFormed : node.WellFormed)
    (found : node.child? name = some child) : child.WellFormed := by
  obtain ⟨before, behind, same, _⟩ := List.lookup_eq_some_iff.mp found
  have member : (name, child) ∈ node.children := by
    rw [same]
    exact List.mem_append_right before List.mem_cons_self
  cases wellFormed with
  | file => cases member
  | link => cases member
  | directory _ _ below => exact below _ member

theorem descendant {node target : Node} {names : List String} (wellFormed : node.WellFormed)
    (found : node.descendant? names = some target) : target.WellFormed := by
  induction names generalizing node with
  | nil =>
      cases found
      exact wellFormed
  | cons name names inductionHypothesis =>
      obtain ⟨next, isChild, below⟩ := Option.bind_eq_some_iff.mp found
      exact inductionHypothesis (wellFormed.child isChild) below

theorem at? {top target : Node} {place : Path} (wellFormed : top.WellFormed)
    (found : top.at? place = some target) : target.WellFormed := by
  unfold Node.at? at found
  split at found
  · split at found
    · cases found
      exact emptyDirectory 0
    · cases found
  · exact wellFormed.descendant found

end Node.WellFormed

section Pieces

theorem pieces_ne_nil (text : List Char) : pieces text ≠ [] := by
  cases text with
  | nil => simp [pieces]
  | cons c rest =>
      unfold pieces
      split
      · exact List.cons_ne_nil _ _
      · split <;> exact List.cons_ne_nil _ _

theorem pieces_append_separator (first second : List Char) :
    pieces (first ++ separator :: second) = pieces first ++ pieces second := by
  induction first with
  | nil => simp [pieces]
  | cons c first inductionHypothesis =>
      rw [List.cons_append, pieces, pieces, inductionHypothesis]
      by_cases same : c = separator
      · rw [if_pos same, if_pos same, List.cons_append]
      · rw [if_neg same, if_neg same]
        cases split : pieces first with
        | nil => exact absurd split (pieces_ne_nil first)
        | cons piece others => rfl

theorem separator_not_mem_of_mem_pieces {text piece : List Char} (member : piece ∈ pieces text) :
    separator ∉ piece := by
  induction text generalizing piece with
  | nil =>
      rw [pieces, List.mem_singleton] at member
      exact member ▸ List.not_mem_nil
  | cons c rest inductionHypothesis =>
      rw [pieces] at member
      by_cases same : c = separator
      · rw [if_pos same, List.mem_cons] at member
        rcases member with rfl | behind
        · exact List.not_mem_nil
        · exact inductionHypothesis behind
      · rw [if_neg same] at member
        cases split : pieces rest with
        | nil => exact absurd split (pieces_ne_nil rest)
        | cons first others =>
            rw [split] at member inductionHypothesis
            rcases List.mem_cons.mp member with rfl | behind
            · intro isThere
              rcases List.mem_cons.mp isThere with isFirst | isBehind
              · exact same isFirst.symm
              · exact inductionHypothesis List.mem_cons_self isBehind
            · exact inductionHypothesis (List.mem_cons_of_mem first behind)

theorem pieces_of_no_separator {name : List Char} (noSeparator : separator ∉ name) :
    pieces name = [name] := by
  induction name with
  | nil => rfl
  | cons c name inductionHypothesis =>
      obtain ⟨different, noneBehind⟩ := not_or.mp (mt List.mem_cons.mpr noSeparator)
      simp [pieces, inductionHypothesis noneBehind, Ne.symm different]

theorem pieces_intercalate {names : List (List Char)} (present : names ≠ [])
    (noSeparator : ∀ name ∈ names, separator ∉ name) :
    pieces ([separator].intercalate names) = names := by
  induction names with
  | nil => exact absurd rfl present
  | cons name names inductionHypothesis =>
      obtain ⟨noneHere, noneBehind⟩ := List.forall_mem_cons.mp noSeparator
      cases names with
      | nil =>
          rw [List.intercalate_singleton]
          exact pieces_of_no_separator noneHere
      | cons next names =>
          rw [List.intercalate_cons_cons, List.append_assoc, List.singleton_append,
            pieces_append_separator, pieces_of_no_separator noneHere,
            inductionHypothesis (List.cons_ne_nil _ _) noneBehind, List.singleton_append]

end Pieces

/-- A path written with names of files is taken apart into these names. -/
theorem Path.stepsIn_intercalate {names : List String} (present : names ≠ [])
    (named : ∀ name ∈ names, IsFileName name) : Path.stepsIn ("/".intercalate names) = names := by
  have lists : pieces ([separator].intercalate (names.map String.toList)) =
      names.map String.toList := by
    apply pieces_intercalate (by simpa using present)
    intro name member
    obtain ⟨written, isOne, rfl⟩ := List.mem_map.mp member
    exact (named written isOne).noSeparator
  have path : ("/".intercalate names).toList = [separator].intercalate (names.map String.toList) :=
    String.toList_intercalate
  rw [Path.stepsIn, path, lists, List.map_map]
  simp [Function.comp_def]

end TreeWatch
