import Mathlib.Data.List.Nodup
import TreeWatch.Proofs.Tree.Walk

/-!
Where the paths of a file system lie.

A path lies below the base whatever it looks like: its pieces are written behind the base, less
those that say nothing. A walk comes to a node by way of the directories above it, and a path that
is put together from the root of the walk and the path of an entry leads to the same place. What is
found there is the node that was listed.
-/

namespace TreeWatch

namespace Path

def movesIn (text : String) : List String := (stepsIn text).filter fun step => !staysPut step

theorem stepsIn_append_separator (first second : String) :
    stepsIn (first ++ "/" ++ second) = stepsIn first ++ stepsIn second := by
  have joined : (first ++ "/" ++ second).toList =
      first.toList ++ separator :: second.toList := by
    simp [separator]
  rw [stepsIn, joined, pieces_append_separator, List.map_append]
  rfl

theorem movesIn_append_separator (first second : String) :
    movesIn (first ++ "/" ++ second) = movesIn first ++ movesIn second := by
  rw [movesIn, stepsIn_append_separator, List.filter_append]
  rfl

theorem movesIn_intercalate {names : List String} (present : names ≠ [])
    (named : ∀ name ∈ names, IsFileName name) : movesIn ("/".intercalate names) = names := by
  rw [movesIn, stepsIn_intercalate present named, List.filter_eq_self]
  intro name member
  obtain ⟨present, noDots, _, _⟩ := named name member
  simp [staysPut, present, noDots.1]

/-- A piece between separators never starts a path anew. -/
theorem ofText_of_no_separator {step : String} (noSeparator : separator ∉ step.toList) :
    ofText step = ⟨.relative, [step].filter fun step => !staysPut step⟩ := by
  have anchor : Anchor.ofText step.toList = .relative := by
    unfold Anchor.ofText
    split <;> simp_all [separator]
  rw [ofText, anchor, stepsIn, pieces_of_no_separator noSeparator]
  simp

theorem foldl_join_of_no_separator {steps : List String}
    (noSeparator : ∀ step ∈ steps, separator ∉ step.toList) (start : Path) :
    (steps.map ofText).foldl join start =
      ⟨start.anchor, start.names ++ steps.filter fun step => !staysPut step⟩ := by
  induction steps generalizing start with
  | nil => simp
  | cons step steps inductionHypothesis =>
      obtain ⟨noneHere, noneBehind⟩ := List.forall_mem_cons.mp noSeparator
      have joined : start.join (ofText step) =
          ⟨start.anchor, start.names ++ [step].filter fun step => !staysPut step⟩ := by
        rw [ofText_of_no_separator noneHere]
        rfl
      rw [List.map_cons, List.foldl_cons, joined, inductionHypothesis noneBehind]
      simp only [List.append_assoc, ← List.filter_append, List.singleton_append]

theorem foldl_child (names : List String) (path : Path) :
    names.foldl child path = ⟨path.anchor, path.names ++ names⟩ := by
  induction names generalizing path with
  | nil => simp
  | cons name names inductionHypothesis => simp [inductionHypothesis, child]

@[simp]
theorem names_foldl_child (names : List String) (path : Path) :
    (names.foldl child path).names = path.names ++ names := by
  rw [foldl_child]

@[simp]
theorem origin_foldl_child (names : List String) (path : Path) :
    (names.foldl child path).origin = path.origin := by
  rw [foldl_child]
  rfl

theorem unusable?_foldl_child {path : Path} {names : List String}
    (usable : path.unusable? = none) (named : ∀ name ∈ names, IsFileName name) :
    (names.foldl child path).unusable? = none := by
  have noNull : (names.any fun name => name.contains '\x00') = false := by
    rw [List.any_eq_false]
    intro name member
    simpa [String.contains_char_eq] using (named name member).noNull
  simp only [unusable?, names_foldl_child, List.any_append, noNull, Bool.or_false]
  exact usable

end Path

namespace Node

section Following

variable {top node target : Node} {place reached last : Path} {steps later more names : List String}
  {step : String} {links : Nat} {time : Seconds} {listable : Bool}
  {children : List (String × Node)}

theorem follow_of_child (isDirectory : top.at? place = some (.directory time listable children))
    (moves : Path.staysPut step = false) (notUp : step ≠ "..")
    (short : step.utf8ByteSize ≤ nameLimit) (isThere : top.at? (place.child step) = some node)
    (notLink : ∀ text, node ≠ .link text) :
    top.follow links place (step :: later) = top.follow links (place.child step) later := by
  rw [follow, isDirectory]
  simp only [moves, notUp, Nat.not_lt.mpr short, isThere, if_false, Bool.false_eq_true]

theorem follow_append (leads : top.follow links place steps = .ok reached)
    (onward : ∀ links, top.follow links reached more = .ok last) :
    top.follow links place (steps ++ more) = .ok last := by
  fun_induction follow top links place steps with
  | case1 links place =>
      cases leads
      exact onward links
  | case2 links place step later time listable children isDirectory stays inductionHypothesis =>
      rw [List.cons_append, follow, isDirectory]
      simp only [stays, if_true]
      exact inductionHypothesis leads
  | case3 links place later time listable children isDirectory stays inductionHypothesis =>
      rw [List.cons_append, follow, isDirectory]
      simp only [stays, if_true]
      exact inductionHypothesis leads
  | case7 place step later time listable children isDirectory moves notUp short target isLink links
      inductionHypothesis =>
      rw [List.cons_append, follow, isDirectory]
      simp only [moves, notUp, short, isLink, if_false]
      rw [← List.append_assoc]
      exact inductionHypothesis leads
  | case8 links place step later time listable children isDirectory moves notUp short next notLink
      isThere inductionHypothesis =>
      rw [List.cons_append, follow_of_child isDirectory (Bool.eq_false_iff.mpr moves) notUp
        (Nat.not_lt.mp short) isThere notLink]
      exact inductionHypothesis leads
  | case4 | case5 | case6 | case9 => cases leads

theorem descendant?_append (node : Node) (first second : List String) :
    node.descendant? (first ++ second) =
      (node.descendant? first).bind fun below => below.descendant? second := by
  induction first generalizing node with
  | nil => rfl
  | cons name first inductionHypothesis =>
      rw [List.cons_append, descendant?, descendant?, Option.bind_assoc]
      exact Option.bind_congr fun child _ => inductionHypothesis child

theorem child?_of_mem {name : String} {child : Node} (distinct : (children.map Prod.fst).Nodup)
    (member : (name, child) ∈ children) :
    (directory time listable children).child? name = some child := by
  obtain ⟨before, behind, rfl⟩ := List.append_of_mem member
  apply List.lookup_eq_some_iff.mpr
  refine ⟨before, behind, rfl, ?_⟩
  intro other isBefore
  rw [List.map_append, List.map_cons, List.nodup_middle, List.nodup_cons] at distinct
  have different : name ≠ other.1 := by
    rintro rfl
    exact distinct.1 (List.mem_append_left _ (List.mem_map.mpr ⟨other, isBefore, rfl⟩))
  simpa using different

theorem at?_child {name : String} {child : Node}
    (wellFormed : (directory time listable children).WellFormed)
    (isDirectory : top.at? place = some (directory time listable children))
    (member : (name, child) ∈ children) : top.at? (place.child name) = some child := by
  cases wellFormed with
  | directory distinct _ _ =>
      unfold at? at isDirectory ⊢
      split at isDirectory
      · -- Outside the tree there is only one directory, and it is empty.
        split at isDirectory
        · cases isDirectory
          cases member
        · cases isDirectory
      · rename_i relative
        have stays : ¬(place.child name).isAbsolute = true := relative
        rw [if_neg stays, Path.child, descendant?_append, isDirectory, Option.bind_some,
          descendant?, child?_of_mem distinct member]
        rfl

theorem follow_of_reaches {shown : Path → String} {location : Path}
    (reaches : Reaches shown location node names target) (wellFormed : node.WellFormed)
    (isThere : top.at? place = some node) (notLink : ∀ text, target ≠ .link text)
    (short : ∀ name ∈ names, name.utf8ByteSize ≤ nameLimit) (links : Nat) :
    top.follow links place names = .ok (names.foldl Path.child place) ∧
      top.at? (names.foldl Path.child place) = some target := by
  induction reaches generalizing place with
  | here => exact ⟨by rw [follow]; rfl, isThere⟩
  | @through location time listable children name child names target listed member reaches
      inductionHypothesis =>
      have isChild := at?_child wellFormed isThere member
      obtain ⟨shortHere, shortBelow⟩ := List.forall_mem_cons.mp short
      cases wellFormed with
      | directory _ named below =>
          obtain ⟨present, noDots, _, _⟩ := named _ member
          have childNotLink : ∀ text, child ≠ .link text := by
            rintro text rfl
            cases reaches
            exact notLink text rfl
          rw [follow_of_child isThere (by simp [Path.staysPut, present, noDots.1]) noDots.2
            shortHere isChild childNotLink]
          exact inductionHypothesis (below _ member) isChild notLink shortBelow

end Following

end Node

namespace LocalFiles

open Node (Reaches)

variable {files : LocalFiles} {root : String} {node target : Node} {names : List String}

theorem locate_eq (files : LocalFiles) (path : String) :
    files.locate path = ⟨files.base.anchor, files.base.names ++ Path.movesIn path⟩ := by
  unfold locate
  split
  · rename_i here
    have nowhere : Path.movesIn path = [] := by
      rcases here with rfl | rfl <;> decide
    rw [nowhere, List.append_nil]
  · apply Path.foldl_join_of_no_separator
    intro step member
    obtain ⟨piece, isPiece, rfl⟩ := List.mem_map.mp member
    simpa using separator_not_mem_of_mem_pieces isPiece

theorem locate_append_separator (files : LocalFiles) (root path : String) :
    files.locate (root ++ "/" ++ path) =
      (Path.movesIn path).foldl Path.child (files.locate root) := by
  rw [locate_eq, locate_eq, Path.foldl_child, Path.movesIn_append_separator, List.append_assoc]

theorem exists_directory_of_sound {location : Path} {located : LocatedEntry}
    (isListed : located ∈ files.listing location) (sound : located.entry.failure = none) :
    ∃ node, files.find location = .ok node ∧ node.isDirectory = true ∧
      node.refused? files.shown location = none := by
  unfold listing at isListed
  cases found : files.find location with
  | error error =>
      simp only [found, List.mem_singleton] at isListed
      simp [isListed] at sound
  | ok node =>
      simp only [found] at isListed
      split at isListed
      · rename_i isDirectory
        refine ⟨node, rfl, isDirectory, ?_⟩
        cases node with
        | file | link => cases isDirectory
        | directory time listable children =>
            cases refused : Node.refusal? files.shown location listable with
            | none => exact refused
            | some failure =>
                rw [Node.contents_of_refused _ _ _ refused, Node.complaint, Node.refused?,
                  refused] at isListed
                obtain rfl := List.mem_singleton.mp isListed
                cases sound
      · simp [List.mem_singleton.mp isListed] at sound

theorem exists_canList {entry : Entry} (member : entry ∈ (files.walk root).entries)
    (sound : entry.failure = none) : ∃ node, files.CanList root node := by
  unfold walk at member
  cases usable : (files.locate root).unusable? with
  | some failure => simp [usable] at member
  | none =>
      simp only [usable] at member
      obtain ⟨located, isListed, rfl⟩ := List.mem_map.mp member
      obtain ⟨node, found, isDirectory, notRefused⟩ := exists_directory_of_sound isListed sound
      exact ⟨node, usable, found, isDirectory, notRefused⟩

theorem find_of_follow {path place : Path}
    (short : (files.shown path).utf8ByteSize ≤ Node.pathLimit)
    (leads : files.top.follow Node.linkLimit path.origin path.names = .ok place)
    (isThere : files.top.at? place = some node) : files.find path = .ok node := by
  rw [find, Node.find, if_neg (Nat.not_lt.mpr short), leads]
  simp only [isThere]
  rfl

/-- What a listing comes upon is found at the place where it came upon it, if it is not a link and
no name and no path is too long. -/
theorem find_of_reaches (wellFormed : files.top.WellFormed) (canList : files.CanList root node)
    (reaches : Reaches files.shown (files.locate root) node names target)
    (notLink : ∀ text, target ≠ .link text)
    (short : ∀ name ∈ names, name.utf8ByteSize ≤ Node.nameLimit)
    (shortPath : (files.shown (names.foldl Path.child (files.locate root))).utf8ByteSize ≤
      Node.pathLimit) :
    files.find (names.foldl Path.child (files.locate root)) = .ok target := by
  obtain ⟨place, leads, isThere⟩ := exists_place canList.found
  have formed := canList.wellFormed wellFormed
  have onward := Node.follow_of_reaches reaches formed isThere notLink short
  have leadsOn := Node.follow_append leads fun links => (onward links).1
  apply find_of_follow shortPath _ (onward 0).2
  rwa [Path.origin_foldl_child, Path.names_foldl_child]

/-- An entry without a failure is the entry of a node that names lead to, and its location is where
they lead. -/
theorem exists_reaches (wellFormed : files.top.WellFormed) (canList : files.CanList root node)
    {located : LocatedEntry} (isListed : located ∈ files.listing (files.locate root))
    (sound : located.entry.failure = none) :
    ∃ names target, names ≠ [] ∧ Reaches files.shown (files.locate root) node names target ∧
      located = ⟨entryOf (names, target), names.foldl Path.child (files.locate root)⟩ := by
  obtain ⟨found, lists, same⟩ := exists_listing wellFormed canList
  rw [same] at isListed
  obtain ⟨⟨names, target⟩, member, isAccount⟩ := List.mem_flatMap.mp isListed
  have reaches := (lists.complete names target).mp (List.mem_cons_of_mem _ member)
  have present : names ≠ [] := ne_nil_of_lists lists member
  have named := reaches.fileNames (canList.wellFormed wellFormed)
  refine ⟨names, target, present, reaches, ?_⟩
  rw [Node.account, List.mem_cons, Node.foldl_nameBelow present named] at isAccount
  rcases isAccount with rfl | isComplaint
  · rfl
  · obtain ⟨failure, _, rfl⟩ := Option.map_eq_some_iff.mp (Option.mem_toList.mp isComplaint)
    cases sound

theorem mem_walk_of_reaches (wellFormed : files.top.WellFormed) (canList : files.CanList root node)
    (reaches : Reaches files.shown (files.locate root) node names target) (present : names ≠ []) :
    entryOf (names, target) ∈ (files.walk root).entries := by
  obtain ⟨found, lists, same⟩ := exists_listing wellFormed canList
  have named := reaches.fileNames (canList.wellFormed wellFormed)
  have member : (names, target) ∈ found := by
    rcases List.mem_cons.mp ((lists.complete names target).mpr reaches) with isRoot | member
    · cases isRoot
      exact absurd rfl present
    · exact member
  simp only [walk, canList.usable, same, List.map_flatMap]
  refine List.mem_flatMap.mpr ⟨_, member, ?_⟩
  rw [map_entry_account present named]
  exact List.mem_cons_self

/-- A path leads below the base by the steps of its text, whatever it looks like. Each entry that a
walk yields without a failure is that of a node it came upon, and the path that leads from the
root to the entry is located where the node was listed; from there comes the time of that very
node, unless it is a link or the operating system finds a name or the path too long. -/
theorem locate_below_base (files : LocalFiles) :
    (∀ path, files.locate path =
      ⟨files.base.anchor, files.base.names ++ Path.movesIn path⟩) ∧
    (files.top.WellFormed → ∀ root, ∀ entry ∈ (files.walk root).entries, entry.failure = none →
      (∃ located ∈ files.listing (files.locate root), located.entry = entry) ∧
      ∀ located ∈ files.listing (files.locate root), located.entry = entry →
        files.locate (root ++ "/" ++ entry.path) = located.location ∧
        (root = "." → files.locate entry.path = located.location) ∧
        ∃ node names target, files.CanList root node ∧
          Reaches files.shown (files.locate root) node names target ∧
          entry = entryOf (names, target) ∧
          located.location = names.foldl Path.child (files.locate root) ∧
          ((∀ text, target ≠ .link text) →
            (∀ name ∈ names, name.utf8ByteSize ≤ Node.nameLimit) →
            (files.shown located.location).utf8ByteSize ≤ Node.pathLimit →
            ∀ path, files.locate path = located.location →
              files.timeOf path = .ok target.time)) := by
  refine ⟨files.locate_eq, ?_⟩
  intro wellFormed root entry member sound
  obtain ⟨node, canList⟩ := exists_canList member sound
  constructor
  · simp only [walk, canList.usable] at member
    exact List.mem_map.mp member
  · rintro located isListed rfl
    obtain ⟨names, target, present, reaches, rfl⟩ :=
      exists_reaches wellFormed canList isListed sound
    have named := reaches.fileNames (canList.wellFormed wellFormed)
    have moves : Path.movesIn (entryOf (names, target)).path = names :=
      Path.movesIn_intercalate present named
    refine ⟨?_, ?_, node, names, target, canList, reaches, rfl, rfl, ?_⟩
    · rw [locate_append_separator, moves]
    · rintro rfl
      have nowhere : Path.movesIn "." = [] := by decide
      rw [locate_eq, moves, Path.foldl_child, locate_eq, nowhere, List.append_nil]
    · intro notLink short shortPath path leads
      have usable := Path.unusable?_foldl_child canList.usable named
      simp only [timeOf, leads, usable,
        find_of_reaches wellFormed canList reaches notLink short shortPath]

def sourceFolder : Node := .directory 0 true [("a", .file 7), ("up", .link "..")]

/-- A base with more separators than it needs. -/
def sources : LocalFiles where
  top := .directory 0 true [("base", .directory 0 true [("src", sourceFolder)])]
  home := none
  base := Path.ofText "./base//"

theorem wellFormed_sources : sources.top.WellFormed := by
  have folder : sourceFolder.WellFormed :=
    .directory (by decide) (by decide) (by simp [Node.WellFormed.file, Node.WellFormed.link])
  have base : Node.WellFormed (.directory 0 true [("src", sourceFolder)]) :=
    .directory (by decide) (by decide) (by simpa using folder)
  exact .directory (by decide) (by decide) (by simpa using base)

theorem canList_sources : sources.CanList "/src/" sourceFolder := by
  have reaches : Reaches sources.shown ⟨.relative, []⟩ sources.top ["base", "src"] sourceFolder :=
    .through (by decide) List.mem_cons_self (.through (by decide) List.mem_cons_self .here)
  have isTop : sources.top.at? ⟨.relative, []⟩ = some sources.top := rfl
  have leads := Node.follow_of_reaches reaches wellFormed_sources isTop (by simp [sourceFolder])
    (by decide) Node.linkLimit
  have location : sources.locate "/src/" = ["base", "src"].foldl Path.child ⟨.relative, []⟩ := by
    decide
  have usable : (sources.locate "/src/").unusable? = none := by
    rw [location]
    exact Path.unusable?_foldl_child rfl (by decide)
  exact ⟨usable, find_of_follow (by decide) leads.1 leads.2, rfl, by decide⟩

theorem locate_below_base_sources :
    sources.top.WellFormed ∧ ⟨"a", false, none⟩ ∈ (sources.walk "/src/").entries ∧
      ∃ located ∈ sources.listing (sources.locate "/src/"),
        located.entry = ⟨"a", false, none⟩ ∧ located.location = sources.locate "/src//a" ∧
        sources.timeOf "/src//a" = .ok 7 := by
  have wellFormed := wellFormed_sources
  have reached : Reaches sources.shown (sources.locate "/src/") sourceFolder ["a"] (.file 7) :=
    .through (by decide) List.mem_cons_self .here
  have member : ⟨"a", false, none⟩ ∈ (sources.walk "/src/").entries :=
    mem_walk_of_reaches wellFormed canList_sources reached (by simp)
  obtain ⟨⟨located, isListed, same⟩, places⟩ :=
    (locate_below_base sources).2 wellFormed "/src/" _ member rfl
  obtain ⟨leads, _, node, names, target, canList, reaches, isEntry, location, timed⟩ :=
    places located isListed same
  have path : "/".intercalate names = "a" := congrArg Entry.path isEntry.symm
  have one : names = ["a"] := by
    have named := reaches.fileNames (canList.wellFormed wellFormed)
    have present : names ≠ [] := by
      rintro rfl
      exact absurd path (by decide)
    rw [← Path.stepsIn_intercalate present named, path]
    decide
  subst one
  cases canList.found.symm.trans canList_sources.found
  obtain ⟨_, child, isChild, isNamed, below⟩ := Node.reaches_cons_iff.mp reaches
  have file : target = .file 7 := by
    rw [List.mem_cons, List.mem_singleton] at isChild
    rcases isChild with rfl | rfl
    · exact Node.reaches_nil_iff.mp below
    · exact absurd isNamed (by decide)
  subst file
  exact ⟨wellFormed, member, located, isListed, same, leads.symm,
    timed (by simp) (by decide) (by rw [location]; decide) _ leads⟩

end LocalFiles

end TreeWatch
