import TreeWatch.Pattern.Glob

/-!
What a listing yields, in closed form.

The first failure of the walk decides, where the failures of entries come before the one that the
walk breaks off with. Without any, the listing is that of the matching files. `ListsAs` says the
same case by case, with what each kind of failure is reported as.
-/

namespace TreeWatch

def Entry.breakdown? (entry : Entry) : Option Failure := entry.failure.map (.listing entry.path)

def Walk.breakdown? (walk : Walk) (root : String) : Option Failure :=
  (walk.entries.findSome? Entry.breakdown?).or (walk.failure.map (·.whileWalking root))

def Walk.files (walk : Walk) : List String :=
  (walk.entries.filter fun entry => !entry.isDirectory).map (·.path)

/-- The paths of matching files in a walk, as often as the walk yields them. -/
def Pattern.filesIn (pattern : Pattern) (walk : Walk) : List String :=
  walk.files.filter pattern.matches

namespace Failure

variable {root : String} {failure : Failure}

theorem isOfWalk_whileWalking :
    (failure.whileWalking root).isOfWalk = failure.isOfFiles := by
  cases failure <;> rfl

theorem isOfFiles_whileWalking :
    (failure.whileWalking root).isOfFiles = failure.isOfFiles := by
  cases failure <;> rfl

end Failure

namespace Walk

variable {walk : Walk} {root : String} {failure : Failure}

theorem breakdown?_cases (broken : walk.breakdown? root = some failure) :
    (∃ path cause, failure = .listing path cause) ∨
      ∃ cause, walk.failure = some cause ∧ failure = cause.whileWalking root := by
  rcases Option.or_eq_some_iff.mp broken with listed | ⟨_, raised⟩
  · obtain ⟨entry, _, same⟩ := List.exists_of_findSome?_eq_some listed
    obtain ⟨cause, _, rfl⟩ := Option.map_eq_some_iff.mp same
    exact .inl ⟨entry.path, cause, rfl⟩
  · obtain ⟨cause, found, rfl⟩ := Option.map_eq_some_iff.mp raised
    exact .inr ⟨cause, found, rfl⟩

/-- A failed walk is reported as one if and only if a failure of the file system is the cause. -/
theorem isOfWalk_of_breakdown? (broken : walk.breakdown? root = some failure) :
    failure.isOfWalk = failure.isOfFiles := by
  obtain ⟨path, cause, rfl⟩ | ⟨cause, _, rfl⟩ := breakdown?_cases broken
  · rfl
  · rw [Failure.isOfWalk_whileWalking, Failure.isOfFiles_whileWalking]

end Walk

namespace Pattern

variable {pattern : Pattern}

theorem filesAmong_eq (ending : Except Failure Unit) (entries : List Entry) :
    pattern.filesAmong ending entries =
      match entries.findSome? Entry.breakdown? with
      | some failure => .error failure
      | none => ending.map fun _ =>
          ((entries.filter fun entry => !entry.isDirectory).map (·.path)).filter
            pattern.matches := by
  induction entries with
  | nil => rfl
  | cons entry later inductionHypothesis =>
      rw [filesAmong, List.findSome?_cons, Entry.breakdown?]
      cases entry.failure with
      | some failure => rfl
      | none =>
          simp only [Option.map_none, inductionHypothesis]
          by_cases isFile : entry.isDirectory = false
          · by_cases fits : pattern.matches entry.path = true
            · cases later.findSome? Entry.breakdown? with
              | some failure => simp [isFile, fits, Except.map]
              | none => cases ending <;> simp [isFile, fits, Except.map]
            · simp [isFile, fits]
          · simp [isFile]

theorem filesOf_eq (root : String) (walk : Walk) :
    pattern.filesOf root walk =
      match walk.breakdown? root with
      | some failure => .error failure
      | none => .ok (pattern.filesIn walk) := by
  rw [filesOf, filesAmong_eq, Walk.breakdown?]
  cases walk.entries.findSome? Entry.breakdown? with
  | some failure => rfl
  | none => cases walk.failure <;> rfl

end Pattern

def Walk.Clean (walk : Walk) : Prop := ∀ entry ∈ walk.entries, entry.failure = none

namespace Pattern

/-- What listing a walk below a root comes to. The first failure in the order of the walk
decides. -/
inductive ListsAs (pattern : Pattern) (root : String) (walk : Walk) :
    Except Failure (List String) → Prop where
  | files : walk.Clean → walk.failure = none →
      ListsAs pattern root walk (.ok (pattern.filesIn walk))
  | entry {earlier entry later cause} : walk.entries = earlier ++ entry :: later →
      (∀ entry ∈ earlier, entry.failure = none) → entry.failure = some cause →
      ListsAs pattern root walk (.error (.listing entry.path cause))
  /-- The walk itself has reported already where it failed. -/
  | reported {failure} : walk.Clean → walk.failure = some failure → failure.isOfWalk = true →
      ListsAs pattern root walk (.error failure)
  | raised {cause} : walk.Clean → walk.failure = some cause → cause.isOfFiles = true →
      cause.isOfWalk = false → ListsAs pattern root walk (.error (.listing root cause))
  /-- What is not about files is not touched. -/
  | fault {failure} : walk.Clean → walk.failure = some failure → failure.isOfFiles = false →
      ListsAs pattern root walk (.error failure)

variable {pattern : Pattern} {root : String} {walk : Walk}

theorem breakdown?_of_clean (clean : walk.Clean) :
    walk.breakdown? root = walk.failure.map (·.whileWalking root) := by
  have none : walk.entries.findSome? Entry.breakdown? = none := by
    rw [List.findSome?_eq_none_iff]
    intro entry member
    rw [Entry.breakdown?, clean entry member]
    rfl
  rw [Walk.breakdown?, none, Option.none_or]

theorem filesOf_of_clean (clean : walk.Clean) :
    pattern.filesOf root walk =
      match walk.failure with
      | some failure => .error (failure.whileWalking root)
      | none => .ok (pattern.filesIn walk) := by
  rw [filesOf_eq, breakdown?_of_clean clean]
  cases walk.failure <;> rfl

theorem filesOf_of_entry {earlier later : List Entry} {entry : Entry} {cause : Failure}
    (entries : walk.entries = earlier ++ entry :: later)
    (clean : ∀ entry ∈ earlier, entry.failure = none) (failed : entry.failure = some cause) :
    pattern.filesOf root walk = .error (.listing entry.path cause) := by
  have found : walk.entries.findSome? Entry.breakdown? = some (.listing entry.path cause) := by
    rw [List.findSome?_eq_some_iff]
    refine ⟨earlier, entry, later, entries, ?_, ?_⟩
    · rw [Entry.breakdown?, failed]
      rfl
    · intro before member
      rw [Entry.breakdown?, clean before member]
      rfl
  rw [filesOf_eq, Walk.breakdown?, found]
  rfl

theorem clean_or_first (walk : Walk) :
    walk.Clean ∨ ∃ earlier entry later cause, walk.entries = earlier ++ entry :: later ∧
      (∀ entry ∈ earlier, entry.failure = none) ∧ entry.failure = some cause := by
  cases found : walk.entries.findSome? (·.failure) with
  | none => exact .inl (List.findSome?_eq_none_iff.mp found)
  | some cause =>
      obtain ⟨earlier, entry, later, entries, failed, clean⟩ := List.findSome?_eq_some_iff.mp found
      exact .inr ⟨earlier, entry, later, cause, entries, clean, failed⟩

theorem listsAs_filesOf (pattern : Pattern) (root : String) (walk : Walk) :
    pattern.ListsAs root walk (pattern.filesOf root walk) := by
  obtain clean | ⟨earlier, entry, later, cause, entries, clean, failed⟩ := clean_or_first walk
  · rw [filesOf_of_clean clean]
    cases ending : walk.failure with
    | none => exact .files clean ending
    | some failure =>
        cases failure with
        | file kind code detail => exact .raised clean ending rfl rfl
        | walk path detail => exact .reported clean ending rfl
        | listing path cause => exact .reported clean ending rfl
        | fault kind detail => exact .fault clean ending rfl
  · rw [filesOf_of_entry entries clean failed]
    exact .entry entries clean failed

theorem filesOf_of_listsAs {outcome : Except Failure (List String)}
    (lists : pattern.ListsAs root walk outcome) : pattern.filesOf root walk = outcome := by
  cases lists with
  | files clean ending => rw [filesOf_of_clean clean, ending]
  | entry entries clean failed => exact filesOf_of_entry entries clean failed
  | reported clean ending ofWalk =>
      rw [filesOf_of_clean clean, ending]
      simp [Failure.whileWalking, ofWalk]
  | raised clean ending ofFiles notOfWalk =>
      rw [filesOf_of_clean clean, ending]
      simp [Failure.whileWalking, ofFiles, notOfWalk]
  | fault clean ending notOfFiles =>
      rw [filesOf_of_clean clean, ending]
      simp [Failure.whileWalking, notOfFiles]

/-- The matching files are listed, in the order of the walk and as often as it yields them, exactly
if no entry carries a failure and the walk does not break off. Otherwise the first failure is
reported, each kind in its way. -/
theorem glob_listsAs (pattern : Pattern) (fileSystem : FileSystem) (root : String) :
    ((∃ paths, pattern.glob fileSystem root = .ok paths) ↔
      (∀ entry ∈ (fileSystem.walk root).entries, entry.failure = none) ∧
        (fileSystem.walk root).failure = none) ∧
    ∀ outcome, pattern.glob fileSystem root = outcome ↔
      pattern.ListsAs root (fileSystem.walk root) outcome := by
  have each : ∀ outcome, pattern.glob fileSystem root = outcome ↔
      pattern.ListsAs root (fileSystem.walk root) outcome := by
    intro outcome
    refine ⟨?_, filesOf_of_listsAs⟩
    rintro rfl
    exact listsAs_filesOf pattern root (fileSystem.walk root)
  refine ⟨⟨?_, ?_⟩, each⟩
  · rintro ⟨paths, listed⟩
    cases (each _).mp listed with
    | files clean ending => exact ⟨clean, ending⟩
  · rintro ⟨clean, ending⟩
    exact ⟨_, (each _).mpr (.files clean ending)⟩

end Pattern

end TreeWatch
