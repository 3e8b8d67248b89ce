import TreeWatch.Proofs.Restriction
import TreeWatch.Proofs.Pattern.Covering
import TreeWatch.Proofs.Watcher.Course
import TreeWatch.Proofs.Watcher.Mirror

/-!
Watching with a pattern is watching everything and looking at the matching paths only.

Two watchers of the same files, one of them with a pattern and the other one with the pattern that
everything matches, learn times that agree on the matching paths. Every tick keeps it that way and
yields events that agree on them, as long as nothing goes wrong but for failures of the file
system.
-/

namespace TreeWatch

namespace FileSystem

/-- Whether whatever goes wrong while files are watched is a failure of the file system. -/
structure Sound (fileSystem : FileSystem) : Prop where
  walk : ∀ failure, (fileSystem.walk Watcher.root).failure = some failure →
    failure.isOfFiles = true
  timeOf : ∀ name failure, fileSystem.timeOf name = .error failure → failure.isOfFiles = true

namespace Sound

variable {fileSystem : FileSystem}

theorem isOfFiles_of_breakdown? (sound : fileSystem.Sound) {failure : Failure}
    (broken : (fileSystem.walk Watcher.root).breakdown? Watcher.root = some failure) :
    failure.isOfFiles = true := by
  obtain ⟨path, cause, rfl⟩ | ⟨cause, raised, rfl⟩ := Walk.breakdown?_cases broken
  · rfl
  · rw [Failure.isOfFiles_whileWalking]
    exact sound.walk cause raised

theorem fault?_eq_none (sound : fileSystem.Sound) (name : String) :
    fileSystem.fault? name = none := by
  rw [fault?]
  cases answer : fileSystem.timeOf name with
  | ok time => rfl
  | error failure => exact if_pos (sound.timeOf name failure answer)

end Sound

end FileSystem

theorem Pattern.filesIn_eq_filter (pattern : Pattern) {whole : Pattern}
    (all : ∀ path, whole.matches path = true) (walk : Walk) :
    pattern.filesIn walk = (whole.filesIn walk).filter pattern.matches := by
  have everything : walk.files.filter whole.matches = walk.files :=
    List.filter_eq_self.mpr fun path _ => all path
  rw [filesIn, filesIn, everything]

namespace Watcher

section Preparation

variable {fileSystem : FileSystem}

theorem seed_eq_ok_iff {pattern : Pattern} {times : Times} :
    seed pattern fileSystem = .ok times ↔
      (fileSystem.walk root).breakdown? root = none ∧
        timesOf fileSystem .empty (pattern.filesIn (fileSystem.walk root)) = .ok times := by
  rw [seed, Pattern.glob, Pattern.filesOf_eq]
  cases (fileSystem.walk root).breakdown? root <;> simp

theorem timesOf_restrict {keep : String → Bool} {found times : Times} {names : List String}
    (read : timesOf fileSystem found names = .ok times) :
    timesOf fileSystem (found.restrict keep) (names.filter keep) = .ok (times.restrict keep) := by
  induction names generalizing found with
  | nil =>
      cases read
      rfl
  | cons name later inductionHypothesis =>
      rw [timesOf] at read
      cases answer : fileSystem.timeOf name with
      | error failure =>
          rw [answer] at read
          cases read
      | ok time =>
          rw [answer] at read
          have others := inductionHypothesis read
          by_cases kept : keep name = true
          · rw [PathMap.restrict_insert_of_kept kept] at others
            rw [List.filter_cons_of_pos kept, timesOf, answer]
            exact others
          · rw [PathMap.restrict_insert_of_dropped (Bool.eq_false_iff.mpr kept)] at others
            rw [List.filter_cons_of_neg kept]
            exact others

theorem seed_restrict {pattern whole : Pattern} {times : Times}
    (all : ∀ path, whole.matches path = true) (seeded : seed whole fileSystem = .ok times) :
    seed pattern fileSystem = .ok (times.restrict pattern.matches) := by
  obtain ⟨listed, read⟩ := seed_eq_ok_iff.mp seeded
  apply seed_eq_ok_iff.mpr
  refine ⟨listed, ?_⟩
  rw [pattern.filesIn_eq_filter all]
  exact timesOf_restrict read

end Preparation

/-- What a watcher finds out about files by a pass, if nothing goes wrong but for failures of the
file system. -/
def findings (watcher : Watcher) (fileSystem : FileSystem) : Changes.Revision :=
  match (fileSystem.walk root).breakdown? root with
  | some _ => ⟨[], watcher.tracked⟩
  | none =>
      Changes.between watcher.tracked
        (fileSystem.observe .empty (watcher.pattern.filesIn (fileSystem.walk root)))

theorem course_of_sound {fileSystem : FileSystem} (sound : fileSystem.Sound) (watcher : Watcher) :
    (watcher.course fileSystem .begin).result = .ok (watcher.findings fileSystem).events ∧
      (watcher.course fileSystem .begin).times = (watcher.findings fileSystem).times := by
  rw [course, Pass.course, findings]
  cases broken : (fileSystem.walk root).breakdown? root with
  | some failure =>
      simp only [if_pos (sound.isOfFiles_of_breakdown? broken)]
      trivial
  | none =>
      have noFault : (watcher.pattern.filesIn (fileSystem.walk root)).findSome?
          fileSystem.fault? = none :=
        List.findSome?_eq_none_iff.mpr fun name _ => sound.fault?_eq_none name
      simp only [Pass.courseOfLook, noFault]
      trivial

theorem runDrained_of_sound {watcher : Watcher} {fileSystem : FileSystem}
    (drained : watcher.Drained) (sound : fileSystem.Sound) (owner : Owner) :
    ∃ final reports, watcher.runDrained owner fileSystem .begin =
        (final, reports, .ended (.ok (watcher.findings fileSystem).events)) ∧
      final.tracked = (watcher.findings fileSystem).times ∧ final.Drained ∧
      Frame watcher final := by
  obtain ⟨final, ran, tracked, stillDrained, frame⟩ :=
    runDrained_of_drained drained owner fileSystem .begin
  obtain ⟨result, times⟩ := course_of_sound sound watcher
  rw [result] at ran
  rw [times] at tracked
  exact ⟨final, _, ran, tracked, stillDrained, frame⟩

/-- What a tick comes to: how its pass ends, and the watcher it leaves behind. -/
structure Tick where
  outcome : Outcome
  behind : Watcher

def ticks (watcher : Watcher) (owner : Owner) : List FileSystem → List Tick
  | [] => []
  | fileSystem :: later =>
      let (behind, _, outcome) := watcher.runDrained owner fileSystem .begin
      ⟨outcome, behind⟩ :: behind.ticks owner later

/-- Whether a tick comes to what another one comes to as far as some of the paths go. -/
structure Tick.Filters (keep : String → Bool) (tick whole : Tick) : Prop where
  events : ∃ events, whole.outcome = .ended (.ok events) ∧
    tick.outcome = .ended (.ok (events.filter fun event => keep event.path))
  tracked : tick.behind.tracked.entries =
    whole.behind.tracked.entries.filter fun entry => keep entry.1
  ready : tick.behind.lifecycle = .ready
  wholeReady : whole.behind.lifecycle = .ready

/-- Whether a watcher knows what another one knows, which watches everything, as far as the paths
go that match its pattern. -/
structure Filters (watcher whole : Watcher) : Prop where
  drained : watcher.Drained
  wholeDrained : whole.Drained
  ready : watcher.lifecycle = .ready
  wholeReady : whole.lifecycle = .ready
  all : ∀ path, whole.pattern.matches path = true
  tracked : watcher.tracked = whole.tracked.restrict watcher.pattern.matches

namespace Filters

variable {watcher whole final wholeFinal : Watcher} {owner wholeOwner : Owner}

theorem findings_restrict (filters : watcher.Filters whole) (fileSystem : FileSystem) :
    watcher.findings fileSystem =
      (whole.findings fileSystem).restrict watcher.pattern.matches := by
  rw [findings, findings, filters.tracked, watcher.pattern.filesIn_eq_filter filters.all]
  cases (fileSystem.walk root).breakdown? root with
  | some failure => rfl
  | none =>
      rw [← Changes.between_restrict, FileSystem.observe, FileSystem.observe,
        PathMap.restrict_foldl_insert]
      rfl

theorem tick (filters : watcher.Filters whole) {fileSystem : FileSystem}
    (sound : fileSystem.Sound) {reports wholeReports : Reports} {outcome wholeOutcome : Outcome}
    (ran : watcher.runDrained owner fileSystem .begin = (final, reports, outcome))
    (wholeRan : whole.runDrained wholeOwner fileSystem .begin =
      (wholeFinal, wholeReports, wholeOutcome)) :
    Tick.Filters watcher.pattern.matches ⟨outcome, final⟩ ⟨wholeOutcome, wholeFinal⟩ ∧
      final.Filters wholeFinal ∧ final.pattern = watcher.pattern := by
  obtain ⟨_, _, same, tracked, drained, frame⟩ :=
    runDrained_of_sound filters.drained sound owner
  cases ran.symm.trans same
  obtain ⟨_, _, wholeSame, wholeTracked, wholeDrained, wholeFrame⟩ :=
    runDrained_of_sound filters.wholeDrained sound wholeOwner
  cases wholeRan.symm.trans wholeSame
  have found := filters.findings_restrict fileSystem
  have agree : final.tracked = wholeFinal.tracked.restrict watcher.pattern.matches := by
    rw [tracked, wholeTracked, found]
    rfl
  have ready := frame.lifecycle.trans filters.ready
  have wholeReady := wholeFrame.lifecycle.trans filters.wholeReady
  refine ⟨⟨?_, ?_, ready, wholeReady⟩, ?_, frame.pattern⟩
  · refine ⟨_, rfl, ?_⟩
    rw [found]
    rfl
  · rw [agree]
    rfl
  · exact ⟨drained, wholeDrained, ready, wholeReady, wholeFrame.pattern ▸ filters.all,
      frame.pattern ▸ agree⟩

theorem ticks (filters : watcher.Filters whole) (owner wholeOwner : Owner)
    {fileSystems : List FileSystem} (sound : ∀ fileSystem ∈ fileSystems, fileSystem.Sound) :
    List.Forall₂ (Tick.Filters watcher.pattern.matches) (watcher.ticks owner fileSystems)
      (whole.ticks wholeOwner fileSystems) := by
  induction fileSystems generalizing watcher whole with
  | nil => exact .nil
  | cons fileSystem later inductionHypothesis =>
      obtain ⟨soundNow, soundLater⟩ := List.forall_mem_cons.mp sound
      obtain ⟨first, after, same⟩ := filters.tick soundNow rfl rfl
      apply List.Forall₂.cons first
      rw [← same]
      exact inductionHypothesis after soundLater

end Filters

theorem Drained.of_create {source : PatternSource} {interval : Number} {bufferSize : Int}
    {watcher : Watcher} (created : create source interval bufferSize = .ok watcher) :
    watcher.Drained := by
  obtain ⟨_, _, _, same⟩ := eq_of_create created
  rw [same]
  exact ⟨rfl, rfl, rfl, rfl⟩

section Everything

variable {source : PatternSource} {interval wholeInterval : Number} {bufferSize wholeSize : Int}
  {watcher whole ready wholeReady : Watcher} {fileSystem : FileSystem}

theorem filters_of_prepare (created : create source interval bufferSize = .ok watcher)
    (wholeCreated : create (.text "**") wholeInterval wholeSize = .ok whole)
    (prepared : watcher.prepare fileSystem = .ok ready)
    (wholePrepared : whole.prepare fileSystem = .ok wholeReady) :
    ready.Filters wholeReady ∧ ready.pattern = watcher.pattern := by
  obtain ⟨_, times, seeded, rfl⟩ := eq_of_prepare prepared
  obtain ⟨_, wholeTimes, wholeSeeded, rfl⟩ := eq_of_prepare wholePrepared
  have everything : whole.pattern.text = "**" :=
    Pattern.compile_eq_ok_iff.mp (eq_of_create wholeCreated).1
  have all := Pattern.matches_of_wildcard everything
  have agree : times = wholeTimes.restrict watcher.pattern.matches :=
    Except.ok.inj (seeded.symm.trans (seed_restrict all wholeSeeded))
  have drained := Drained.of_create created
  have wholeDrained := Drained.of_create wholeCreated
  refine ⟨⟨?_, ?_, rfl, rfl, all, agree⟩, rfl⟩
  · exact ⟨drained.eventsOpen, drained.errorsOpen, drained.eventsRead, drained.errorsRead⟩
  · exact ⟨wholeDrained.eventsOpen, wholeDrained.errorsOpen, wholeDrained.eventsRead,
      wholeDrained.errorsRead⟩

/-- Each tick of a watcher yields what a watcher of everything yields in its place, but for the
paths that do not match, and leaves behind what that watcher knows, again but for these paths. -/
theorem ticks_filtered (created : create source interval bufferSize = .ok watcher)
    (wholeCreated : create (.text "**") wholeInterval wholeSize = .ok whole)
    (prepared : watcher.prepare fileSystem = .ok ready)
    (wholePrepared : whole.prepare fileSystem = .ok wholeReady) (owner wholeOwner : Owner)
    {fileSystems : List FileSystem} (sound : ∀ fileSystem ∈ fileSystems, fileSystem.Sound) :
    List.Forall₂ (Tick.Filters watcher.pattern.matches) (ready.ticks owner fileSystems)
      (wholeReady.ticks wholeOwner fileSystems) := by
  obtain ⟨filters, same⟩ :=
    filters_of_prepare created wholeCreated prepared wholePrepared
  rw [← same]
  exact filters.ticks owner wholeOwner sound

end Everything

def early : FileSystem where
  walk _ := ⟨[⟨"d/a", false, none⟩, ⟨"b", false, none⟩], none⟩
  timeOf _ := .ok 1

/-- The file further down has changed, the other one has given way to one that cannot be read and
one that can. -/
def late : FileSystem where
  walk _ := ⟨[⟨"c", false, none⟩, ⟨"d/a", false, none⟩, ⟨"e", false, none⟩], none⟩
  timeOf
    | "c" => .error (.file .denied none "locked")
    | "d/a" => .ok 2
    | _ => .ok 1

theorem sound_late : late.Sound where
  walk failure raised := by cases raised
  timeOf name failure answer := by
    simp only [late] at answer
    split at answer
    · cases answer
      rfl
    · cases answer
    · cases answer

/-- The watcher of the root directory hears nothing of the file further down. -/
theorem ticks_filtered_nested :
    ∃ watcher whole ready wholeReady tick,
      create (.text "*") (.double 1) 1 = .ok watcher ∧
      create (.text "**") (.double 1) 1 = .ok whole ∧
      watcher.prepare early = .ok ready ∧ whole.prepare early = .ok wholeReady ∧ late.Sound ∧
      ready.ticks (.caller 0) [late] = [tick] ∧
      tick.outcome = .ended (.ok [⟨.created, "e"⟩, ⟨.deleted, "b"⟩]) := by
  let ready : Watcher := { narrow with tracked := .ofList [("b", 1)], lifecycle := .ready }
  let whole : Watcher := { narrow with pattern := ⟨"**", [.directories], rfl⟩ }
  let wholeReady : Watcher :=
    { whole with tracked := .ofList [("d/a", 1), ("b", 1)], lifecycle := .ready }
  have created : create (.text "*") (.double 1) 1 = .ok narrow := rfl
  have wholeCreated : create (.text "**") (.double 1) 1 = .ok whole := rfl
  have prepared : narrow.prepare early = .ok ready := by cbv
  have wholePrepared : whole.prepare early = .ok wholeReady := by cbv
  have filtered := ticks_filtered created wholeCreated prepared wholePrepared (.caller 0)
    (.caller 0) (List.forall_mem_singleton.mpr sound_late)
  have drained : wholeReady.Drained := ⟨rfl, rfl, rfl, rfl⟩
  obtain ⟨final, reports, ran, _⟩ := runDrained_of_sound drained sound_late (.caller 0)
  have names : wholeReady.pattern.filesIn (late.walk root) = ["c", "d/a", "e"] := by cbv
  have found : (wholeReady.findings late).events =
      [⟨.modified, "d/a"⟩, ⟨.created, "e"⟩, ⟨.deleted, "b"⟩] := by
    rw [findings, names]
    decide
  have wholeTicks : wholeReady.ticks (.caller 0) [late] =
      [⟨.ended (.ok [⟨.modified, "d/a"⟩, ⟨.created, "e"⟩, ⟨.deleted, "b"⟩]), final⟩] := by
    rw [ticks, ran, found]
    rfl
  rw [wholeTicks] at filtered
  obtain ⟨tick, _, ⟨⟨events, ended, outcome⟩, _⟩, noMore, same⟩ :=
    List.forall₂_cons_right_iff.mp filtered
  cases ended
  cases noMore
  refine ⟨narrow, whole, ready, wholeReady, tick, created, wholeCreated, prepared, wholePrepared,
    sound_late, same, ?_⟩
  rw [outcome]
  cbv

end Watcher

end TreeWatch
