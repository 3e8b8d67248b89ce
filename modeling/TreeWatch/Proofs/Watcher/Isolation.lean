import TreeWatch.Proofs.Watcher.Filtering

/-!
Trouble with one file never disturbs the others.

Two watchers with the same pattern look at files that differ in one path only: there its time may
be read or not, and be any time. What they know of all other paths is the same from the first look
on, and every tick keeps it that way and says the same about these paths, in the same order.
-/

namespace TreeWatch

open Pass (Course)

def isOther (path name : String) : Bool := name ≠ path

namespace FileSystem

/-- Whether two file systems differ in nothing but what they answer about the time of one path,
and answer that with a time or a failure of the file system. -/
structure AgreeBut (path : String) (first second : FileSystem) : Prop where
  walk : first.walk Watcher.root = second.walk Watcher.root
  timeOf : ∀ name, name ≠ path → first.timeOf name = second.timeOf name
  firstSound : ∀ failure, first.timeOf path = .error failure → failure.isOfFiles = true
  secondSound : ∀ failure, second.timeOf path = .error failure → failure.isOfFiles = true

theorem fault?_eq_none_of_sound {fileSystem : FileSystem} {path : String}
    (sound : ∀ failure, fileSystem.timeOf path = .error failure → failure.isOfFiles = true) :
    fileSystem.fault? path = none := by
  rw [fault?]
  cases answer : fileSystem.timeOf path with
  | ok time => rfl
  | error failure => exact if_pos (sound failure answer)

namespace AgreeBut

variable {path : String} {first second : FileSystem}

theorem fault?_eq (agree : AgreeBut path first second) : first.fault? = second.fault? := by
  funext name
  by_cases same : name = path
  · rw [same, fault?_eq_none_of_sound agree.firstSound, fault?_eq_none_of_sound agree.secondSound]
  · rw [fault?, fault?, agree.timeOf name same]

theorem timeOf_of_mem_filter (agree : AgreeBut path first second) {names : List String}
    {name : String} (member : name ∈ names.filter (isOther path)) :
    first.timeOf name = second.timeOf name :=
  agree.timeOf name (of_decide_eq_true (List.mem_filter.mp member).2)

theorem observe_restrict (agree : AgreeBut path first second) (names : List String) :
    (first.observe .empty names).restrict (isOther path) =
      (second.observe .empty names).restrict (isOther path) := by
  rw [observe, observe, PathMap.restrict_foldl_insert, PathMap.restrict_foldl_insert]
  apply List.foldl_ext
  intro seen name member
  rw [agree.timeOf_of_mem_filter member]

end AgreeBut

end FileSystem

namespace Watcher

section Preparation

variable {path : String} {first second : FileSystem} {pattern : Pattern}

theorem timesOf_congr {names : List String}
    (same : ∀ name ∈ names, first.timeOf name = second.timeOf name) (found : Times) :
    timesOf first found names = timesOf second found names := by
  induction names generalizing found with
  | nil => rfl
  | cons name later inductionHypothesis =>
      obtain ⟨sameNow, sameLater⟩ := List.forall_mem_cons.mp same
      rw [timesOf, timesOf, sameNow]
      cases second.timeOf name with
      | ok time => exact inductionHypothesis sameLater _
      | error failure => rfl

theorem seed_restrict_congr (agree : first.AgreeBut path second) {times others : Times}
    (seeded : seed pattern first = .ok times) (otherSeeded : seed pattern second = .ok others) :
    times.restrict (isOther path) = others.restrict (isOther path) := by
  obtain ⟨_, read⟩ := seed_eq_ok_iff.mp seeded
  obtain ⟨_, otherRead⟩ := seed_eq_ok_iff.mp otherSeeded
  rw [← agree.walk] at otherRead
  have kept := @timesOf_restrict _ (isOther path) _ _ _ read
  have otherKept := @timesOf_restrict _ (isOther path) _ _ _ otherRead
  rw [timesOf_congr fun name member => agree.timeOf_of_mem_filter member] at kept
  exact Except.ok.inj (kept.symm.trans otherKept)

end Preparation

/-- Whether two courses of a pass agree in all that is about other paths, or fail alike. -/
structure CoursesAgreeBut (path : String) (first second : Course) : Prop where
  published : (first.reports.events.filter fun event => event.path ≠ path) =
    second.reports.events.filter fun event => event.path ≠ path
  result : (∃ events others, first.result = .ok events ∧ second.result = .ok others ∧
      (events.filter fun event => event.path ≠ path) =
        others.filter fun event => event.path ≠ path) ∨
    ∃ failure, first.result = .error failure ∧ second.result = .error failure
  times : first.times.restrict (isOther path) = second.times.restrict (isOther path)

/-- Whether two watchers with one pattern know the same of all paths but one. -/
structure AlikeBut (path : String) (first second : Watcher) : Prop where
  drained : first.Drained
  otherDrained : second.Drained
  ready : first.lifecycle = .ready
  otherReady : second.lifecycle = .ready
  pattern : first.pattern = second.pattern
  tracked : first.tracked.restrict (isOther path) = second.tracked.restrict (isOther path)

/-- What two ticks come to that agree in all that is about other paths, or fail alike. -/
structure TicksAgreeBut (path : String) (first second : Watcher × Reports × Outcome) : Prop where
  ready : first.1.lifecycle = .ready ∧ second.1.lifecycle = .ready
  tracked : (first.1.tracked.entries.filter fun entry => entry.1 ≠ path) =
    second.1.tracked.entries.filter fun entry => entry.1 ≠ path
  published : (first.2.1.events.filter fun event => event.path ≠ path) =
    second.2.1.events.filter fun event => event.path ≠ path
  outcome : (∃ events others, first.2.2 = .ended (.ok events) ∧
      second.2.2 = .ended (.ok others) ∧ (events.filter fun event => event.path ≠ path) =
        others.filter fun event => event.path ≠ path) ∨
    ∃ failure, first.2.2 = .ended (.error failure) ∧ second.2.2 = .ended (.error failure)

def afterTicks (watcher : Watcher) (owner : Owner) (fileSystems : List FileSystem) : Watcher :=
  fileSystems.foldl (fun watcher fileSystem => (watcher.runDrained owner fileSystem .begin).1)
    watcher

namespace AlikeBut

variable {path : String} {watcher other : Watcher} {files otherFiles : FileSystem}
  {owner otherOwner : Owner}

theorem between_restrict (alike : AlikeBut path watcher other)
    (agree : files.AgreeBut path otherFiles) (names : List String) :
    (Changes.between watcher.tracked (files.observe .empty names)).restrict (isOther path) =
      (Changes.between other.tracked (otherFiles.observe .empty names)).restrict
        (isOther path) := by
  rw [← Changes.between_restrict, ← Changes.between_restrict, alike.tracked,
    agree.observe_restrict]

theorem course (alike : AlikeBut path watcher other) (agree : files.AgreeBut path otherFiles) :
    CoursesAgreeBut path (watcher.course files .begin) (other.course otherFiles .begin) := by
  rw [Watcher.course, Watcher.course, Pass.course, Pass.course, ← agree.walk, ← alike.pattern]
  cases (files.walk root).breakdown? root with
  | some failure =>
      simp only
      split
      · exact ⟨rfl, .inl ⟨[], [], rfl, rfl, rfl⟩, alike.tracked⟩
      · exact ⟨rfl, .inr ⟨_, rfl, rfl⟩, alike.tracked⟩
  | none =>
      simp only [Pass.courseOfLook, ← agree.fault?_eq]
      cases (watcher.pattern.filesIn (files.walk root)).findSome? files.fault? with
      | some fault => exact ⟨rfl, .inr ⟨_, rfl, rfl⟩, alike.tracked⟩
      | none =>
          have same := alike.between_restrict agree (watcher.pattern.filesIn (files.walk root))
          have events := congrArg Changes.Revision.events same
          have times := congrArg Changes.Revision.times same
          exact ⟨events, .inl ⟨_, _, rfl, rfl, events⟩, times⟩

theorem tick (alike : AlikeBut path watcher other) (agree : files.AgreeBut path otherFiles) :
    TicksAgreeBut path (watcher.runDrained owner files .begin)
        (other.runDrained otherOwner otherFiles .begin) ∧
      AlikeBut path (watcher.runDrained owner files .begin).1
        (other.runDrained otherOwner otherFiles .begin).1 := by
  obtain ⟨final, ran, tracked, drained, frame⟩ :=
    runDrained_of_drained alike.drained owner files .begin
  obtain ⟨otherFinal, otherRan, otherTracked, otherDrained, otherFrame⟩ :=
    runDrained_of_drained alike.otherDrained otherOwner otherFiles .begin
  obtain ⟨published, result, times⟩ := alike.course agree
  rw [ran, otherRan]
  rw [← tracked, ← otherTracked] at times
  have ready := frame.lifecycle.trans alike.ready
  have otherReady := otherFrame.lifecycle.trans alike.otherReady
  constructor
  · refine ⟨⟨ready, otherReady⟩, congrArg PathMap.entries times, published, ?_⟩
    rcases result with ⟨events, others, yielded, otherYielded, same⟩ |
      ⟨failure, failed, otherFailed⟩
    · exact .inl ⟨events, others, by rw [yielded], by rw [otherYielded], same⟩
    · exact .inr ⟨failure, by rw [failed], by rw [otherFailed]⟩
  · have pattern : final.pattern = otherFinal.pattern := by
      rw [frame.pattern, otherFrame.pattern, alike.pattern]
    exact ⟨drained, otherDrained, ready, otherReady, pattern, times⟩

theorem afterTicks (alike : AlikeBut path watcher other) {earlier otherEarlier : List FileSystem}
    (agree : List.Forall₂ (FileSystem.AgreeBut path) earlier otherEarlier) :
    AlikeBut path (watcher.afterTicks owner earlier)
      (other.afterTicks otherOwner otherEarlier) := by
  induction agree generalizing watcher other with
  | nil => exact alike
  | cons agreeNow _ inductionHypothesis =>
      obtain ⟨_, stillAlike⟩ := alike.tick agreeNow
      exact inductionHypothesis stillAlike

end AlikeBut

section Undisturbed

variable {path : String} {source : PatternSource} {interval otherInterval : Number}
  {bufferSize otherSize : Int} {watcher other ready otherReady : Watcher}
  {files otherFiles : FileSystem}

theorem Drained.of_prepare (drained : watcher.Drained)
    (prepared : watcher.prepare files = .ok ready) : ready.Drained := by
  obtain ⟨_, _, _, rfl⟩ := eq_of_prepare prepared
  exact ⟨drained.eventsOpen, drained.errorsOpen, drained.eventsRead, drained.errorsRead⟩

theorem alikeBut_of_prepare (created : create source interval bufferSize = .ok watcher)
    (otherCreated : create source otherInterval otherSize = .ok other)
    (agree : files.AgreeBut path otherFiles) (prepared : watcher.prepare files = .ok ready)
    (otherPrepared : other.prepare otherFiles = .ok otherReady) :
    AlikeBut path ready otherReady := by
  have drained := (Drained.of_create created).of_prepare prepared
  have otherDrained := (Drained.of_create otherCreated).of_prepare otherPrepared
  have pattern : watcher.pattern = other.pattern :=
    Except.ok.inj ((eq_of_create created).1.symm.trans (eq_of_create otherCreated).1)
  obtain ⟨_, times, seeded, rfl⟩ := eq_of_prepare prepared
  obtain ⟨_, others, otherSeeded, rfl⟩ := eq_of_prepare otherPrepared
  rw [← pattern] at otherSeeded
  exact ⟨drained, otherDrained, rfl, rfl, pattern, seed_restrict_congr agree seeded otherSeeded⟩

/-- Two watchers with one pattern, whose files differ in what they answer about the time of one
path only, know the same of all other paths once they are prepared, and each of their ticks, however
many came before it, publishes and yields the same about these and leaves the same known of them. -/
theorem others_undisturbed (created : create source interval bufferSize = .ok watcher)
    (otherCreated : create source otherInterval otherSize = .ok other)
    (agree : files.AgreeBut path otherFiles) (prepared : watcher.prepare files = .ok ready)
    (otherPrepared : other.prepare otherFiles = .ok otherReady) (owner otherOwner : Owner) :
    (ready.tracked.entries.filter fun entry => entry.1 ≠ path) =
        (otherReady.tracked.entries.filter fun entry => entry.1 ≠ path) ∧
      ∀ {earlier otherEarlier now otherNow},
        List.Forall₂ (FileSystem.AgreeBut path) earlier otherEarlier →
        now.AgreeBut path otherNow →
        TicksAgreeBut path ((ready.afterTicks owner earlier).runDrained owner now .begin)
          ((otherReady.afterTicks otherOwner otherEarlier).runDrained otherOwner otherNow
            .begin) := by
  have alike := alikeBut_of_prepare created otherCreated agree prepared otherPrepared
  refine ⟨congrArg PathMap.entries alike.tracked, fun agreeEarlier agreeNow => ?_⟩
  exact ((alike.afterTicks agreeEarlier).tick agreeNow).1

end Undisturbed

def neighbours (answer : Except Failure Seconds) (time : Seconds) : FileSystem where
  walk _ := ⟨[⟨"b", false, none⟩, ⟨"a", false, none⟩], none⟩
  timeOf name := if name = "b" then answer else .ok time

def locked : Except Failure Seconds := .error (.file .denied none "locked")

theorem agreeBut_neighbours {answer other : Except Failure Seconds}
    (sound : ∀ failure, answer = .error failure → failure.isOfFiles = true)
    (otherSound : ∀ failure, other = .error failure → failure.isOfFiles = true) (time : Seconds) :
    (neighbours answer time).AgreeBut "b" (neighbours other time) where
  walk := rfl
  timeOf name different := by simp [neighbours, different]
  firstSound := sound
  secondSound := otherSound

/-- In one run the first file changes and is locked then, in the other one it is locked first. The
second file changes in both. -/
theorem others_undisturbed_locked :
    ∃ ready otherReady, create (.text "*") (.double 1) 1 = .ok narrow ∧
      (neighbours (.ok 1) 1).AgreeBut "b" (neighbours (.ok 5) 1) ∧
      narrow.prepare (neighbours (.ok 1) 1) = .ok ready ∧
      narrow.prepare (neighbours (.ok 5) 1) = .ok otherReady ∧
      List.Forall₂ (FileSystem.AgreeBut "b") [neighbours (.ok 2) 1] [neighbours locked 1] ∧
      (neighbours locked 2).AgreeBut "b" (neighbours (.ok 7) 2) ∧
      TicksAgreeBut "b"
        ((ready.afterTicks .loop [neighbours (.ok 2) 1]).runDrained .loop (neighbours locked 2)
          .begin)
        ((otherReady.afterTicks .loop [neighbours locked 1]).runDrained .loop
          (neighbours (.ok 7) 2) .begin) := by
  let ready : Watcher :=
    { narrow with tracked := .ofList [("b", 1), ("a", 1)], lifecycle := .ready }
  let otherReady : Watcher :=
    { narrow with tracked := .ofList [("b", 5), ("a", 1)], lifecycle := .ready }
  have created : create (.text "*") (.double 1) 1 = .ok narrow := rfl
  have prepared : narrow.prepare (neighbours (.ok 1) 1) = .ok ready := by cbv
  have otherPrepared : narrow.prepare (neighbours (.ok 5) 1) = .ok otherReady := by cbv
  have soundTime : ∀ time failure, (.ok time : Except Failure Seconds) = .error failure →
      failure.isOfFiles = true := by
    intro time failure same
    cases same
  have soundLocked : ∀ failure, locked = .error failure → failure.isOfFiles = true := by
    intro failure same
    cases same
    rfl
  have agree := agreeBut_neighbours (soundTime 1) (soundTime 5) 1
  have agreeEarlier : List.Forall₂ (FileSystem.AgreeBut "b") [neighbours (.ok 2) 1]
      [neighbours locked 1] :=
    .cons (agreeBut_neighbours (soundTime 2) soundLocked 1) .nil
  have agreeNow := agreeBut_neighbours soundLocked (soundTime 7) 2
  obtain ⟨_, undisturbed⟩ :=
    others_undisturbed created created agree prepared otherPrepared .loop .loop
  exact ⟨ready, otherReady, created, agree, prepared, otherPrepared, agreeEarlier, agreeNow,
    undisturbed agreeEarlier agreeNow⟩

end Watcher

end TreeWatch
