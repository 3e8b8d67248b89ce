import Mathlib.Data.List.TakeWhile
import TreeWatch.Proofs.Watcher.Course
import TreeWatch.Proofs.Watcher.Mirror
import TreeWatch.Watcher.Transcript

/-!
A tick is all or nothing.

If the walk fails, a tick reports that and does nothing else. If anything breaks that is not a
failure of the file system, the tick fails with it and what is known stays as it was. Otherwise all
files have been looked at, and the tick has its whole effect: it reports the files that could not be
read and publishes and yields what a comparison with the known times finds.
-/

namespace TreeWatch

namespace FileSystem

variable {fileSystem : FileSystem} {name : String}

theorem get?_observe (seen : Observation) (names : List String) :
    (fileSystem.observe seen names).get? name =
      if name ∈ names then some (fileSystem.timeOf name).toOption else seen.get? name := by
  induction names generalizing seen with
  | nil => rfl
  | cons first names inductionHypothesis =>
      rw [observe, List.foldl_cons, ← observe, inductionHypothesis, PathMap.get?_insert]
      by_cases later : name ∈ names
      · simp [later]
      · by_cases same : name = first <;> simp [later, same]

theorem complaints_of_no_fault {names : List String}
    (sound : ∀ name ∈ names, fileSystem.fault? name = none) :
    fileSystem.complaints names = names.filterMap fileSystem.complaint? := by
  have whole : names.takeWhile (fun name => (fileSystem.fault? name).isNone) = names := by
    apply List.takeWhile_eq_self_iff.mpr
    intro name member
    rw [sound name member, Option.isNone_none]
  rw [complaints, whole]

end FileSystem

namespace Session

variable {session : Session} {id : Nat}

def ticked (session : Session) (id : Nat) : Session :=
  (session.perform id .tick).resume (.caller id)

structure Ends (session : Session) (id : Nat) (course : Pass.Course) (after : Session) : Prop where
  replies : after.replies = session.replies ++ [(id, replyOfPass course.result)]
  tracked : after.watcher.tracked = course.times
  events : after.watcher.events = session.watcher.events.putAll course.reports.events
  errors : after.watcher.errors = session.watcher.errors.putAll course.reports.errors

theorem ends_ticked (ready : session.watcher.lifecycle = .ready)
    (fresh : session.passes.lookup id = none) {course : Pass.Course}
    (isCourse : session.watcher.course session.fileSystem .begin = course)
    (eventsRoom : session.watcher.events.HasRoomFor course.reports.events)
    (errorsRoom : session.watcher.errors.HasRoomFor course.reports.errors) :
    session.Ends id course (session.ticked id) := by
  subst isCourse
  obtain ⟨final, ran, tracked, events, errors⟩ :=
    Watcher.run_of_room (.caller id) eventsRoom errorsRoom
  have found : (session.passes ++ [(id, Pass.begin)]).lookup id = some .begin := by
    rw [List.lookup_append, fresh]
    simp
  have left : session.ticked id =
      { session with
        watcher := final
        passes := (session.passes ++ [(id, Pass.begin)]).filter (·.1 != id)
        ready := session.ready ++ [.caller id]
        replies := session.replies ++
          [(id, replyOfPass (session.watcher.course session.fileSystem .begin).result)] } := by
    simp only [ticked, perform, if_pos ready, wake, resume, resumeCaller, found, ran, reply]
  rw [left]
  exact ⟨rfl, tracked, events, errors⟩

def walk (session : Session) : Walk := session.fileSystem.walk Watcher.root

def names (session : Session) : List String := session.watcher.pattern.filesIn session.walk

def complaints (session : Session) : List Failure :=
  session.names.filterMap session.fileSystem.complaint?

def observation (session : Session) : Observation :=
  session.fileSystem.observe .empty session.names

def revision (session : Session) : Changes.Revision :=
  Changes.between session.watcher.tracked session.observation

/-- What a tick makes of a session, as long as there is room for what it reports. -/
structure AllOrNothing (session : Session) (id : Nat) (after : Session) : Prop where
  /-- The walk fails, be it at an entry or as a whole. -/
  unlisted {failure : Failure} : session.walk.breakdown? Watcher.root = some failure →
    failure.isOfFiles = true → session.watcher.errors.HasRoomFor [failure] →
    failure.isOfWalk = true ∧ after.replies = session.replies ++ [(id, .events [])] ∧
      after.watcher.tracked = session.watcher.tracked ∧
      after.watcher.events = session.watcher.events ∧
      after.watcher.errors.items = session.watcher.errors.items ++ [failure]
  /-- The walk breaks off for a reason that is not one of the file system. -/
  brokenWalk {fault : Failure} : session.walk.breakdown? Watcher.root = some fault →
    fault.isOfFiles = false →
    after.replies = session.replies ++ [(id, .passFailed (.failure fault))] ∧
      after.watcher.tracked = session.watcher.tracked ∧
      after.watcher.events = session.watcher.events
  /-- A look at a file breaks off for such a reason, be it after complaints about other files. -/
  brokenLook {fault : Failure} : session.walk.breakdown? Watcher.root = none →
    session.names.findSome? session.fileSystem.fault? = some fault →
    session.watcher.errors.HasRoomFor (session.fileSystem.complaints session.names) →
    after.replies = session.replies ++ [(id, .passFailed (.failure fault))] ∧
      after.watcher.tracked = session.watcher.tracked ∧
      after.watcher.events = session.watcher.events
  /-- All files are looked at. One that cannot be read is seen without a time. -/
  whole : session.walk.breakdown? Watcher.root = none →
    (∀ name ∈ session.names, session.fileSystem.fault? name = none) →
    session.watcher.events.HasRoomFor session.revision.events →
    session.watcher.errors.HasRoomFor session.complaints →
    after.replies = session.replies ++ [(id, .events session.revision.events)] ∧
      after.watcher.tracked = session.revision.times ∧
      after.watcher.events.items = session.watcher.events.items ++ session.revision.events ∧
      after.watcher.errors.items = session.watcher.errors.items ++ session.complaints ∧
      ∀ name, session.observation.get? name =
        if name ∈ session.names then some (session.fileSystem.timeOf name).toOption else none

section Branches

variable {failure fault : Failure}

theorem course_of_unlisted (broken : session.walk.breakdown? Watcher.root = some failure)
    (ofFiles : failure.isOfFiles = true) :
    session.watcher.course session.fileSystem .begin =
      ⟨⟨[], [failure]⟩, .ok [], session.watcher.tracked⟩ := by
  rw [walk] at broken
  simp only [Watcher.course, Pass.course, broken, if_pos ofFiles]

theorem course_of_brokenWalk (broken : session.walk.breakdown? Watcher.root = some fault)
    (notOfFiles : fault.isOfFiles = false) :
    session.watcher.course session.fileSystem .begin =
      ⟨.none, .error (.failure fault), session.watcher.tracked⟩ := by
  rw [walk] at broken
  simp only [Watcher.course, Pass.course, broken, notOfFiles, Bool.false_eq_true, if_false]

theorem course_of_brokenLook (listed : session.walk.breakdown? Watcher.root = none)
    (broken : session.names.findSome? session.fileSystem.fault? = some fault) :
    session.watcher.course session.fileSystem .begin =
      ⟨⟨[], session.fileSystem.complaints session.names⟩, .error (.failure fault),
        session.watcher.tracked⟩ := by
  rw [names, walk] at broken
  rw [walk] at listed
  simp only [Watcher.course, Pass.course, listed, Pass.courseOfLook, broken]
  rfl

theorem course_of_whole (listed : session.walk.breakdown? Watcher.root = none)
    (sound : ∀ name ∈ session.names, session.fileSystem.fault? name = none) :
    session.watcher.course session.fileSystem .begin =
      ⟨⟨session.revision.events, session.complaints⟩, .ok session.revision.events,
        session.revision.times⟩ := by
  have noFault : session.names.findSome? session.fileSystem.fault? = none :=
    List.findSome?_eq_none_iff.mpr sound
  rw [complaints, ← FileSystem.complaints_of_no_fault sound]
  rw [walk] at listed
  rw [names, walk] at noFault
  simp only [Watcher.course, Pass.course, listed, Pass.courseOfLook, noFault]
  rfl

end Branches

/-- A tick of a watcher that is ready has its whole effect or, but for what it reports, none. -/
theorem tick_all_or_nothing (ready : session.watcher.lifecycle = .ready)
    (fresh : session.passes.lookup id = none) (eventsOpen : session.watcher.events.closed = false)
    (errorsOpen : session.watcher.errors.closed = false) :
    session.AllOrNothing id (session.ticked id) where
  unlisted broken ofFiles errorsRoom := by
    obtain ⟨replies, tracked, events, errors⟩ :=
      ends_ticked ready fresh (course_of_unlisted broken ofFiles) (.nil eventsOpen) errorsRoom
    have ofWalk := (Walk.isOfWalk_of_breakdown? broken).trans ofFiles
    exact ⟨ofWalk, replies, tracked, events.trans (Channel.putAll_nil _), by rw [errors]; rfl⟩
  brokenWalk broken notOfFiles := by
    obtain ⟨replies, tracked, events, _⟩ := ends_ticked ready fresh
      (course_of_brokenWalk broken notOfFiles) (.nil eventsOpen) (.nil errorsOpen)
    exact ⟨replies, tracked, events.trans (Channel.putAll_nil _)⟩
  brokenLook listed broken errorsRoom := by
    obtain ⟨replies, tracked, events, _⟩ :=
      ends_ticked ready fresh (course_of_brokenLook listed broken) (.nil eventsOpen) errorsRoom
    exact ⟨replies, tracked, events.trans (Channel.putAll_nil _)⟩
  whole listed sound eventsRoom errorsRoom := by
    obtain ⟨replies, tracked, events, errors⟩ :=
      ends_ticked ready fresh (course_of_whole listed sound) eventsRoom errorsRoom
    refine ⟨replies, tracked, by rw [events]; rfl, by rw [errors]; rfl, fun name => ?_⟩
    exact FileSystem.get?_observe .empty session.names

def locked : FileSystem where
  walk _ := ⟨[⟨"a", false, none⟩, ⟨"b", false, none⟩, ⟨"d", true, none⟩, ⟨"b", false, none⟩], none⟩
  timeOf
    | "a" => .ok 2
    | _ => .error (.file .denied none "locked")

def watching : Session := ofWatcher
  { Watcher.narrow with
    events := ⟨2, by decide, [], false, [], []⟩
    errors := ⟨2, by decide, [], false, [], []⟩
    lifecycle := .ready
    tracked := .ofList [("c", 1), ("b", 1), ("a", 1)] } locked

/-- The unreadable file is reported twice and stays as it was. -/
theorem tick_all_or_nothing_locked :
    watching.watcher.lifecycle = .ready ∧ watching.passes.lookup 0 = none ∧
      watching.watcher.events.closed = false ∧ watching.watcher.errors.closed = false ∧
      (watching.ticked 0).replies = [(0, .events [⟨.modified, "a"⟩, ⟨.deleted, "c"⟩])] ∧
      (watching.ticked 0).watcher.tracked.keys = ["b", "a"] ∧
      (watching.ticked 0).watcher.errors.items =
        [.file .denied none "locked", .file .denied none "locked"] := by
  have names : watching.names = ["a", "b", "b"] := by cbv
  have events : watching.revision.events = [⟨.modified, "a"⟩, ⟨.deleted, "c"⟩] := by
    rw [revision, observation, names]
    decide
  have complaints : watching.complaints =
      [.file .denied none "locked", .file .denied none "locked"] := by
    rw [Session.complaints, names]
    rfl
  have tick : watching.AllOrNothing 0 (watching.ticked 0) :=
    tick_all_or_nothing rfl rfl rfl rfl
  have sound : ∀ name ∈ watching.names, watching.fileSystem.fault? name = none := by
    rw [names]
    decide
  obtain ⟨replies, tracked, _, errors, _⟩ := tick.whole rfl sound
    ⟨rfl, fun _ => by rw [events]; decide⟩ ⟨rfl, fun _ => by rw [complaints]; decide⟩
  refine ⟨rfl, rfl, rfl, rfl, by rw [replies, events]; rfl, ?_, by rw [errors, complaints]; rfl⟩
  rw [tracked, revision, observation, names]
  decide

end Session

end TreeWatch
