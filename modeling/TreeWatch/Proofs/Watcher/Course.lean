import TreeWatch.Proofs.Pattern.Listing
import TreeWatch.Proofs.Watcher.Passes
import TreeWatch.Watcher.Drained

/-!
What a pass that nobody holds up brings about, in closed form.

The channels have no say in it: what a pass puts on them, what it yields and which times it leaves
follow from the tracked times and the answers of the file system alone. A pass with room enough
for its reports takes this course in one go, and so does one whose reports are read at once.
-/

namespace TreeWatch

namespace FileSystem

/-- The failure that a look at a file breaks off with, unless it is one of the file system. -/
def fault? (fileSystem : FileSystem) (name : String) : Option Failure :=
  match fileSystem.timeOf name with
  | .ok _ => none
  | .error failure => if failure.isOfFiles then none else some failure

def complaint? (fileSystem : FileSystem) (name : String) : Option Failure :=
  match fileSystem.timeOf name with
  | .ok _ => none
  | .error failure => if failure.isOfFiles then some failure else none

def complaints (fileSystem : FileSystem) (names : List String) : List Failure :=
  (names.takeWhile fun name => (fileSystem.fault? name).isNone).filterMap fileSystem.complaint?

/-- What is seen of files, in addition to what was seen before. A file without an answer about its
time is seen, but not its time. -/
def observe (fileSystem : FileSystem) (seen : Observation) (names : List String) : Observation :=
  names.foldl (fun seen name => seen.insert name (fileSystem.timeOf name).toOption) seen

end FileSystem

namespace Pass

/-- What is still to come of a pass. -/
structure Course where
  reports : Reports
  result : Except PassError (List Event)
  times : Times

namespace Course

def behind (course : Course) (reports : Reports) : Course :=
  { course with reports := reports.append course.reports }

end Course

def courseOfLook (fileSystem : FileSystem) (tracked : Times) (seen : Observation)
    (names : List String) : Course :=
  match names.findSome? fileSystem.fault? with
  | some fault => ⟨⟨[], fileSystem.complaints names⟩, .error (.failure fault), tracked⟩
  | none =>
      let revision := Changes.between tracked (fileSystem.observe seen names)
      ⟨⟨revision.events, fileSystem.complaints names⟩, .ok revision.events, revision.times⟩

def course (pattern : Pattern) (fileSystem : FileSystem) (tracked : Times) : Pass → Course
  | begin =>
      match (fileSystem.walk Watcher.root).breakdown? Watcher.root with
      | some failure =>
          if failure.isOfFiles then ⟨⟨[], [failure]⟩, .ok [], tracked⟩
          else ⟨.none, .error (.failure failure), tracked⟩
      | none =>
          courseOfLook fileSystem tracked .empty
            (pattern.filesIn (fileSystem.walk Watcher.root))
  | look left seen => courseOfLook fileSystem tracked seen left
  | complain failure next => (next.course pattern fileSystem tracked).behind ⟨[], [failure]⟩
  | publish left events => ⟨⟨left, []⟩, .ok events, tracked⟩

def puts : Pass → Reports
  | complain failure _ => ⟨[], [failure]⟩
  | publish (event :: _) _ => ⟨[event], []⟩
  | _ => .none

end Pass

namespace Channel

variable {ι α : Type*} {channel after : Channel ι α} {item : α} {woken : Option ι}

/-- The channel behind items that were all put on it while there was room. Each of them wakes a
reader. -/
def putAll (channel : Channel ι α) (items : List α) : Channel ι α :=
  { channel with items := channel.items ++ items, readers := channel.readers.drop items.length }

@[simp]
theorem putAll_nil (channel : Channel ι α) : channel.putAll [] = channel := by
  simp [putAll]

@[simp]
theorem putAll_putAll (channel : Channel ι α) (items more : List α) :
    (channel.putAll items).putAll more = channel.putAll (items ++ more) := by
  simp [putAll]

theorem putAll_of_stored (stored : channel.put item = .stored after woken) :
    after = channel.putAll [item] := by
  simp [eq_of_stored stored, putAll]

structure HasRoomFor (channel : Channel ι α) (items : List α) : Prop where
  isOpen : channel.closed = false
  room : items ≠ [] → channel.items.length + items.length ≤ channel.capacity

namespace HasRoomFor

variable {items more : List α}

theorem nil (isOpen : channel.closed = false) : channel.HasRoomFor [] :=
  ⟨isOpen, fun some => absurd rfl some⟩

theorem of_append (hasRoom : channel.HasRoomFor (items ++ more)) : channel.HasRoomFor items := by
  refine ⟨hasRoom.isOpen, fun some => ?_⟩
  have room := hasRoom.room (List.append_ne_nil_of_left_ne_nil some more)
  rw [List.length_append] at room
  omega

theorem putAll (hasRoom : channel.HasRoomFor (items ++ more)) :
    (channel.putAll items).HasRoomFor more := by
  refine ⟨hasRoom.isOpen, fun some => ?_⟩
  have room := hasRoom.room (List.append_ne_nil_of_right_ne_nil items some)
  simp only [Channel.putAll, List.length_append] at room ⊢
  omega

theorem not_full (hasRoom : channel.HasRoomFor [item]) : channel.put item ≠ .full := by
  intro full
  have room := hasRoom.room (List.cons_ne_nil item [])
  have noRoom := full_of_put full
  rw [List.length_singleton] at room
  omega

end HasRoomFor

end Channel

namespace Pass

section Look

variable {fileSystem : FileSystem} {tracked : Times} {seen : Observation} {name : String}
  {later : List String}

theorem courseOfLook_of_ok {time : Seconds} (answer : fileSystem.timeOf name = .ok time) :
    courseOfLook fileSystem tracked seen (name :: later) =
      courseOfLook fileSystem tracked (seen.insert name (some time)) later := by
  simp [courseOfLook, FileSystem.fault?, FileSystem.complaints, FileSystem.complaint?,
    FileSystem.observe, answer, Except.toOption]

theorem courseOfLook_of_complaint {failure : Failure}
    (answer : fileSystem.timeOf name = .error failure) (ofFiles : failure.isOfFiles = true) :
    courseOfLook fileSystem tracked seen (name :: later) =
      (courseOfLook fileSystem tracked (seen.insert name none) later).behind ⟨[], [failure]⟩ := by
  have noFault : fileSystem.fault? name = none := by simp [FileSystem.fault?, answer, ofFiles]
  have complaint : fileSystem.complaint? name = some failure := by
    simp [FileSystem.complaint?, answer, ofFiles]
  have seenNow : fileSystem.observe seen (name :: later) =
      fileSystem.observe (seen.insert name none) later := by
    simp [FileSystem.observe, answer, Except.toOption]
  have complaintsNow : fileSystem.complaints (name :: later) =
      failure :: fileSystem.complaints later := by
    simp [FileSystem.complaints, noFault, complaint]
  rw [courseOfLook, List.findSome?_cons, noFault, seenNow, complaintsNow, courseOfLook]
  cases later.findSome? fileSystem.fault? <;> rfl

theorem courseOfLook_of_fault {fault : Failure} (answer : fileSystem.timeOf name = .error fault)
    (notOfFiles : fault.isOfFiles = false) :
    courseOfLook fileSystem tracked seen (name :: later) =
      ⟨.none, .error (.failure fault), tracked⟩ := by
  simp [courseOfLook, FileSystem.fault?, FileSystem.complaints, answer, notOfFiles, Reports.none]

end Look

/-- What a pass puts on the channels at once is the first that it puts there at all. -/
theorem exists_reports_course (pattern : Pattern) (fileSystem : FileSystem) (tracked : Times)
    (pass : Pass) :
    ∃ more, (pass.course pattern fileSystem tracked).reports = pass.puts.append more := by
  cases pass with
  | complain failure next => exact ⟨_, rfl⟩
  | publish left events =>
      cases left with
      | nil => exact ⟨.none, rfl⟩
      | cons event later => exact ⟨⟨later, []⟩, rfl⟩
  | begin => exact ⟨_, rfl⟩
  | look left seen => exact ⟨_, rfl⟩

end Pass

namespace Watcher

open Pass (Progress Course)

def course (watcher : Watcher) (fileSystem : FileSystem) (pass : Pass) : Course :=
  pass.course watcher.pattern fileSystem watcher.tracked

/-- What a step of a pass does, as long as the channels are open. -/
inductive Advances (fileSystem : FileSystem) (watcher : Watcher) (pass : Pass) :
    Watcher → Progress → Prop
  | onward {after next} : after.events = watcher.events.putAll pass.puts.events →
      after.errors = watcher.errors.putAll pass.puts.errors →
      watcher.course fileSystem pass = (after.course fileSystem next).behind pass.puts →
      Advances fileSystem watcher pass after (.onward next)
  | waits {after} :
      ¬(watcher.events.HasRoomFor pass.puts.events ∧ watcher.errors.HasRoomFor pass.puts.errors) →
      Advances fileSystem watcher pass after .waits
  | ended {after result} : after.events = watcher.events → after.errors = watcher.errors →
      watcher.course fileSystem pass = ⟨.none, result, after.tracked⟩ →
      Advances fileSystem watcher pass after (.ended result)

theorem advances_of_step {watcher after : Watcher} {owner : Owner} {fileSystem : FileSystem}
    {pass : Pass} {progress : Progress} (eventsOpen : watcher.events.closed = false)
    (errorsOpen : watcher.errors.closed = false)
    (stepped : watcher.step owner fileSystem pass = (after, progress)) :
    Advances fileSystem watcher pass after progress := by
  cases pass with
  | begin =>
      simp only [step, beginPass, Pattern.glob, Pattern.filesOf_eq] at stepped
      cases broken : (fileSystem.walk root).breakdown? root with
      | some failure =>
          simp only [broken, Walk.isOfWalk_of_breakdown? broken] at stepped
          split at stepped
          · rename_i ofFiles
            cases stepped
            refine .onward (Channel.putAll_nil _).symm (Channel.putAll_nil _).symm ?_
            simp only [course, Pass.course, broken, if_pos ofFiles]
            rfl
          · rename_i notOfFiles
            cases stepped
            refine .ended rfl rfl ?_
            simp only [course, Pass.course, broken, if_neg notOfFiles]
            rfl
      | none =>
          simp only [broken] at stepped
          cases stepped
          refine .onward (Channel.putAll_nil _).symm (Channel.putAll_nil _).symm ?_
          simp only [course, Pass.course, broken]
          rfl
  | look left seen =>
      cases left with
      | nil =>
          cases stepped
          refine .onward (Channel.putAll_nil _).symm (Channel.putAll_nil _).symm ?_
          rfl
      | cons name later =>
          simp only [step, lookStep] at stepped
          cases answer : fileSystem.timeOf name with
          | ok time =>
              simp only [answer] at stepped
              cases stepped
              refine .onward (Channel.putAll_nil _).symm (Channel.putAll_nil _).symm ?_
              exact Pass.courseOfLook_of_ok answer
          | error failure =>
              simp only [answer] at stepped
              split at stepped
              · rename_i ofFiles
                cases stepped
                refine .onward (Channel.putAll_nil _).symm (Channel.putAll_nil _).symm ?_
                exact Pass.courseOfLook_of_complaint answer ofFiles
              · rename_i notOfFiles
                cases stepped
                refine .ended rfl rfl ?_
                exact Pass.courseOfLook_of_fault answer (Bool.eq_false_iff.mpr notOfFiles)
  | complain failure next =>
      simp only [step, complainStep] at stepped
      split at stepped
      · rename_i refused
        cases errorsOpen.symm.trans (Channel.closed_of_refused refused)
      · rename_i full
        cases stepped
        exact .waits fun hasRoom => hasRoom.2.not_full full
      · rename_i stored
        cases stepped
        refine .onward (Channel.putAll_nil _).symm (Channel.putAll_of_stored stored) rfl
  | publish left events =>
      cases left with
      | nil =>
          cases stepped
          refine .ended rfl rfl ?_
          rfl
      | cons event later =>
          simp only [step, publishStep] at stepped
          split at stepped
          · rename_i refused
            cases eventsOpen.symm.trans (Channel.closed_of_refused refused)
          · rename_i full
            cases stepped
            exact .waits fun hasRoom => hasRoom.1.not_full full
          · rename_i stored
            cases stepped
            refine .onward (Channel.putAll_of_stored stored) (Channel.putAll_nil _).symm rfl

/-- A pass with room for all that it reports takes its course in one go. -/
theorem run_of_room {watcher : Watcher} {fileSystem : FileSystem} {pass : Pass} (owner : Owner)
    (eventsRoom : watcher.events.HasRoomFor (watcher.course fileSystem pass).reports.events)
    (errorsRoom : watcher.errors.HasRoomFor (watcher.course fileSystem pass).reports.errors) :
    ∃ final, watcher.run owner fileSystem pass =
        (final, .ended (watcher.course fileSystem pass).result) ∧
      final.tracked = (watcher.course fileSystem pass).times ∧
      final.events = watcher.events.putAll (watcher.course fileSystem pass).reports.events ∧
      final.errors = watcher.errors.putAll (watcher.course fileSystem pass).reports.errors := by
  fun_induction run watcher owner fileSystem pass with
  | case1 watcher pass after next stepped inductionHypothesis =>
      cases advances_of_step eventsRoom.isOpen errorsRoom.isOpen stepped with
      | onward events errors goesOn =>
          rw [goesOn] at eventsRoom errorsRoom ⊢
          have laterEvents :
              after.events.HasRoomFor (after.course fileSystem next).reports.events :=
            events ▸ eventsRoom.putAll
          have laterErrors :
              after.errors.HasRoomFor (after.course fileSystem next).reports.errors :=
            errors ▸ errorsRoom.putAll
          obtain ⟨final, ran, tracked, finalEvents, finalErrors⟩ :=
            inductionHypothesis laterEvents laterErrors
          refine ⟨final, ran, tracked, ?_, ?_⟩
          · rw [finalEvents, events, Channel.putAll_putAll]
            rfl
          · rw [finalErrors, errors, Channel.putAll_putAll]
            rfl
  | case2 watcher pass after stepped =>
      cases advances_of_step eventsRoom.isOpen errorsRoom.isOpen stepped with
      | waits noRoom =>
          obtain ⟨more, reports⟩ :=
            pass.exists_reports_course watcher.pattern fileSystem watcher.tracked
          rw [course, reports] at eventsRoom errorsRoom
          exact absurd ⟨eventsRoom.of_append, errorsRoom.of_append⟩ noRoom
  | case3 watcher pass after result stepped =>
      cases advances_of_step eventsRoom.isOpen errorsRoom.isOpen stepped with
      | ended events errors ends =>
          rw [ends]
          exact ⟨after, rfl, rfl, by rw [events]; exact (Channel.putAll_nil _).symm,
            by rw [errors]; exact (Channel.putAll_nil _).symm⟩

/-- A watcher whose channels are read as soon as anything is put on them. -/
structure Drained (watcher : Watcher) : Prop where
  eventsOpen : watcher.events.closed = false
  errorsOpen : watcher.errors.closed = false
  eventsRead : watcher.events.items = []
  errorsRead : watcher.errors.items = []

namespace Drained

variable {watcher after : Watcher} {pass : Pass}

theorem hasRoomFor_puts (drained : watcher.Drained) (pass : Pass) :
    watcher.events.HasRoomFor pass.puts.events ∧ watcher.errors.HasRoomFor pass.puts.errors := by
  obtain ⟨eventsOpen, errorsOpen, eventsRead, errorsRead⟩ := drained
  have shortEvents : pass.puts.events.length ≤ 1 := by
    rcases pass with _ | _ | _ | ⟨_ | _, _⟩ <;> simp [Pass.puts, Reports.none]
  have shortErrors : pass.puts.errors.length ≤ 1 := by
    rcases pass with _ | _ | _ | ⟨_ | _, _⟩ <;> simp [Pass.puts, Reports.none]
  constructor
  · refine ⟨eventsOpen, fun _ => ?_⟩
    simpa [eventsRead] using shortEvents.trans watcher.events.capacity_pos
  · refine ⟨errorsOpen, fun _ => ?_⟩
    simpa [errorsRead] using shortErrors.trans watcher.errors.capacity_pos

theorem collect (drained : watcher.Drained) (frame : Frame watcher after)
    (events : after.events = watcher.events.putAll pass.puts.events)
    (errors : after.errors = watcher.errors.putAll pass.puts.errors) :
    after.collect.2 = pass.puts ∧ after.collect.1.Drained := by
  constructor
  · simp [Watcher.collect, events, errors, Channel.putAll, drained.eventsRead, drained.errorsRead]
  · exact ⟨frame.eventsClosed.trans drained.eventsOpen, frame.errorsClosed.trans drained.errorsOpen,
      rfl, rfl⟩

end Drained

theorem runDrained_of_drained {watcher : Watcher} (drained : watcher.Drained) (owner : Owner)
    (fileSystem : FileSystem) (pass : Pass) :
    ∃ final, watcher.runDrained owner fileSystem pass =
        (final, (watcher.course fileSystem pass).reports,
          .ended (watcher.course fileSystem pass).result) ∧
      final.tracked = (watcher.course fileSystem pass).times ∧ final.Drained ∧
      Frame watcher final := by
  fun_induction runDrained watcher owner fileSystem pass with
  | case1 watcher pass after next stepped collected reports read final more outcome ran
      inductionHypothesis =>
      have frame := frame_of_step stepped
      cases advances_of_step drained.eventsOpen drained.errorsOpen stepped with
      | onward events errors goesOn =>
          obtain ⟨reportsPut, stillDrained⟩ := drained.collect frame events errors
          obtain ⟨rfl, rfl⟩ := Prod.ext_iff.mp read
          obtain ⟨last, lastRan, tracked, lastDrained, lastFrame⟩ :=
            inductionHypothesis stillDrained
          cases ran.symm.trans lastRan
          rw [goesOn, reportsPut]
          exact ⟨final, rfl, tracked, lastDrained,
            frame.trans ⟨lastFrame.pattern, lastFrame.lifecycle, lastFrame.eventsClosed,
              lastFrame.errorsClosed, lastFrame.interval, lastFrame.stopRequested⟩⟩
  | case2 watcher pass after stepped =>
      cases advances_of_step drained.eventsOpen drained.errorsOpen stepped with
      | waits noRoom => exact absurd (drained.hasRoomFor_puts pass) noRoom
  | case3 watcher pass after result stepped =>
      cases advances_of_step drained.eventsOpen drained.errorsOpen stepped with
      | ended events errors ends =>
          rw [ends]
          refine ⟨after, rfl, rfl, ?_, frame_of_step stepped⟩
          exact ⟨events ▸ drained.eventsOpen, errors ▸ drained.errorsOpen,
            events ▸ drained.eventsRead, errors ▸ drained.errorsRead⟩

end Watcher

end TreeWatch
