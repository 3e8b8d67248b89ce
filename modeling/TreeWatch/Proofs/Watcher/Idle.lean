import TreeWatch.Proofs.Repetition
import TreeWatch.Proofs.Watcher.Filtering
import TreeWatch.Proofs.Watcher.Tick

/-!
Ticks on files that stay as they are.

Nobody can hold a pass off its course while the files stay as they are: readers and full channels
only decide when its reports are put. Behind a pass, and behind the first look at the files, the
tracked times are settled with what there is to be seen, so the next pass has nothing to publish
and leaves the times alone. A pass that fails on such files fails again in the same way.
-/

namespace TreeWatch

namespace Watcher

open Pass (Course)

/-- How far a pass may get on files that stay as they are, with the events that it has put on the
channel. Readers may come in between, and where a channel is full the pass tries again later. -/
inductive Reaches (owner : Owner) (fileSystem : FileSystem) (watcher : Watcher) :
    List Event → Watcher → Pass → Prop where
  | begun : Reaches owner fileSystem watcher [] watcher .begin
  | read {published later pass after} : Reaches owner fileSystem watcher published later pass →
      Reads later after → Reaches owner fileSystem watcher published after pass
  | onward {published later pass after next} :
      Reaches owner fileSystem watcher published later pass →
      later.step owner fileSystem pass = (after, .onward next) →
      Reaches owner fileSystem watcher
        (published ++ after.events.items.drop later.events.items.length) after next
  | waits {published later pass after} : Reaches owner fileSystem watcher published later pass →
      later.step owner fileSystem pass = (after, .waits) →
      Reaches owner fileSystem watcher published after pass

/-- Whether such a pass may come to its end with a result and leave a watcher behind. -/
inductive Completes (owner : Owner) (fileSystem : FileSystem) (watcher : Watcher) :
    List Event → Except PassError (List Event) → Watcher → Prop where
  | ended {published later pass result final} :
      Reaches owner fileSystem watcher published later pass →
      later.step owner fileSystem pass = (final, .ended result) →
      Completes owner fileSystem watcher
        (published ++ final.events.items.drop later.events.items.length) result final

section Run

variable {owner : Owner} {fileSystem : FileSystem} {watcher later final : Watcher}
  {published : List Event} {pass : Pass} {result : Except PassError (List Event)}

theorem completes_of_run (reached : Reaches owner fileSystem watcher published later pass)
    (ran : later.run owner fileSystem pass = (final, .ended result)) :
    ∃ published, Completes owner fileSystem watcher published result final := by
  fun_induction run later owner fileSystem pass generalizing published with
  | case1 later pass after next stepped inductionHypothesis =>
      exact inductionHypothesis (reached.onward stepped) ran
  | case2 later pass after stepped => cases ran
  | case3 later pass after outcome stepped =>
      cases ran
      exact ⟨_, .ended reached stepped⟩

theorem tracked_of_onward {next : Pass}
    (stepped : watcher.step owner fileSystem pass = (later, .onward next)) :
    later.tracked = watcher.tracked ∨
      later.tracked = (watcher.course fileSystem pass).times := by
  cases pass with
  | begin =>
      simp only [step, beginPass] at stepped
      split at stepped
      · cases stepped
        exact .inl rfl
      · split at stepped
        · cases stepped
          exact .inl rfl
        · cases stepped
  | look left seen =>
      cases left with
      | nil =>
          cases stepped
          exact .inr rfl
      | cons name others =>
          simp only [step, lookStep] at stepped
          split at stepped
          · cases stepped
            exact .inl rfl
          · split at stepped
            · cases stepped
              exact .inl rfl
            · cases stepped
  | complain failure following =>
      simp only [step, complainStep] at stepped
      split at stepped <;> cases stepped
      exact .inl rfl
  | publish left events =>
      cases left with
      | nil => cases stepped
      | cons event others =>
          simp only [step, publishStep] at stepped
          split at stepped <;> cases stepped
          exact .inl rfl

/-- What holds wherever a pass gets on files that stay as they are. -/
structure OnCourse (fileSystem : FileSystem) (watcher : Watcher) (published : List Event)
    (later : Watcher) (pass : Pass) : Prop where
  frame : Frame watcher later
  course : ∃ failures, watcher.course fileSystem .begin =
    (later.course fileSystem pass).behind ⟨published, failures⟩
  tracked : later.tracked = watcher.tracked ∨
    later.tracked = (watcher.course fileSystem .begin).times

theorem course_congr (frame : Frame watcher later) (same : later.tracked = watcher.tracked) :
    later.course fileSystem pass = watcher.course fileSystem pass := by
  rw [course, frame.pattern, same]
  rfl

theorem OnCourse.of_frame {after : Watcher}
    (onCourse : OnCourse fileSystem watcher published later pass) (frame : Frame later after)
    (same : after.tracked = later.tracked) :
    OnCourse fileSystem watcher published after pass where
  frame := onCourse.frame.trans frame
  course := by
    rw [course_congr frame same]
    exact onCourse.course
  tracked := by
    rw [same]
    exact onCourse.tracked

theorem items_putAll_drop (channel : Channel Owner Event) (events : List Event) :
    (channel.putAll events).items.drop channel.items.length = events :=
  List.drop_left

theorem OnCourse.onward {after : Watcher} {next : Pass}
    (onCourse : OnCourse fileSystem watcher published later pass)
    (eventsOpen : later.events.closed = false) (errorsOpen : later.errors.closed = false)
    (stepped : later.step owner fileSystem pass = (after, .onward next)) :
    OnCourse fileSystem watcher
      (published ++ after.events.items.drop later.events.items.length) after next := by
  have frame := frame_of_step stepped
  obtain ⟨failures, whole⟩ := onCourse.course
  cases advances_of_step eventsOpen errorsOpen stepped with
  | onward events errors goesOn =>
      rw [events, items_putAll_drop]
      refine ⟨onCourse.frame.trans frame, ⟨failures ++ pass.puts.errors, ?_⟩, ?_⟩
      · rw [whole, goesOn]
        simp only [Course.behind, Reports.append, List.append_assoc]
      · rcases tracked_of_onward stepped with same | compared
        · rw [same]
          exact onCourse.tracked
        · apply Or.inr
          rw [compared, whole]
          rfl

theorem onCourse_of_reaches (eventsOpen : watcher.events.closed = false)
    (errorsOpen : watcher.errors.closed = false)
    (reached : Reaches owner fileSystem watcher published later pass) :
    OnCourse fileSystem watcher published later pass := by
  induction reached with
  | begun => exact ⟨.refl watcher, ⟨[], rfl⟩, .inl rfl⟩
  | read _ reads onCourse =>
      obtain ⟨frame, same⟩ := frame_of_reads reads
      exact onCourse.of_frame frame same
  | onward _ stepped onCourse =>
      apply onCourse.onward _ _ stepped
      · exact onCourse.frame.eventsClosed.trans eventsOpen
      · exact onCourse.frame.errorsClosed.trans errorsOpen
  | waits _ stepped onCourse =>
      exact onCourse.of_frame (frame_of_step stepped) (tracked_of_waits stepped)

/-- What a pass publishes, yields and leaves behind is its course, whatever readers did. -/
theorem course_of_completes (eventsOpen : watcher.events.closed = false)
    (errorsOpen : watcher.errors.closed = false)
    (completed : Completes owner fileSystem watcher published result final) :
    Frame watcher final ∧ ∃ failures, watcher.course fileSystem .begin =
      ⟨⟨published, failures⟩, result, final.tracked⟩ := by
  obtain ⟨reached, stepped⟩ := completed
  rename_i before later pass
  have onCourse := onCourse_of_reaches eventsOpen errorsOpen reached
  obtain ⟨failures, whole⟩ := onCourse.course
  refine ⟨onCourse.frame.trans (frame_of_step stepped), failures, ?_⟩
  cases advances_of_step (onCourse.frame.eventsClosed.trans eventsOpen)
    (onCourse.frame.errorsClosed.trans errorsOpen) stepped with
  | ended events errors ends =>
      rw [whole, ends, events, List.drop_length]
      simp [Course.behind, Reports.append, Reports.none]

end Run

/-- Whether a course has nothing to publish and leaves the tracked times alone. -/
structure Idles (course : Course) (tracked : Times) : Prop where
  unpublished : course.reports.events = []
  fruitless : eventsOf course.result = []
  kept : course.times = tracked

section Settled

variable {fileSystem : FileSystem} {watcher final : Watcher}

def sight (watcher : Watcher) (fileSystem : FileSystem) : Observation :=
  fileSystem.observe .empty (watcher.pattern.filesIn (fileSystem.walk root))

/-- Whether everything that a pass needs to see can be seen. -/
structure Clear (watcher : Watcher) (fileSystem : FileSystem) : Prop where
  listed : (fileSystem.walk root).breakdown? root = none
  read : (watcher.pattern.filesIn (fileSystem.walk root)).findSome? fileSystem.fault? = none

theorem course_of_clear (clear : watcher.Clear fileSystem) :
    watcher.course fileSystem .begin =
      let revision := Changes.between watcher.tracked (watcher.sight fileSystem)
      let names := watcher.pattern.filesIn (fileSystem.walk root)
      ⟨⟨revision.events, fileSystem.complaints names⟩, .ok revision.events, revision.times⟩ := by
  rw [course]
  simp only [Pass.course, clear.listed, Pass.courseOfLook, clear.read]
  rfl

theorem idles_of_not_clear (unclear : ¬watcher.Clear fileSystem) :
    Idles (watcher.course fileSystem .begin) watcher.tracked := by
  rw [course, Pass.course]
  cases broken : (fileSystem.walk root).breakdown? root with
  | some failure =>
      simp only
      split <;> exact ⟨rfl, rfl, rfl⟩
  | none =>
      simp only [Pass.courseOfLook]
      cases fault : (watcher.pattern.filesIn (fileSystem.walk root)).findSome?
          fileSystem.fault? with
      | some failure => exact ⟨rfl, rfl, rfl⟩
      | none => exact absurd ⟨broken, fault⟩ unclear

theorem idles_of_settled (settled : watcher.Clear fileSystem →
    Changes.Settled watcher.tracked (watcher.sight fileSystem)) :
    Idles (watcher.course fileSystem .begin) watcher.tracked := by
  by_cases clear : watcher.Clear fileSystem
  · rw [course_of_clear clear, Changes.between_of_settled (settled clear)]
    exact ⟨rfl, rfl, rfl⟩
  · exact idles_of_not_clear clear

theorem idles_of_completes {owner : Owner} {published : List Event}
    {result : Except PassError (List Event)} (eventsOpen : watcher.events.closed = false)
    (errorsOpen : watcher.errors.closed = false)
    (completed : Completes owner fileSystem watcher published result final) :
    Idles (final.course fileSystem .begin) final.tracked := by
  obtain ⟨frame, failures, whole⟩ := course_of_completes eventsOpen errorsOpen completed
  apply idles_of_settled
  intro clear
  have sameSight : final.sight fileSystem = watcher.sight fileSystem := by
    rw [sight, sight, frame.pattern]
  have clearBefore : watcher.Clear fileSystem := ⟨clear.listed, frame.pattern ▸ clear.read⟩
  have tracked : final.tracked =
      (Changes.between watcher.tracked (watcher.sight fileSystem)).times :=
    congrArg Course.times (whole.symm.trans (course_of_clear clearBefore))
  rw [sameSight, tracked]
  exact Changes.settled_between watcher.tracked (watcher.sight fileSystem)

theorem get?_timesOf {found times : Times} {names : List String}
    (read : timesOf fileSystem found names = .ok times) (name : String) :
    times.get? name =
      if name ∈ names then (fileSystem.timeOf name).toOption else found.get? name := by
  induction names generalizing found with
  | nil =>
      cases read
      rfl
  | cons first later inductionHypothesis =>
      rw [timesOf] at read
      cases answer : fileSystem.timeOf first with
      | error failure =>
          rw [answer] at read
          cases read
      | ok time =>
          rw [answer] at read
          rw [inductionHypothesis read, PathMap.get?_insert]
          by_cases again : name ∈ later
          · simp [again]
          · by_cases same : name = first
            · simp [same, answer, Except.toOption]
            · simp [again, same]

theorem settled_of_timesOf {times : Times} {names : List String}
    (read : timesOf fileSystem .empty names = .ok times) :
    Changes.Settled times (fileSystem.observe .empty names) where
  seen path member := by
    have listed : path ∈ names := by
      rcases mem_keys_of_timesOf read path member with before | listed
      · cases before
      · exact listed
    apply PathMap.contains_iff.mp
    rw [PathMap.contains, FileSystem.get?_observe, if_pos listed]
    rfl
  upToDate path time member := by
    have answer := PathMap.get?_eq_some_iff.mpr member
    rw [FileSystem.get?_observe] at answer
    split at answer
    · rename_i listed
      refine ⟨time, ?_, Seconds.lt_irrefl time⟩
      rw [get?_timesOf read, if_pos listed]
      exact Option.some.inj answer
    · cases answer

theorem idles_of_prepare {ready : Watcher} (prepared : watcher.prepare fileSystem = .ok ready) :
    Idles (ready.course fileSystem .begin) ready.tracked := by
  obtain ⟨_, times, seeded, rfl⟩ := eq_of_prepare prepared
  obtain ⟨_, read⟩ := seed_eq_ok_iff.mp seeded
  apply idles_of_settled
  intro _
  exact settled_of_timesOf read

end Settled

/-- Whether a tick on the files as they are now publishes and yields no event and leaves the
tracked times alone, at every moment of it and in the end. With room for its complaints it ends at
once. -/
structure Quiet (watcher : Watcher) (fileSystem : FileSystem) : Prop where
  during {owner : Owner} {published : List Event} {later : Watcher} {pass : Pass} :
    Reaches owner fileSystem watcher published later pass →
    published = [] ∧ later.tracked = watcher.tracked
  completed {owner : Owner} {published : List Event} {result : Except PassError (List Event)}
    {final : Watcher} : Completes owner fileSystem watcher published result final →
    published = [] ∧ eventsOf result = [] ∧ final.tracked = watcher.tracked
  returns (owner : Owner) :
    watcher.errors.HasRoomFor (watcher.course fileSystem .begin).reports.errors →
    ∃ final result, watcher.run owner fileSystem .begin = (final, .ended result) ∧
      eventsOf result = [] ∧ final.tracked = watcher.tracked ∧ final.events = watcher.events

section Quiet

variable {fileSystem : FileSystem} {watcher : Watcher}

theorem quiet_of_idles (eventsOpen : watcher.events.closed = false)
    (errorsOpen : watcher.errors.closed = false)
    (idles : Idles (watcher.course fileSystem .begin) watcher.tracked) :
    watcher.Quiet fileSystem where
  during reached := by
    obtain ⟨_, ⟨failures, whole⟩, tracked⟩ := onCourse_of_reaches eventsOpen errorsOpen reached
    constructor
    · have unpublished := idles.unpublished
      rw [whole] at unpublished
      exact (List.append_eq_nil_iff.mp unpublished).1
    · rcases tracked with same | compared
      · exact same
      · exact compared.trans idles.kept
  completed completed := by
    obtain ⟨_, failures, whole⟩ := course_of_completes eventsOpen errorsOpen completed
    rw [whole] at idles
    exact ⟨idles.unpublished, idles.fruitless, idles.kept⟩
  returns owner errorsRoom := by
    have eventsRoom :
        watcher.events.HasRoomFor (watcher.course fileSystem .begin).reports.events := by
      rw [idles.unpublished]
      exact .nil eventsOpen
    obtain ⟨final, ran, tracked, events, _⟩ := run_of_room owner eventsRoom errorsRoom
    refine ⟨final, _, ran, idles.fruitless, tracked.trans idles.kept, ?_⟩
    rw [events, idles.unpublished, Channel.putAll_nil]

end Quiet

/-- Whoever observes the same again finds nothing. So a tick on files that stay as they are is
quiet right behind the first look at them and right behind any other tick, whatever was tracked
before, whichever files cannot be read, and even if the walk fails. -/
theorem idle_ticks_quiet :
    (∀ known observed, Changes.between (Changes.between known observed).times observed =
      ⟨[], (Changes.between known observed).times⟩) ∧
    ∀ (fileSystem : FileSystem) (watcher : Watcher),
      watcher.events.closed = false → watcher.errors.closed = false →
      (∀ ready, watcher.prepare fileSystem = .ok ready → ready.Quiet fileSystem) ∧
      ∀ owner published result final,
        Completes owner fileSystem watcher published result final → final.Quiet fileSystem := by
  refine ⟨Changes.between_between, fun fileSystem watcher eventsOpen errorsOpen => ⟨?_, ?_⟩⟩
  · intro ready prepared
    have idles := idles_of_prepare prepared
    obtain ⟨_, times, _, rfl⟩ := eq_of_prepare prepared
    exact quiet_of_idles eventsOpen errorsOpen idles
  · intro owner published result final completed
    obtain ⟨frame, _⟩ := course_of_completes eventsOpen errorsOpen completed
    apply quiet_of_idles
    · exact frame.eventsClosed.trans eventsOpen
    · exact frame.errorsClosed.trans errorsOpen
    · exact idles_of_completes eventsOpen errorsOpen completed

/-- A file with an older time that is listed twice, one whose time is not a number, and one that
cannot be read. -/
def unruly : FileSystem where
  walk _ := ⟨[⟨"b", false, none⟩, ⟨"a", false, none⟩, ⟨"n", false, none⟩, ⟨"a", false, none⟩], none⟩
  timeOf
    | "a" => .ok 1
    | "n" => .ok (0 / 0)
    | _ => .error (.file .denied none "locked")

def stale : Watcher :=
  { narrow with lifecycle := .ready, tracked := .ofList [("a", 2), ("b", 1)] }

/-- The next tick is quiet, be it behind a first look at one file or behind a tick on the unruly
ones. -/
theorem idle_ticks_quiet_unruly :
    ∃ ready final published, narrow.events.closed = false ∧ narrow.errors.closed = false ∧
      narrow.prepare (withFile "a" 1) = .ok ready ∧ ready.Quiet (withFile "a" 1) ∧
      stale.events.closed = false ∧ stale.errors.closed = false ∧
      stale.run (.caller 0) unruly .begin = (final, .ended (.ok [⟨.created, "n"⟩])) ∧
      Completes (.caller 0) unruly stale published (.ok [⟨.created, "n"⟩]) final ∧
      final.Quiet unruly := by
  let ready : Watcher := { narrow with tracked := .ofList [("a", 1)], lifecycle := .ready }
  have prepared : narrow.prepare (withFile "a" 1) = .ok ready := by cbv
  have names : stale.pattern.filesIn (unruly.walk root) = ["b", "a", "n", "a"] := by cbv
  have clear : stale.Clear unruly := ⟨rfl, by rw [names]; decide⟩
  have found : (Changes.between stale.tracked (stale.sight unruly)).events =
      [⟨.created, "n"⟩] := by
    rw [sight, names]
    decide
  have course := course_of_clear clear
  simp only [found, names] at course
  have eventsRoom : stale.events.HasRoomFor (stale.course unruly .begin).reports.events :=
    ⟨rfl, fun _ => by rw [course]; decide⟩
  have errorsRoom : stale.errors.HasRoomFor (stale.course unruly .begin).reports.errors :=
    ⟨rfl, fun _ => by rw [course]; decide⟩
  obtain ⟨final, ran, _⟩ := run_of_room (.caller 0) eventsRoom errorsRoom
  rw [course] at ran
  obtain ⟨published, completed⟩ := completes_of_run .begun ran
  have quiet := (idle_ticks_quiet.2 unruly stale rfl rfl).2 _ _ _ _ completed
  have quietAtFirst := (idle_ticks_quiet.2 (withFile "a" 1) narrow rfl rfl).1 _ prepared
  exact ⟨ready, final, published, rfl, rfl, prepared, quietAtFirst, rfl, rfl, ran, completed, quiet⟩

end Watcher

end TreeWatch
