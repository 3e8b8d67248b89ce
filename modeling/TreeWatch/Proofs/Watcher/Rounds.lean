import Mathlib.Algebra.Order.Archimedean.Basic
import TreeWatch.Proofs.Watcher.Filtering
import TreeWatch.Proofs.Watcher.Rest

/-!
A loop that nobody asks to end makes one pass after another.

As long as looking at the files fails by failures of the file system only, it does not end, whatever
else happens. If somebody reads the channels it can be brought from a look at the clock to its next
pass, however short the slices of its sleep are, and from there to the end of the pass, however
often that has to wait for room.
-/

namespace TreeWatch

open Relation (ReflTransGen)

namespace Pass

theorem Nearer.trans {first second third : Pass} (nearer : Nearer first second)
    (again : Nearer second third) : Nearer first third :=
  Prod.Lex.trans nearer again

theorem nearer_wf : WellFounded Nearer :=
  InvImage.wf (fun pass : Pass => (pass.stage, pass.stepsLeft))
    (Prod.lex Nat.lt_wfRel Nat.lt_wfRel).wf

end Pass

namespace Watcher

variable {τ : Type} {watcher after : Watcher τ} {owner : Owner} {fileSystem : FileSystem}
  {pass rest : Pass} {result : Except PassError (List Event)}

def HasRoom (watcher : Watcher τ) : Pass → Prop
  | .complain _ _ => watcher.errors.items.length < watcher.errors.capacity
  | .publish (_ :: _) _ => watcher.events.items.length < watcher.events.capacity
  | _ => True

theorem not_waits_of_hasRoom (hasRoom : watcher.HasRoom pass) :
    watcher.step owner fileSystem pass ≠ (after, .waits) := by
  intro stepped
  cases pass with
  | begin =>
      simp only [step, beginPass] at stepped
      split at stepped
      · cases stepped
      · split at stepped <;> cases stepped
  | look left seen =>
      cases left with
      | nil => cases stepped
      | cons name later =>
          simp only [step, lookStep] at stepped
          split at stepped
          · cases stepped
          · split at stepped <;> cases stepped
  | complain failure next =>
      simp only [step, complainStep] at stepped
      split at stepped
      · cases stepped
      · rename_i full
        exact absurd hasRoom (Nat.not_lt.mpr (Channel.full_of_put full))
      · cases stepped
  | publish left events =>
      cases left with
      | nil => cases stepped
      | cons event later =>
          simp only [step, publishStep] at stepped
          split at stepped
          · cases stepped
          · rename_i full
            exact absurd hasRoom (Nat.not_lt.mpr (Channel.full_of_put full))
          · cases stepped

/-- A pass that has to wait has come nearer to its end, unless its next step has to wait. -/
theorem nearer_of_run (ran : watcher.run owner fileSystem pass = (after, .suspended rest)) :
    Pass.Nearer rest pass ∨ watcher.step owner fileSystem pass = (after, .waits) := by
  fun_induction run watcher owner fileSystem pass with
  | case1 watcher pass later next stepped inductionHypothesis =>
      have nearer := nearer_of_step stepped
      rcases inductionHypothesis ran with further | waits
      · exact .inl (further.trans nearer)
      · rw [run_of_waits waits] at ran
        cases ran
        exact .inl nearer
  | case2 watcher pass later stepped =>
      cases ran
      exact .inr stepped
  | case3 watcher pass later result stepped => cases ran

theorem ok_of_step (sound : fileSystem.Sound) (eventsOpen : watcher.events.closed = false)
    (errorsOpen : watcher.errors.closed = false)
    (stepped : watcher.step owner fileSystem pass = (after, .ended result)) :
    ∃ events, result = .ok events := by
  cases pass with
  | begin =>
      simp only [step, beginPass, Pattern.glob, Pattern.filesOf_eq] at stepped
      cases broken : (fileSystem.walk root).breakdown? root with
      | some failure =>
          simp only [broken, Walk.isOfWalk_of_breakdown? broken,
            sound.isOfFiles_of_breakdown? broken] at stepped
          cases stepped
      | none =>
          simp only [broken] at stepped
          cases stepped
  | look left seen =>
      cases left with
      | nil => cases stepped
      | cons name later =>
          simp only [step, lookStep] at stepped
          cases answer : fileSystem.timeOf name with
          | ok time =>
              simp only [answer] at stepped
              cases stepped
          | error failure =>
              simp only [answer, sound.timeOf name failure answer] at stepped
              cases stepped
  | complain failure next =>
      simp only [step, complainStep] at stepped
      split at stepped
      · rename_i refused
        cases errorsOpen.symm.trans (Channel.closed_of_refused refused)
      · cases stepped
      · cases stepped
  | publish left events =>
      cases left with
      | nil =>
          cases stepped
          exact ⟨events, rfl⟩
      | cons event later =>
          simp only [step, publishStep] at stepped
          split at stepped
          · rename_i refused
            cases eventsOpen.symm.trans (Channel.closed_of_refused refused)
          · cases stepped
          · cases stepped

theorem ok_of_run (sound : fileSystem.Sound) (eventsOpen : watcher.events.closed = false)
    (errorsOpen : watcher.errors.closed = false)
    (ran : watcher.run owner fileSystem pass = (after, .ended result)) :
    ∃ events, result = .ok events := by
  fun_induction run watcher owner fileSystem pass with
  | case1 watcher pass later next stepped inductionHypothesis =>
      have frame := frame_of_step stepped
      exact inductionHypothesis (frame.eventsClosed.trans eventsOpen)
        (frame.errorsClosed.trans errorsOpen) ran
  | case2 watcher pass later stepped => cases ran
  | case3 watcher pass later result stepped =>
      cases ran
      exact ok_of_step sound eventsOpen errorsOpen stepped

end Watcher

namespace Session

variable {τ : Type} {session later : Session τ}

/-- Whether the loop can go on from pass to pass: the channels are open, the files have failures of
the file system only, and nobody has asked it to end. -/
structure Able (session : Session τ) : Prop where
  eventsOpen : session.watcher.events.closed = false
  errorsOpen : session.watcher.errors.closed = false
  sound : session.fileSystem.Sound
  unasked : ¬session.IsToEnd

theorem Able.still (able : session.Able) (watcher : later.watcher = session.watcher)
    (fileSystem : later.fileSystem = session.fileSystem) (ends : later.IsToEnd → session.IsToEnd) :
    later.Able where
  eventsOpen := watcher ▸ able.eventsOpen
  errorsOpen := watcher ▸ able.errorsOpen
  sound := fileSystem ▸ able.sound
  unasked asked := able.unasked (ends asked)

theorem Able.withFrame (able : session.Able) {watcher : Watcher τ}
    (frame : Watcher.Frame session.watcher watcher) : Able { session with watcher } where
  eventsOpen := frame.eventsClosed.trans able.eventsOpen
  errorsOpen := frame.errorsClosed.trans able.errorsOpen
  sound := able.sound
  unasked ends := able.unasked (by simpa [IsToEnd, frame.stopRequested] using ends)

structure AtWork (session : Session τ) : Prop where
  able : session.Able
  coherent : session.Coherent
  running : session.watcher.lifecycle = .running

namespace AtWork

theorem begun (atWork : session.AtWork) : session.loop ≠ .idle := by
  intro idle
  have suits : Suits session.watcher.lifecycle session.loop := atWork.coherent
  rw [atWork.running, idle] at suits
  cases suits

theorem unended (atWork : session.AtWork) : session.loop ≠ .ended := by
  intro ended
  have suits : Suits session.watcher.lifecycle session.loop := atWork.coherent
  rw [atWork.running, ended] at suits
  cases suits

theorem withAble (atWork : session.AtWork) (able : later.Able)
    (lifecycle : later.watcher.lifecycle = session.watcher.lifecycle)
    (loop : later.loop = session.loop) : later.AtWork where
  able := able
  running := lifecycle.trans atWork.running
  coherent := by
    unfold Coherent
    rw [lifecycle, loop]
    exact atWork.coherent

theorem still (atWork : session.AtWork) (watcher : later.watcher = session.watcher)
    (fileSystem : later.fileSystem = session.fileSystem) (loop : later.loop = session.loop)
    (ends : later.IsToEnd → session.IsToEnd) : later.AtWork :=
  atWork.withAble (atWork.able.still watcher fileSystem ends) (watcher ▸ rfl) loop

theorem withWatcher (atWork : session.AtWork) {watcher : Watcher τ}
    (frame : Watcher.Frame session.watcher watcher) : AtWork { session with watcher } :=
  atWork.withAble (atWork.able.withFrame frame) frame.lifecycle rfl

theorem withLoop (atWork : session.AtWork) {loop : Loop τ} (suits : Suits .running loop) :
    AtWork { session with loop } where
  able := atWork.able.still rfl rfl id
  running := atWork.running
  coherent := by
    unfold Coherent
    rw [atWork.running]
    exact suits

theorem rouse [LE τ] [DecidableLE τ] (atWork : session.AtWork) : session.rouse.AtWork := by
  unfold Session.rouse
  split
  · split
    · exact atWork.still rfl rfl rfl id
    · exact atWork
  · exact atWork

theorem take (atWork : session.AtWork) (outlet : Outlet) : (session.take outlet).1.AtWork := by
  have able := atWork.able
  have takes := session.takes outlet
  generalize (session.take outlet).1 = later at takes
  cases takes with
  | nothing => exact atWork
  | event taken =>
      have frame := Channel.frame_of_taken taken
      refine atWork.withAble ⟨?_, able.errorsOpen, able.sound, able.unasked⟩ rfl rfl
      exact frame.closed.trans able.eventsOpen
  | failure taken =>
      have frame := Channel.frame_of_taken taken
      refine atWork.withAble ⟨able.eventsOpen, ?_, able.sound, able.unasked⟩ rfl rfl
      exact frame.closed.trans able.errorsOpen

theorem resumeCaller (atWork : session.AtWork) (id : Nat) : (session.resumeCaller id).AtWork := by
  unfold Session.resumeCaller
  split
  · exact atWork
  · split <;> rename_i ran
    · exact (atWork.withWatcher (Watcher.frame_of_run ran)).still rfl rfl rfl fun asked => asked
    · exact (atWork.withWatcher (Watcher.frame_of_run ran)).still rfl rfl rfl fun asked => asked

end AtWork

/-- Whether a command lets the loop go on: it neither asks it to end nor brings files with failures
other than those of the file system. -/
def Spares (session : Session τ) : Command τ → Prop
  | .replaceFiles fileSystem => fileSystem.Sound
  | command => ¬command.Asks session.cancellable

variable [Field τ] [LinearOrder τ]

namespace AtWork

theorem call (atWork : session.AtWork) (id : Nat) {command : Command τ}
    (unread : ¬command.Reads) (spares : session.Spares command) :
    (session.perform id command).AtWork := by
  by_cases launches : command.Launches
  · obtain ⟨answer, same⟩ := exists_reply_of_launches atWork.coherent atWork.begun launches id
    rw [same]
    exact atWork.still rfl rfl rfl fun asked => asked
  have able := atWork.able
  cases command with
  | prepare | start | tick => exact absurd trivial launches
  | get | drain => exact absurd trivial unread
  | close limited => exact absurd trivial spares
  | replaceFiles fileSystem =>
      exact atWork.withAble ⟨able.eventsOpen, able.errorsOpen, spares, able.unasked⟩ rfl rfl
  | cancel =>
      refine atWork.still rfl rfl rfl ?_
      rintro (stopped | ⟨looks, _⟩)
      · exact .inl stopped
      · exact absurd looks spares
  | advance duration =>
      have moved : AtWork { session with clock := session.clock + duration } :=
        atWork.still rfl rfl rfl fun asked => asked
      exact moved.rouse.still rfl rfl rfl fun asked => asked

theorem resumeLoop [IsStrictOrderedRing τ] (atWork : session.AtWork) :
    session.resumeLoop.AtWork := by
  have turn := turn_resumeLoop atWork.begun
  generalize session.resumeLoop = later at turn
  have goesOn {next : Session τ} (atWork : next.AtWork) : (next.goOn .loop).AtWork :=
    atWork.still rfl rfl rfl id
  cases turn with
  | ended loop => exact atWork
  | stops loop ends => exact absurd ends atWork.able.unasked
  | wakes loop => exact goesOn (atWork.withLoop (.deciding _))
  | begins loop due => exact goesOn (atWork.withLoop (.passing _ _))
  | sleeps loop => exact atWork.withLoop (.sleeping _ _)
  | waits loop ran =>
      exact (atWork.withWatcher (Watcher.frame_of_run ran)).withLoop (.passing _ _)
  | finishes loop ran =>
      exact goesOn ((atWork.withWatcher (Watcher.frame_of_run ran)).withLoop (.deciding _))
  | fails loop ran =>
      have able := atWork.able
      obtain ⟨events, ok⟩ := Watcher.ok_of_run able.sound able.eventsOpen able.errorsOpen ran
      cases ok

theorem of_happens [IsStrictOrderedRing τ] {timely : Session τ → Command τ → Prop}
    (atWork : session.AtWork)
    (spares : ∀ command, timely session command → session.Spares command)
    (happens : Happens timely session later) : later.AtWork := by
  cases happens with
  | call id unread now => exact atWork.call id unread (spares _ now)
  | take outlet => exact atWork.take outlet
  | answer replies => exact atWork.still rfl rfl rfl id
  | @resume owner next =>
      have popped : AtWork { session with ready := session.ready.erase owner } :=
        atWork.still rfl rfl rfl id
      cases owner with
      | caller id => exact popped.resumeCaller id
      | loop => exact popped.resumeLoop

/-- A loop that is spared does not end. -/
theorem of_leads [IsStrictOrderedRing τ] {timely : Session τ → Command τ → Prop}
    {diary last : Diary τ} (atWork : diary.session.AtWork)
    (spares : ∀ session command, timely session command → session.Spares command)
    (leads : diary.Leads timely last) : last.session.AtWork := by
  induction leads with
  | refl => exact atWork
  | tail _ step inductionHypothesis =>
      obtain ⟨happens⟩ := step
      exact inductionHypothesis.of_happens (spares _) happens

end AtWork

structure Working (session : Session τ) : Prop where
  picked : session.Picked
  able : session.Able

theorem Working.withLoop (working : session.Working) {loop : Loop τ} (begun : loop ≠ .idle) :
    Working { session with loop } where
  picked := ⟨working.picked.positive, working.picked.nobody, working.picked.free, begun⟩
  able := working.able.still rfl rfl id

theorem Working.withClock (working : session.Working) (clock : τ)
    (replies : List (Nat × Reply)) : Working { session with clock, replies } where
  picked := ⟨working.picked.positive, working.picked.nobody, working.picked.free,
    working.picked.begun⟩
  able := working.able.still rfl rfl id

/-- Where the loop stands when it has just been picked, by an exact clock. -/
structure Stands (session : Session τ) (interval clock : τ) (loop : Loop τ) : Prop where
  working : session.Working
  sameInterval : session.watcher.interval = interval
  sameClock : session.clock = clock
  sameLoop : session.loop = loop

variable {interval clock alarm started : τ} {pass : Pass}

def outletOf : Pass → Outlet
  | .complain _ _ => .errors
  | _ => .events

theorem exists_take (positive : 0 < session.watcher.interval)
    (nobody : session.ready = []) (able : session.Able)
    (loop : session.loop = .passing started pass) (blocked : session.watcher.Blocked .loop pass) :
    ∃ later : Session τ, later.Stands session.watcher.interval session.clock
        (.passing started pass) ∧
      later.watcher.HasRoom pass ∧ (session.take (outletOf pass)).1 = later.goOn .loop := by
  cases pass with
  | begin => exact blocked.elim
  | look left seen => exact blocked.elim
  | complain failure next =>
      obtain ⟨first, channel, taken, unattended, room⟩ := blocked.2.exists_taken
      have frame := Channel.frame_of_taken taken
      let later : Session τ :=
        { session with watcher := { session.watcher with errors := channel } }
      refine ⟨later, ⟨⟨⟨positive, nobody, ⟨blocked.1, unattended⟩, by simp [later, loop]⟩, ?_⟩, rfl,
        rfl, loop⟩, room, ?_⟩
      · exact ⟨able.eventsOpen, frame.closed.trans able.errorsOpen, able.sound, able.unasked⟩
      · simp [Session.take, outletOf, taken, wake, goOn, nobody, later]
  | publish left events =>
      cases left with
      | nil => exact blocked.elim
      | cons event others =>
          obtain ⟨first, channel, taken, unattended, room⟩ := blocked.1.exists_taken
          have frame := Channel.frame_of_taken taken
          let later : Session τ :=
            { session with watcher := { session.watcher with events := channel } }
          refine ⟨later, ⟨⟨⟨positive, nobody, ⟨unattended, blocked.2⟩, by simp [later, loop]⟩, ?_⟩,
            rfl, rfl, loop⟩, room, ?_⟩
          · exact ⟨frame.closed.trans able.eventsOpen, able.errorsOpen, able.sound, able.unasked⟩
          · simp [Session.take, outletOf, taken, wake, goOn, nobody, later]

theorem Stands.spend {duration : τ} (begun ended : List τ)
    (stands : session.Stands interval clock (.passing started pass))
    (forward : 0 ≤ duration) :
    ∃ later : Session τ, later.Stands interval (clock + duration) (.passing started pass) ∧
      Diary.Leads KeepsTime ⟨session.goOn .loop, begun, ended⟩
        ⟨later.goOn .loop, begun, ended⟩ := by
  obtain ⟨working, rfl, rfl, loop⟩ := stands
  let later : Session τ :=
    { session with
      clock := session.clock + duration
      replies := session.replies ++ [(0, .done)] }
  have advances : (session.goOn .loop).perform 0 (.advance duration) = later.goOn .loop := by
    simp [perform, rouse, loop, goOn, reply, later]
  have keeps : (session.goOn .loop).KeepsTime (.advance duration) := by
    refine ⟨forward, ?_⟩
    rw [loop_goOn, loop]
    trivial
  have goesBy : Happens KeepsTime (session.goOn .loop) (later.goOn .loop) := by
    rw [← advances]
    exact .call 0 (fun reads => reads) keeps
  exact ⟨later, ⟨working.withClock _ _, rfl, rfl, loop⟩, .single (Diary.step_still goesBy rfl)⟩

section Progress

variable [IsStrictOrderedRing τ] (begun ended : List τ)

theorem Stands.wake (stands : session.Stands interval clock (.sleeping started alarm))
    (early : clock ≤ alarm) :
    ∃ later : Session τ, later.Stands interval alarm (.deciding started) ∧
      Diary.Leads KeepsTime ⟨session, begun, ended⟩ ⟨later.goOn .loop, begun, ended⟩ := by
  obtain ⟨working, rfl, rfl, loop⟩ := stands
  have reaches : session.clock + (alarm - session.clock) = alarm := add_sub_cancel _ _
  let awake : Session τ :=
    { session with clock := alarm, replies := session.replies ++ [(0, .done)] }
  have advances : session.perform 0 (.advance (alarm - session.clock)) = awake.goOn .loop := by
    simp [perform, rouse, loop, Session.wake, goOn, reply, working.picked.nobody, awake]
  have keeps : session.KeepsTime (.advance (alarm - session.clock)) := by
    refine ⟨sub_nonneg.mpr early, ?_⟩
    rw [loop]
    exact reaches.le
  have wakes : Happens KeepsTime session (awake.goOn .loop) := by
    rw [← advances]
    exact .call 0 (fun reads => reads) keeps
  have asleep : awake.loop = .sleeping started alarm := loop
  let later : Session τ := { awake with loop := .deciding started }
  have looks : Happens KeepsTime (awake.goOn .loop) (later.goOn .loop) := by
    have looks : Happens KeepsTime (awake.goOn .loop) awake.resumeLoop := happens_goOn awake
    rwa [resumeLoop, asleep] at looks
  have still : Loop.isPassing (.deciding started) = awake.loop.isPassing := by
    rw [asleep]
    rfl
  refine ⟨later, ⟨(working.withClock _ _).withLoop (by simp), rfl, rfl, rfl⟩, ?_⟩
  exact .tail (.single (Diary.step_still wakes rfl)) (Diary.step_still looks still)

/-- What the next look at the clock leads to. -/
inductive Looks (session : Session τ) (begun ended : List τ) (interval clock started : τ) : Prop
  | begins {later : Session τ} (stands : later.Stands interval clock (.passing clock .begin))
      (leads : Diary.Leads KeepsTime ⟨session.goOn .loop, begun, ended⟩
        ⟨later.goOn .loop, begun ++ [clock], ended⟩)
  | sleeps {later : Session τ} {duration : τ} (forward : 0 < duration)
      (within : clock + duration ≤ started + interval)
      (enough : clock + duration = started + interval ∨ duration = cancelSlice)
      (stands : later.Stands interval (clock + duration) (.deciding started))
      (leads : Diary.Leads KeepsTime ⟨session.goOn .loop, begun, ended⟩
        ⟨later.goOn .loop, begun, ended⟩)

theorem Stands.look (stands : session.Stands interval clock (.deciding started)) :
    session.Looks begun ended interval clock started := by
  obtain ⟨working, rfl, rfl, loop⟩ := stands
  have still : (session.goOn .loop).loop.isPassing = false := by
    rw [loop_goOn, loop]
    rfl
  have resumes : Happens KeepsTime (session.goOn .loop) session.resumeLoop := happens_goOn session
  have turn := turn_resumeLoop working.picked.begun
  generalize session.resumeLoop = later at resumes turn
  cases turn with
  | wakes other => cases loop.symm.trans other
  | waits other => cases loop.symm.trans other
  | finishes other => cases loop.symm.trans other
  | fails other => cases loop.symm.trans other
  | ended other => cases loop.symm.trans other
  | stops _ ends => exact absurd ends working.able.unasked
  | begins _ due =>
      let later : Session τ := { session with loop := .passing session.clock .begin }
      have stands : later.Stands session.watcher.interval session.clock
          (.passing session.clock .begin) :=
        ⟨working.withLoop (by simp), rfl, rfl, rfl⟩
      exact .begins stands (.single (Diary.step_begins resumes still rfl))
  | @sleeps last duration same forward within enough =>
      cases loop.symm.trans same
      have asleep : Stands { session with loop := .sleeping started (session.clock + duration) }
          session.watcher.interval session.clock (.sleeping started (session.clock + duration)) :=
        ⟨working.withLoop (by simp), rfl, rfl, rfl⟩
      obtain ⟨later, stands, leads⟩ := asleep.wake begun ended (le_add_of_nonneg_right forward.le)
      refine .sleeps forward within enough stands ?_
      exact .head (Diary.step_still resumes still.symm) leads

/-- However short the slices are, the next pass begins after some of them. -/
theorem Stands.exists_begin (count : Nat)
    (stands : session.Stands interval clock (.deciding started))
    (near : started + interval ≤ clock + count • cancelSlice) :
    ∃ later : Session τ, ∃ now, later.Stands interval now (.passing now .begin) ∧
      Diary.Leads KeepsTime ⟨session.goOn .loop, begun, ended⟩
        ⟨later.goOn .loop, begun ++ [now], ended⟩ := by
  induction count generalizing session clock with
  | zero =>
      have looks : session.Looks begun ended interval clock started := stands.look begun ended
      cases looks with
      | begins stands leads => exact ⟨_, _, stands, leads⟩
      | sleeps forward within =>
          rw [zero_nsmul, add_zero] at near
          linarith
  | succ count inductionHypothesis =>
      have looks : session.Looks begun ended interval clock started := stands.look begun ended
      cases looks with
      | begins stands leads => exact ⟨_, _, stands, leads⟩
      | @sleeps later duration _ _ enough stands leads =>
          have nearer : started + interval ≤ clock + duration + count • cancelSlice := by
            rw [succ_nsmul] at near
            rcases enough with whole | rfl
            · exact whole.ge.trans (le_add_of_nonneg_right (nsmul_nonneg cancelSlice_pos.le count))
            · linarith
          obtain ⟨final, now, stands, goesOn⟩ := inductionHypothesis stands nearer
          exact ⟨final, now, stands, leads.trans goesOn⟩

/-- A pass comes to its end, however often it has to wait for room. -/
theorem Stands.exists_finish (stands : session.Stands interval clock (.passing started pass))
    (hasRoom : session.watcher.HasRoom pass) :
    ∃ later : Session τ, later.Stands interval clock (.deciding started) ∧
      Diary.Leads KeepsTime ⟨session.goOn .loop, begun, ended⟩
        ⟨later.goOn .loop, begun, ended ++ [clock]⟩ := by
  induction pass using Pass.nearer_wf.induction generalizing session with
  | h pass inductionHypothesis =>
  obtain ⟨working, rfl, rfl, loop⟩ := stands
  obtain ⟨picked, able⟩ := working
  have passing : (session.goOn .loop).loop.isPassing = true := by
    rw [loop_goOn, loop]
    rfl
  have resumes : Happens KeepsTime (session.goOn .loop) session.resumeLoop := happens_goOn session
  have turn := turn_resumeLoop picked.begun
  generalize session.resumeLoop = later at resumes turn
  cases turn with
  | wakes other => cases loop.symm.trans other
  | begins other => cases loop.symm.trans other
  | sleeps other => cases loop.symm.trans other
  | stops other => cases loop.symm.trans other
  | ended other => cases loop.symm.trans other
  | fails same ran =>
      cases loop.symm.trans same
      obtain ⟨events, ok⟩ := Watcher.ok_of_run able.sound able.eventsOpen able.errorsOpen ran
      cases ok
  | @finishes _ _ watcher events same ran =>
      cases loop.symm.trans same
      have frame := Watcher.frame_of_run ran
      have leaves := Watcher.leaves_of_run picked.free ran
      have able := able.withFrame frame
      let later : Session τ := { session with watcher, loop := .deciding started }
      have working : later.Working :=
        ⟨⟨frame.interval ▸ picked.positive, picked.nobody, leaves, by simp [later]⟩,
          able.still rfl rfl id⟩
      exact ⟨later, ⟨working, frame.interval, rfl, rfl⟩,
        .single (Diary.step_ends resumes passing rfl)⟩
  | @waits _ _ rest watcher same ran =>
      cases loop.symm.trans same
      have frame := Watcher.frame_of_run ran
      have leaves := Watcher.leaves_of_run picked.free ran
      have able := able.withFrame frame
      have nearer : Pass.Nearer rest pass :=
        (Watcher.nearer_of_run ran).resolve_right (Watcher.not_waits_of_hasRoom hasRoom)
      let held : Session τ := { session with watcher, loop := .passing started rest }
      have heldAble : held.Able := able.still rfl rfl id
      have positive : 0 < held.watcher.interval := frame.interval ▸ picked.positive
      obtain ⟨woken, stands, room, taken⟩ := exists_take positive picked.nobody heldAble rfl leaves
      have takes : Happens KeepsTime held (woken.goOn .loop) := by
        rw [← taken]
        exact .take _
      have stillPassing : (woken.goOn .loop).loop.isPassing = held.loop.isPassing := by
        rw [show (woken.goOn .loop).loop = .passing started rest from stands.sameLoop]
      have stands : woken.Stands session.watcher.interval session.clock (.passing started rest) :=
        ⟨stands.working, stands.sameInterval.trans frame.interval, stands.sameClock,
          stands.sameLoop⟩
      obtain ⟨later, finished, leads⟩ := inductionHypothesis rest nearer stands room
      have goesOn := ReflTransGen.head (Diary.step_still takes stillPassing) leads
      exact ⟨later, finished, .head (Diary.step_still resumes passing.symm) goesOn⟩

end Progress

end Session

end TreeWatch
