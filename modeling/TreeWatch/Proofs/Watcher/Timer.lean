import TreeWatch.Proofs.Watcher.Scene
import TreeWatch.Proofs.Watcher.Moves

/-!
The loop of a watcher as its clock sees it.

A timer is what decides when the loop begins a pass: the interval, the clock, the two flags that end
the loop, and whether the loop looks at the clock, sleeps or makes a pass. Times are of any kind.
Each call to a session and each resumption leaves its timer alone or is one act of it, which is told
here, and an act never begins a pass once the loop is to end.
-/

namespace TreeWatch

namespace Schedule

universe u

/-- What the loop is doing. A pass or a sleep is kept with the time at which the last pass began. -/
inductive Phase (τ : Type u)
  | idle
  | deciding (started : τ)
  | sleeping (started wake : τ)
  | passing (started : τ)
  | ended

namespace Phase

variable {τ : Type u}

def finished : Phase τ → Phase τ
  | passing started => deciding started
  | phase => phase

def failed : Phase τ → Phase τ
  | passing _ => ended
  | phase => phase

def isPassing : Phase τ → Bool
  | passing _ => true
  | _ => false

variable {phase : Phase τ} {started : τ}

@[simp]
theorem finished_eq_idle_iff : phase.finished = .idle ↔ phase = .idle := by
  cases phase <;> simp [finished]

@[simp]
theorem failed_eq_idle_iff : phase.failed = .idle ↔ phase = .idle := by
  cases phase <;> simp [failed]

@[simp]
theorem isPassing_finished (phase : Phase τ) : phase.finished.isPassing = false := by
  cases phase <;> rfl

@[simp]
theorem isPassing_failed (phase : Phase τ) : phase.failed.isPassing = false := by
  cases phase <;> rfl

theorem finished_eq_self (still : phase.isPassing = false) : phase.finished = phase := by
  cases phase with
  | passing started => cases still
  | idle | deciding | sleeping | ended => rfl

theorem failed_eq_self (still : phase.isPassing = false) : phase.failed = phase := by
  cases phase with
  | passing started => cases still
  | idle | deciding | sleeping | ended => rfl

theorem exists_of_isPassing (passing : phase.isPassing = true) :
    ∃ started, phase = .passing started := by
  cases phase with
  | passing started => exact ⟨started, rfl⟩
  | idle | deciding | sleeping | ended => cases passing

end Phase

structure Timer (τ : Type u) where
  interval : τ
  /-- The longest sleep, if the loop looks at the cancel flag. -/
  slice : Option τ
  cancelled : Bool
  stopped : Bool
  clock : τ
  phase : Phase τ

inductive Act (τ : Type u)
  | start (slice : Option τ)
  /-- The loop goes on between two passes. -/
  | resume
  | elapse (duration : τ)
  | cancel
  | stop
  /-- The pass ends. -/
  | finish
  /-- The pass fails, and the loop ends with it. -/
  | fail

namespace Timer

variable {τ : Type u} [Add τ] [Sub τ] [Zero τ] [LE τ] [DecidableLE τ] [LT τ] [DecidableLT τ]
  {timer : Timer τ} {started : τ}

def decision (timer : Timer τ) (started : τ) : Decision τ :=
  decide timer.interval timer.slice (timer.slice.isSome && timer.cancelled) timer.stopped started
    timer.clock

def nextPhase (timer : Timer τ) : Phase τ :=
  match timer.phase with
  | .deciding started =>
      match timer.decision started with
      | .stop => .ended
      | .tick => .passing timer.clock
      | .sleep duration => .sleeping started (timer.clock + duration)
  | .sleeping started _ => .deciding started
  | phase => phase

def act (timer : Timer τ) : Act τ → Timer τ
  | .start slice =>
      match timer.phase with
      | .idle => { timer with slice, phase := .deciding timer.clock }
      | _ => timer
  | .resume => { timer with phase := timer.nextPhase }
  | .elapse duration => { timer with clock := timer.clock + duration }
  | .cancel => { timer with cancelled := true }
  | .stop => { timer with stopped := true }
  | .finish => { timer with phase := timer.phase.finished }
  | .fail => { timer with phase := timer.phase.failed }

def undergo (timer : Timer τ) : Option (Act τ) → Timer τ
  | none => timer
  | some act => timer.act act

/-- Whether the loop is to end: because of a stop, or a cancel flag that it looks at. -/
def Ends (timer : Timer τ) : Prop :=
  timer.stopped = true ∨
    timer.phase ≠ .idle ∧ timer.slice.isSome = true ∧ timer.cancelled = true

omit [Add τ] in
theorem decision_of_ends (ends : timer.Ends) : timer.decision started = .stop := by
  unfold decision decide
  rcases ends with stopped | ⟨_, looks, cancelled⟩
  · simp [stopped]
  · simp [looks, cancelled]

theorem nextPhase_ne_idle (begun : timer.phase ≠ .idle) : timer.nextPhase ≠ .idle := by
  unfold nextPhase
  cases phase : timer.phase with
  | idle => exact absurd phase begun
  | deciding started =>
      dsimp only
      split <;> simp
  | sleeping | passing | ended => simp

theorem act_start (begun : timer.phase ≠ .idle) (slice : Option τ) :
    timer.act (.start slice) = timer := by
  cases phase : timer.phase with
  | idle => exact absurd phase begun
  | deciding | sleeping | passing | ended => simp only [act, phase]

theorem act_ne_idle (begun : timer.phase ≠ .idle) (act : Act τ) :
    (timer.act act).phase ≠ .idle := by
  cases act with
  | start slice =>
      rw [act_start begun]
      exact begun
  | resume => exact nextPhase_ne_idle begun
  | elapse | cancel | stop => exact begun
  | finish | fail => simpa [Timer.act] using begun

theorem slice_act (begun : timer.phase ≠ .idle) (act : Act τ) :
    (timer.act act).slice = timer.slice := by
  cases act with
  | start slice => rw [act_start begun]
  | resume | elapse | cancel | stop | finish | fail => rfl

theorem act_ended (ended : timer.phase = .ended) (act : Act τ) :
    (timer.act act).phase = .ended := by
  cases act with
  | start slice => simp only [Timer.act, ended]
  | resume => simp only [Timer.act, nextPhase, ended]
  | elapse | cancel | stop => exact ended
  | finish => simp only [Timer.act, ended, Phase.finished]
  | fail => simp only [Timer.act, ended, Phase.failed]

/-- A loop that is to end stays so, whatever happens. -/
theorem ends_act (ends : timer.Ends) (act : Act τ) : (timer.act act).Ends := by
  rcases ends with stopped | ⟨begun, looks, cancelled⟩
  · left
    cases act with
    | start => cases phase : timer.phase <;> simp only [Timer.act, phase, stopped]
    | stop => rfl
    | resume | elapse | cancel | finish | fail => exact stopped
  · refine .inr ⟨act_ne_idle begun act, ?_⟩
    cases act with
    | start =>
        rw [act_start begun]
        exact ⟨looks, cancelled⟩
    | cancel => exact ⟨looks, rfl⟩
    | resume | elapse | stop | finish | fail => exact ⟨looks, cancelled⟩

theorem isPassing_of_ends (ends : timer.Ends) (act : Act τ)
    (passing : (timer.act act).phase.isPassing = true) : timer.phase.isPassing = true := by
  cases act with
  | start =>
      cases phase : timer.phase with
      | idle => simp [Timer.act, phase, Phase.isPassing] at passing
      | deciding | sleeping | passing | ended =>
          rw [act_start (by simp [phase]), phase] at passing
          exact passing
  | resume =>
      change timer.nextPhase.isPassing = true at passing
      unfold nextPhase at passing
      cases phase : timer.phase with
      | deciding last =>
          rw [phase] at passing
          dsimp only at passing
          rw [decision_of_ends ends] at passing
          cases passing
      | idle | sleeping | passing | ended =>
          rw [phase] at passing
          exact passing
  | elapse | cancel | stop => exact passing
  | finish | fail => simp [Timer.act] at passing

end Timer

end Schedule

namespace Session

open Schedule (Phase Timer Act)

variable {τ : Type} {session later : Session τ} {act? : Option (Act τ)}

def Loop.phase : Loop τ → Phase τ
  | .idle => .idle
  | .deciding started => .deciding started
  | .sleeping started wake => .sleeping started wake
  | .passing started _ => .passing started
  | .ended => .ended

@[simp]
theorem Loop.phase_eq_idle_iff {loop : Loop τ} : loop.phase = .idle ↔ loop = .idle := by
  cases loop <;> simp [Loop.phase]

/-- What becomes of a session when an item is to be taken from one of its channels. -/
inductive Takes (session : Session τ) : Session τ → Prop
  | nothing : Takes session session
  | event {event : Event} {channel : Channel Owner Event} {woken : Option Owner}
      (taken : session.watcher.events.take = .taken event channel woken) :
      Takes session
        ({ session with watcher := { session.watcher with events := channel } }.wake woken.toList)
  | failure {failure : Failure} {channel : Channel Owner Failure} {woken : Option Owner}
      (taken : session.watcher.errors.take = .taken failure channel woken) :
      Takes session
        ({ session with watcher := { session.watcher with errors := channel } }.wake woken.toList)

theorem takes (session : Session τ) (outlet : Outlet) : session.Takes (session.take outlet).1 := by
  cases outlet with
  | events =>
      unfold take
      cases taken : session.watcher.events.take with
      | drained => exact .nothing
      | empty => exact .nothing
      | taken event channel woken => exact .event taken
  | errors =>
      unfold take
      cases taken : session.watcher.errors.take with
      | drained => exact .nothing
      | empty => exact .nothing
      | taken failure channel woken => exact .failure taken

/-- Whether the loop does what it may be doing in the state of the watcher's life. -/
def Coherent (session : Session τ) : Prop := Suits session.watcher.lifecycle session.loop

variable [OfScientific τ]

def timer (session : Session τ) : Timer τ where
  interval := session.watcher.interval
  slice := bif session.cancellable then some cancelSlice else none
  cancelled := session.cancelled
  stopped := session.watcher.stopRequested
  clock := session.clock
  phase := session.loop.phase

theorem timer_withWatcher {watcher : Watcher τ} (frame : Watcher.Frame session.watcher watcher) :
    { session with watcher }.timer = session.timer := by
  simp only [timer, frame.interval, frame.stopRequested]

variable [Add τ] [Sub τ] [Zero τ] [LE τ] [DecidableLE τ] [LT τ] [DecidableLT τ]

omit [Add τ] in
theorem decision_timer (started : τ) :
    session.timer.decision started = session.decision started := by
  unfold Timer.decision decision timer
  cases session.cancellable <;> rfl

def actOfCall? (session : Session τ) : Command τ → Option (Act τ)
  | .start cancellable =>
      match session.watcher.start session.fileSystem with
      | .ok _ => some (.start (bif cancellable then some cancelSlice else none))
      | .error _ => none
  | .advance duration => some (.elapse duration)
  | .cancel => some .cancel
  | .close _ => if session.watcher.lifecycle = .closed then none else some .stop
  | _ => none

/-- The act that it is to resume somebody. -/
def actOfResume? (session : Session τ) : Owner → Option (Act τ)
  | .caller _ => none
  | .loop =>
      match session.loop with
      | .passing _ pass =>
          match (session.watcher.run .loop session.fileSystem pass).2 with
          | .suspended _ => none
          | .ended (.ok _) => some .finish
          | .ended (.error _) => some .fail
      | _ => some .resume

/-- Whether what happened to a session was this act of its timer, or left it alone if there is
none, and whether the loop still suits the watcher's life. -/
structure Acts (session : Session τ) (act? : Option (Act τ)) (later : Session τ) : Prop where
  coherent : later.Coherent
  timer : later.timer = session.timer.undergo act?

namespace Acts

theorem still (coherent : session.Coherent)
    (lifecycle : later.watcher.lifecycle = session.watcher.lifecycle)
    (loop : later.loop = session.loop) (timer : later.timer = session.timer) :
    session.Acts none later := by
  refine ⟨?_, timer⟩
  unfold Coherent
  rw [lifecycle, loop]
  exact coherent

theorem rouse (acts : session.Acts act? later) : session.Acts act? later.rouse := by
  unfold Session.rouse
  split
  · split
    · exact ⟨acts.coherent, acts.timer⟩
    · exact acts
  · exact acts

theorem reply (acts : session.Acts act? later) (id : Nat) (answer : Reply) :
    session.Acts act? (later.reply id answer) :=
  ⟨acts.coherent, acts.timer⟩

end Acts

theorem acts_call (coherent : session.Coherent) (id : Nat)
    {command : Command τ} (unread : ¬command.Reads) :
    session.Acts (session.actOfCall? command) (session.perform id command) := by
  cases command with
  | replaceFiles fileSystem => exact .still coherent rfl rfl rfl
  | get outlet => exact absurd trivial unread
  | drain outlet => exact absurd trivial unread
  | cancel => exact ⟨coherent, rfl⟩
  | advance duration =>
      have moved : session.Acts (some (.elapse duration))
          { session with clock := session.clock + duration } :=
        ⟨coherent, rfl⟩
      exact moved.rouse.reply id .done
  | tick =>
      unfold perform
      dsimp only
      split <;> exact .still coherent rfl rfl rfl
  | prepare =>
      unfold perform
      dsimp only
      split <;> rename_i prepared
      · obtain ⟨uninitialized, times, rfl⟩ := Watcher.lifecycle_of_prepare prepared
        have idle := idle_of_suits coherent (.inl uninitialized)
        exact ⟨by rw [reply, idle]; exact .ready, rfl⟩
      · exact .still coherent rfl rfl rfl
  | start cancellable =>
      cases started : session.watcher.start session.fileSystem with
      | ok watcher =>
          obtain ⟨fresh, times, rfl⟩ := Watcher.lifecycle_of_start started
          have idle : session.timer.phase = .idle := by
            simp only [timer, idle_of_suits coherent fresh, Loop.phase]
          simp only [perform, actOfCall?, started]
          refine ⟨.deciding session.clock, ?_⟩
          rw [Timer.undergo, Timer.act, idle]
          rfl
      | error error =>
          simp only [perform, actOfCall?, started]
          exact .still coherent rfl rfl rfl
  | close limited =>
      unfold perform close actOfCall?
      dsimp only
      split
      · exact .still coherent rfl rfl rfl
      · have stops : session.Acts (some .stop)
            { session with watcher := { session.watcher with stopRequested := true } } :=
          ⟨coherent, rfl⟩
        split
        · rename_i idle
          refine ⟨?_, rfl⟩
          change Suits .closed session.loop
          rw [idle]
          exact .unstarted
        · split
          · exact stops.rouse.reply id .done
          · have queued : session.Acts (some .stop)
                { session with
                  watcher := { session.watcher with stopRequested := true }
                  closers := session.closers ++ [id] } :=
              ⟨stops.coherent, stops.timer⟩
            exact queued.rouse

theorem acts_take (coherent : session.Coherent) (outlet : Outlet) :
    session.Acts none (session.take outlet).1 := by
  have takes := session.takes outlet
  generalize (session.take outlet).1 = later at takes
  cases takes <;> exact .still coherent rfl rfl rfl

theorem acts_resumeCaller (coherent : session.Coherent) (id : Nat) :
    session.Acts none (session.resumeCaller id) := by
  unfold resumeCaller
  split
  · exact .still coherent rfl rfl rfl
  · split <;> rename_i ran
    · exact .still coherent (Watcher.frame_of_run ran).lifecycle rfl
        (timer_withWatcher (Watcher.frame_of_run ran))
    · exact .still coherent (Watcher.frame_of_run ran).lifecycle rfl
        (timer_withWatcher (Watcher.frame_of_run ran))

theorem acts_resumePass (coherent : session.Coherent) {started : τ}
    {pass : Pass} (passing : session.loop = .passing started pass) :
    session.Acts (session.actOfResume? .loop) session.resumeLoop := by
  have phase : session.timer.phase = .passing started := by
    simp only [timer, passing, Loop.phase]
  have running : session.watcher.lifecycle = .running :=
    running_of_suits coherent (by simp [passing]) (by simp [passing])
  cases ran : session.watcher.run .loop session.fileSystem pass with
  | mk watcher outcome =>
      have frame := Watcher.frame_of_run ran
      have stillRunning : watcher.lifecycle = .running := frame.lifecycle.trans running
      simp only [resumeLoop, actOfResume?, passing, ran]
      cases outcome with
      | suspended rest =>
          refine ⟨?_, ?_⟩
          · change Suits watcher.lifecycle (.passing started rest)
            rw [stillRunning]
            exact .passing started rest
          · simp only [timer, frame.interval, frame.stopRequested, passing, Timer.undergo,
              Loop.phase]
      | ended result =>
          cases result with
          | ok events =>
              refine ⟨?_, ?_⟩
              · change Suits watcher.lifecycle (.deciding started)
                rw [stillRunning]
                exact .deciding started
              · rw [Timer.undergo, Timer.act, phase]
                simp only [timer, goOn, frame.interval, frame.stopRequested, Phase.finished,
                  Loop.phase]
          | error error =>
              refine ⟨.ended, ?_⟩
              rw [Timer.undergo, Timer.act, phase]
              simp only [timer, endLoop, shutdown, Watcher.shutdown, wake, frame.interval,
                frame.stopRequested, Phase.failed, Loop.phase]

theorem timer_resumeLoop (between : session.timer.phase.isPassing = false) :
    session.resumeLoop.timer = session.timer.act .resume := by
  unfold Timer.act Timer.nextPhase
  cases loop : session.loop with
  | idle => simp only [resumeLoop, loop, timer, Loop.phase]
  | ended => simp only [resumeLoop, loop, timer, Loop.phase]
  | sleeping started wake =>
      have phase : session.timer.phase = .sleeping started wake := by
        simp only [timer, loop, Loop.phase]
      rw [resumeLoop, loop, phase]
      rfl
  | passing started pass => simp [timer, loop, Loop.phase, Phase.isPassing] at between
  | deciding started =>
      have phase : session.timer.phase = .deciding started := by
        simp only [timer, loop, Loop.phase]
      rw [resumeLoop, loop, phase]
      dsimp only
      rw [decision_timer]
      cases session.decision started <;> rfl

theorem coherent_resumeLoop (coherent : session.Coherent)
    (between : session.timer.phase.isPassing = false) :
    session.resumeLoop.Coherent := by
  unfold resumeLoop
  cases loop : session.loop with
  | idle => exact coherent
  | ended => exact coherent
  | passing started pass => simp [timer, loop, Loop.phase, Phase.isPassing] at between
  | sleeping started wake =>
      have running := running_of_suits coherent (by simp [loop]) (by simp [loop])
      change Suits session.watcher.lifecycle (.deciding started)
      rw [running]
      exact .deciding started
  | deciding started =>
      have running := running_of_suits coherent (by simp [loop]) (by simp [loop])
      dsimp only
      split
      · exact .ended
      · change Suits session.watcher.lifecycle (.passing session.clock .begin)
        rw [running]
        exact .passing session.clock .begin
      · change Suits session.watcher.lifecycle (.sleeping started _)
        rw [running]
        exact .sleeping started _

theorem acts_resume (coherent : session.Coherent) (owner : Owner) :
    session.Acts (session.actOfResume? owner) (session.resume owner) := by
  cases owner with
  | caller id => exact acts_resumeCaller coherent id
  | loop =>
      cases loop : session.loop with
      | passing started pass => exact acts_resumePass coherent loop
      | idle | deciding | sleeping | ended =>
          have between : session.timer.phase.isPassing = false := by
            simp only [timer, loop, Loop.phase, Phase.isPassing]
          simp only [actOfResume?, loop]
          exact ⟨coherent_resumeLoop coherent between, timer_resumeLoop between⟩

end Session

end TreeWatch
