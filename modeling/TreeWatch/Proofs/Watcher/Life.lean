import TreeWatch.Proofs.Watcher.Conduct

/-!
The life of a watcher.

A watcher is prepared, started and closed, in that order, and may be closed early. Its channels are
closed exactly when its life is over, and it tracks no file before it is prepared and after it is
closed. A call that fails leaves the life and the tracked times as they were, be it at once or, for
a tick, in the middle of the pass.
-/

namespace TreeWatch

open Relation (ReflTransGen)

inductive Lifecycle.Next : Lifecycle → Lifecycle → Prop
  | prepare : Next .uninitialized .ready
  | start : Next .ready .running
  | close {lifecycle : Lifecycle} : lifecycle ≠ .closed → Next lifecycle .closed

namespace Lifecycle

theorem eq_closed_of_leads {lifecycle : Lifecycle}
    (leads : ReflTransGen Next .closed lifecycle) : lifecycle = .closed := by
  induction leads with
  | refl => rfl
  | tail _ next inductionHypothesis =>
      cases inductionHypothesis
      cases next with
      | close unclosed => exact absurd rfl unclosed

theorem running_or_closed_of_leads {lifecycle : Lifecycle}
    (leads : ReflTransGen Next .running lifecycle) :
    lifecycle = .running ∨ lifecycle = .closed := by
  induction leads with
  | refl => exact .inl rfl
  | tail _ next inductionHypothesis =>
      cases next with
      | close => exact .inr rfl
      | prepare => simp at inductionHypothesis
      | start => simp at inductionHypothesis

theorem leads_closed (lifecycle : Lifecycle) : ReflTransGen Next lifecycle .closed := by
  by_cases closed : lifecycle = .closed
  · rw [closed]
  · exact .single (.close closed)

end Lifecycle

namespace Watcher

variable {watcher after : Watcher} {fileSystem : FileSystem}

theorem start_succeeds_iff :
    (∃ running, watcher.start fileSystem = .ok running) ↔
      watcher.lifecycle = .ready ∨
        watcher.lifecycle = .uninitialized ∧
          ∃ times, seed watcher.pattern fileSystem = .ok times := by
  cases lifecycle : watcher.lifecycle with
  | ready => simp [start, lifecycle, bind, Except.bind]
  | running => simp [start, lifecycle, bind, Except.bind]
  | closed => simp [start, lifecycle, bind, Except.bind]
  | uninitialized =>
      cases seeded : seed watcher.pattern fileSystem with
      | ok times => simp [start, prepare, lifecycle, seeded, bind, Except.bind]
      | error error => simp [start, prepare, lifecycle, seeded, bind, Except.bind]

theorem tracked_of_failed {owner : Owner} {known : Times} {pass : Pass} {error : PassError}
    (sound : pass.Sound watcher.pattern known watcher.tracked)
    (eventsOpen : watcher.events.closed = false) (errorsOpen : watcher.errors.closed = false)
    (stepped : watcher.step owner fileSystem pass = (after, .ended (.error error))) :
    after.tracked = known := by
  cases pass with
  | begin =>
      simp only [step, beginPass] at stepped
      split at stepped
      · cases stepped
      · split at stepped <;> cases stepped
        exact sound
  | look left seen =>
      obtain ⟨same, _⟩ := sound
      cases left with
      | nil => cases stepped
      | cons name later =>
          simp only [step, lookStep] at stepped
          split at stepped
          · cases stepped
          · split at stepped <;> cases stepped
            exact same
  | complain failure next =>
      simp only [step, complainStep] at stepped
      split at stepped <;> cases stepped
      rename_i refused
      cases errorsOpen.symm.trans (Channel.closed_of_refused refused)
  | publish left events =>
      cases left with
      | nil => cases stepped
      | cons event later =>
          simp only [step, publishStep] at stepped
          split at stepped <;> cases stepped
          rename_i refused
          cases eventsOpen.symm.trans (Channel.closed_of_refused refused)

end Watcher

namespace Scene

variable {before after : Scene} {handed : List Event} {compared : List (List Event)}

theorem next_of_change (change : before.Change handed compared after) :
    ReflTransGen Lifecycle.Next before.watcher.lifecycle after.watcher.lifecycle := by
  cases change with
  | rest => exact .refl
  | prepare prepared =>
      obtain ⟨uninitialized, times, rfl⟩ := Watcher.lifecycle_of_prepare prepared
      simp only [uninitialized]
      exact .single .prepare
  | start started =>
      obtain ⟨fresh, times, rfl⟩ := Watcher.lifecycle_of_start started
      rcases fresh with uninitialized | ready
      · simp only [uninitialized]
        exact .tail (.single .prepare) .start
      · simp only [ready]
        exact .single .start
  | requestStop => exact .refl
  | shutdown stopRequested => exact Lifecycle.leads_closed _
  | takeEvent taken => exact .refl
  | takeFailure taken => exact .refl
  | begin owner working => exact .refl
  | step stepped =>
      rw [(Watcher.frame_of_step stepped).lifecycle]
  | broken stepped => exact Lifecycle.leads_closed _

/-- What holds while the pass of a caller is in flight, since the watcher was asked for it. -/
structure Underway (id : Nat) (called : Watcher) (scene : Scene) : Prop where
  samePattern : scene.watcher.pattern = called.pattern
  sameLife : scene.watcher.lifecycle = called.lifecycle
  sound : ∃ pass, scene.current = some (.caller id, pass) ∧
    pass.Sound called.pattern called.tracked scene.watcher.tracked

theorem underway_of_change {id : Nat} {called : Watcher} (underway : Underway id called before)
    (change : before.Change handed compared after) (present : after.current ≠ none) :
    Underway id called after := by
  obtain ⟨samePattern, sameLife, pass, current, sound⟩ := underway
  cases change with
  | rest | requestStop | takeEvent | takeFailure =>
      exact ⟨samePattern, sameLife, pass, current, sound⟩
  | prepare | start | shutdown | begin => cases current
  | broken => exact absurd rfl present
  | @step watcher later owner fileSystem own progress stepped =>
      cases current
      have frame := Watcher.frame_of_step stepped
      have laterPattern := frame.pattern.trans samePattern
      have laterLife := frame.lifecycle.trans sameLife
      rw [← samePattern] at sound
      cases progress with
      | onward next =>
          have nextSound := Watcher.sound_of_onward sound stepped
          rw [samePattern] at nextSound
          exact ⟨laterPattern, laterLife, next, rfl, nextSound⟩
      | waits =>
          rw [samePattern, ← Watcher.tracked_of_waits stepped] at sound
          exact ⟨laterPattern, laterLife, pass, rfl, sound⟩
      | ended result => exact absurd rfl present

end Scene

namespace Session

/-- Whether a tick that a caller asked for is still in flight. -/
inductive Ticking (called : Session) (id : Nat) : Session → Prop
  | asked : called.watcher.lifecycle = .ready → called.passes = [] →
      Ticking called id (called.perform id .tick)
  | later {session : Session} {move : Move} : Ticking called id session → session.Permits move →
      (session.move move).passes ≠ [] → Ticking called id (session.move move)

/-- What holds of a watcher's life at every moment. -/
structure LivesInOrder (session : Session) : Prop where
  /-- The state only moves on. -/
  onward {later : Session} : ReflTransGen OrderlyStep session later →
    ReflTransGen Lifecycle.Next session.watcher.lifecycle later.watcher.lifecycle
  /-- No start succeeds after another one. -/
  startsOnce {later : Session} {id : Nat} {cancellable : Bool} {running : Watcher} :
    session.passes = [] → session.watcher.start session.fileSystem = .ok running →
    ReflTransGen OrderlyStep (session.perform id (.start cancellable)) later →
    ∀ fileSystem running, later.watcher.start fileSystem ≠ .ok running
  eventsClosed : session.watcher.events.closed = true ↔ session.watcher.lifecycle = .closed
  errorsClosed : session.watcher.errors.closed = true ↔ session.watcher.lifecycle = .closed
  /-- Nothing is tracked before the first look at the files and after the end. -/
  blank : session.watcher.lifecycle = .uninitialized ∨ session.watcher.lifecycle = .closed →
    session.watcher.tracked = .empty
  /-- Once over, a life stays over, all calls but closing are refused and closing does nothing. -/
  isOver : session.watcher.lifecycle = .closed →
    (∀ later, ReflTransGen OrderlyStep session later → later.watcher.lifecycle = .closed) ∧
    ∀ id, session.perform id .prepare =
        session.reply id (.notStarted (.wrongState .prepare .closed)) ∧
      (∀ cancellable, session.perform id (.start cancellable) =
        session.reply id (.notStarted (.wrongState .start .closed))) ∧
      session.perform id .tick = session.reply id (.notStarted (.wrongState .tick .closed)) ∧
      ∀ limited, session.perform id (.close limited) = session.reply id .done
  /-- A call that fails at once changes nothing but its answer. -/
  refused {id : Nat} {command : Command} {error : Watcher.StartError} :
    ¬command.Reads →
    (session.perform id command).replies = session.replies ++ [(id, .notStarted error)] →
    session.perform id command = session.reply id (.notStarted error)
  /-- A tick that fails later leaves the life and the tracked times as they were. -/
  failedTick {id : Nat} {later : Session} {error : PassError} : session.Ticking id later →
    (later.move (.resume (.caller id))).replies = later.replies ++ [(id, .passFailed error)] →
    (later.move (.resume (.caller id))).watcher.lifecycle = session.watcher.lifecycle ∧
      (later.move (.resume (.caller id))).watcher.tracked = session.watcher.tracked
  /-- A watcher that could not be started before can be as soon as its files can be looked at. -/
  startable {fileSystem : FileSystem} :
    (∃ running, session.watcher.start fileSystem = .ok running) ↔
      session.watcher.lifecycle = .ready ∨ session.watcher.lifecycle = .uninitialized ∧
        ∃ times, Watcher.seed session.watcher.pattern fileSystem = .ok times
  /-- A transcript of commands in order is one of the things that may happen. -/
  transcripts {id : Nat} {commands : List Command} : session.InOrder id commands →
    ReflTransGen OrderlyStep session (session.transcript id commands).2

variable {session later : Session} {id : Nat}

theorem life_of_leads (leads : ReflTransGen OrderlyStep session later)
    (orderly : session.Orderly) (tidy : session.scene.Tidy) :
    later.Orderly ∧ later.scene.Tidy ∧
      ReflTransGen Lifecycle.Next session.watcher.lifecycle later.watcher.lifecycle := by
  induction leads with
  | refl => exact ⟨orderly, tidy, .refl⟩
  | tail _ step inductionHypothesis =>
      obtain ⟨move, permitted⟩ := step
      obtain ⟨orderly, tidy, next⟩ := inductionHypothesis
      obtain ⟨laterOrderly, change⟩ := follows_move orderly permitted
      exact ⟨laterOrderly, Scene.tidy_of_change tidy change,
        next.trans (Scene.next_of_change change)⟩

theorem current_ne_none (present : session.passes ≠ []) : session.current ≠ none := by
  cases passes : session.passes with
  | nil => exact absurd passes present
  | cons entry others => simp [current, passes]

theorem underway_of_ticking (ticking : session.Ticking id later) (orderly : session.Orderly)
    (tidy : session.scene.Tidy) :
    later.Orderly ∧ later.scene.Tidy ∧ Scene.Underway id session.watcher later.scene := by
  induction ticking with
  | asked ready alone =>
      have permitted : session.Permits (.call id .tick) := ⟨fun reads => reads, fun _ => alone⟩
      obtain ⟨laterOrderly, change⟩ := follows_move orderly permitted
      have asked : (session.perform id .tick).scene =
          ⟨session.watcher, some (.caller id, .begin)⟩ := by
        simp only [perform, if_pos ready, scene, current, wake, alone, List.nil_append]
      refine ⟨laterOrderly, Scene.tidy_of_change tidy change, ?_⟩
      rw [asked]
      exact ⟨rfl, rfl, .begin, rfl, rfl⟩
  | @later middle move _ permitted present inductionHypothesis =>
      obtain ⟨orderly, tidy, underway⟩ := inductionHypothesis
      obtain ⟨laterOrderly, change⟩ := follows_move orderly permitted
      refine ⟨laterOrderly, Scene.tidy_of_change tidy change, ?_⟩
      exact Scene.underway_of_change underway change (current_ne_none present)

theorem step_of_passFailed {pass : Pass} {error : PassError}
    (found : later.passOf? (.caller id) = some pass)
    (answered : (later.move (.resume (.caller id))).replies =
      later.replies ++ [(id, .passFailed error)]) :
    later.watcher.step (.caller id) later.fileSystem pass =
      ((later.move (.resume (.caller id))).watcher, .ended (.error error)) := by
  have popped :
      passOf? { later with ready := later.ready.erase (.caller id) } (.caller id) = some pass :=
    found
  cases stepped : later.watcher.step (.caller id) later.fileSystem pass with
  | mk after progress =>
      simp only [move, stepOwner, popped, stepPass, stepped] at answered ⊢
      cases progress with
      | onward next => simp [goOn, keepPass, withWatcher] at answered
      | waits => simp [keepPass, withWatcher] at answered
      | ended result =>
          cases result with
          | ok events => simp [endPass, withWatcher, reply, replyOfPass] at answered
          | error failure =>
              have same : failure = error := by
                simpa [endPass, withWatcher, reply, replyOfPass] using answered
              rw [same]
              rfl

theorem failed_tick {error : PassError} (orderly : session.Orderly) (tidy : session.scene.Tidy)
    (ticking : session.Ticking id later)
    (answered : (later.move (.resume (.caller id))).replies =
      later.replies ++ [(id, .passFailed error)]) :
    (later.move (.resume (.caller id))).watcher.lifecycle = session.watcher.lifecycle ∧
      (later.move (.resume (.caller id))).watcher.tracked = session.watcher.tracked := by
  obtain ⟨orderly, tidy, underway⟩ := underway_of_ticking ticking orderly tidy
  obtain ⟨samePattern, sameLife, pass, current, sound⟩ := underway
  obtain ⟨passes, _, _⟩ := passes_of_current orderly current
  have found : later.passOf? (.caller id) = some pass := by
    rw [passOf?, passes, List.lookup_cons_self]
  have stepped := step_of_passFailed found answered
  obtain ⟨eventsOpen, errorsOpen⟩ := tidy.isOpen (by rw [current]; simp)
  rw [← samePattern] at sound
  constructor
  · exact (Watcher.frame_of_step stepped).lifecycle.trans sameLife
  · exact Watcher.tracked_of_failed sound eventsOpen errorsOpen stepped

theorem starts_once {cancellable : Bool} {running : Watcher} (orderly : session.Orderly)
    (tidy : session.scene.Tidy) (alone : session.passes = [])
    (started : session.watcher.start session.fileSystem = .ok running)
    (leads : ReflTransGen OrderlyStep (session.perform id (.start cancellable)) later)
    (fileSystem : FileSystem) (again : Watcher) : later.watcher.start fileSystem ≠ .ok again := by
  have permitted : session.Permits (.call id (.start cancellable)) :=
    ⟨fun reads => reads, fun _ => alone⟩
  obtain ⟨orderly, change⟩ := follows_move orderly permitted
  obtain ⟨_, _, next⟩ := life_of_leads leads orderly (Scene.tidy_of_change tidy change)
  have begun : (session.perform id (.start cancellable)).watcher.lifecycle = .running := by
    obtain ⟨_, times, rfl⟩ := Watcher.lifecycle_of_start started
    simp only [perform, started, reply, wake]
  rw [begun] at next
  intro succeeded
  have startable := Watcher.start_succeeds_iff.mp ⟨again, succeeded⟩
  rcases Lifecycle.running_or_closed_of_leads next with running | closed
  · simp [running] at startable
  · simp [closed] at startable

theorem refuses_of_closed (closed : session.watcher.lifecycle = .closed) (id : Nat) :
    session.perform id .prepare = session.reply id (.notStarted (.wrongState .prepare .closed)) ∧
      (∀ cancellable, session.perform id (.start cancellable) =
        session.reply id (.notStarted (.wrongState .start .closed))) ∧
      session.perform id .tick = session.reply id (.notStarted (.wrongState .tick .closed)) ∧
      ∀ limited, session.perform id (.close limited) = session.reply id .done := by
  refine ⟨?_, ?_, ?_, ?_⟩
  · simp [perform, Watcher.prepare, closed]
  · simp [perform, Watcher.start, closed, bind, Except.bind]
  · simp [perform, closed]
  · simp [perform, close, closed]

theorem replies_rouse : session.rouse.replies = session.replies := by
  unfold rouse
  split
  · split <;> rfl
  · rfl

theorem replies_close (id : Nat) (limited : Bool) :
    (session.close id limited).replies = session.replies ++ [(id, .done)] ∨
      (session.close id limited).replies = session.replies := by
  unfold close
  split
  · exact .inl rfl
  · dsimp only
    split
    · exact .inl rfl
    · cases limited with
      | true =>
          left
          simp only [if_true, reply, replies_rouse]
      | false =>
          right
          simp only [Bool.false_eq_true, if_false, replies_rouse]

theorem refused_of_notStarted {command : Command} {error : Watcher.StartError}
    (unread : ¬command.Reads)
    (answered : (session.perform id command).replies =
      session.replies ++ [(id, .notStarted error)]) :
    session.perform id command = session.reply id (.notStarted error) := by
  cases command with
  | get outlet => exact absurd trivial unread
  | drain outlet => exact absurd trivial unread
  | replaceFiles fileSystem => simp [perform, reply] at answered
  | cancel => simp [perform, reply] at answered
  | advance duration => simp [perform, reply, replies_rouse] at answered
  | close limited =>
      rcases @replies_close session id limited with done | waiting
      · simp [perform, done] at answered
      · simp [perform, waiting] at answered
  | prepare =>
      cases prepared : session.watcher.prepare session.fileSystem with
      | ok watcher => simp [perform, prepared, reply] at answered
      | error failure =>
          simp only [perform, prepared, reply] at answered ⊢
          rw [answered]
  | start cancellable =>
      cases started : session.watcher.start session.fileSystem with
      | ok watcher => simp [perform, started, reply, wake] at answered
      | error failure =>
          simp only [perform, started, reply] at answered ⊢
          rw [answered]
  | tick =>
      by_cases ready : session.watcher.lifecycle = .ready
      · simp [perform, ready, wake] at answered
      · simp only [perform, ready, reply, if_false] at answered ⊢
        rw [answered]

/-- Whatever happens to a watcher as long as all moves are in order, its life goes on in order. -/
theorem lives_in_order {source : Watcher.PatternSource} {interval : Number} {bufferSize : Int}
    {watcher : Watcher} {fileSystem : FileSystem}
    (created : Watcher.create source interval bufferSize = .ok watcher)
    (leads : ReflTransGen OrderlyStep (ofWatcher watcher fileSystem) session) :
    session.LivesInOrder := by
  have fresh : watcher.Fresh := Watcher.fresh_of_create created
  obtain ⟨orderly, tidy, _⟩ :=
    life_of_leads leads (orderly_ofWatcher fresh fileSystem) (tidy_ofWatcher fresh fileSystem)
  have onward {later : Session} (leads : ReflTransGen OrderlyStep session later) :
      ReflTransGen Lifecycle.Next session.watcher.lifecycle later.watcher.lifecycle :=
    (life_of_leads leads orderly tidy).2.2
  have stays (closed : session.watcher.lifecycle = .closed) (later : Session)
      (leads : ReflTransGen OrderlyStep session later) : later.watcher.lifecycle = .closed := by
    have next := onward leads
    rw [closed] at next
    exact Lifecycle.eq_closed_of_leads next
  exact {
    onward
    startsOnce := starts_once orderly tidy
    eventsClosed := tidy.eventsClosed
    errorsClosed := tidy.errorsClosed
    blank := tidy.blank
    isOver := fun closed => ⟨stays closed, refuses_of_closed closed⟩
    refused := refused_of_notStarted
    failedTick := failed_tick orderly tidy
    startable := Watcher.start_succeeds_iff
    transcripts := leads_transcript }

def unreadable : FileSystem where
  walk _ := ⟨[], some (.file .denied (some 13) "Permission denied")⟩
  timeOf _ := .ok 1

/-- A watcher is started in vain, and can be started once its files can be listed. -/
theorem lives_in_order_unreadable :
    ∃ watcher session, Watcher.create (.text "*") (.double 1) 1 = .ok watcher ∧
      ReflTransGen OrderlyStep (ofWatcher watcher unreadable) session ∧
      (∃ error, session.replies.head? = some (0, .notStarted (.seed error))) ∧
      session.watcher.lifecycle = .uninitialized ∧
      ∃ running, session.watcher.start session.fileSystem = .ok running := by
  let failed : Session := (ofWatcher Watcher.narrow unreadable).move (.call 0 (.start false))
  let repaired : Session := failed.move (.call 1 (.replaceFiles (files [])))
  have fails : OrderlyStep (ofWatcher Watcher.narrow unreadable) failed :=
    .move (.call 0 (.start false)) ⟨id, fun _ => rfl⟩
  have repairs : OrderlyStep failed repaired :=
    .move (.call 1 (.replaceFiles (files []))) ⟨id, fun _ => rfl⟩
  have leads : ReflTransGen OrderlyStep (ofWatcher Watcher.narrow unreadable) repaired :=
    .tail (.single fails) repairs
  have lives : repaired.LivesInOrder := lives_in_order created_narrow leads
  refine ⟨Watcher.narrow, repaired, created_narrow, leads, ⟨_, rfl⟩, rfl, ?_⟩
  apply lives.startable.mpr
  exact .inr ⟨rfl, _, rfl⟩

end Session

end TreeWatch
