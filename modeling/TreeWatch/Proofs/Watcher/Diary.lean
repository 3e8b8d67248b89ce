import Mathlib.Data.Rat.Cast.OfScientific
import Mathlib.Logic.Relation
import TreeWatch.Proofs.Watcher.Timetable

/-!
When the loop of a session begins and ends its passes.

Calls are made, items are taken, and whoever is queued to go on is resumed, all of it by the session
itself; a diary notes the times at which the loop begins and ends a pass meanwhile. A transcript is
made of such steps. By an exact clock the diary agrees with the timetable, and no pass begins once
the loop is to end.
-/

namespace TreeWatch

open Relation (ReflTransGen)
open Schedule (Log Timer Act OnTime Took)

namespace Session

variable {τ : Type}

def Loop.isPassing : Loop τ → Bool
  | .passing _ _ => true
  | _ => false

/-- Whether the loop is to end: because of a close, or a set cancel flag that it looks at. -/
def IsToEnd (session : Session τ) : Prop :=
  session.watcher.stopRequested = true ∨ session.cancellable = true ∧ session.cancelled = true

/-- Whether a command keeps to an exact clock: time goes by while the loop sleeps, but not beyond
the end of the sleep, and while it makes a pass or is not at work. -/
def KeepsTime [Add τ] [Zero τ] [LE τ] (session : Session τ) : Command τ → Prop
  | .advance duration =>
      0 ≤ duration ∧
        match session.loop with
        | .deciding _ => duration = 0
        | .sleeping _ wake => session.clock + duration ≤ wake
        | _ => True
  | _ => True

/-- What can happen to a session if commands are given at certain times only: a call other than a
reading, the resumption of somebody who can go on, the reading of an item, and that answers are
looked at. -/
inductive Happens [Add τ] [Sub τ] [Zero τ] [LE τ] [DecidableLE τ] [LT τ] [DecidableLT τ]
    [OfScientific τ] (timely : Session τ → Command τ → Prop) (session : Session τ) :
    Session τ → Prop
  | call (id : Nat) {command : Command τ} (unread : ¬command.Reads)
      (now : timely session command) : Happens timely session (session.perform id command)
  | resume {owner : Owner} (next : owner ∈ session.ready) :
      Happens timely session ({ session with ready := session.ready.erase owner }.resume owner)
  | take (outlet : Outlet) : Happens timely session (session.take outlet).1
  | answer (replies : List (Nat × Reply)) : Happens timely session { session with replies }

@[simp]
theorem loop_goOn (session : Session τ) (owner : Owner) :
    (session.goOn owner).loop = session.loop := rfl

theorem isPassing_timer [OfScientific τ] (session : Session τ) :
    session.timer.phase.isPassing = session.loop.isPassing := by
  cases loop : session.loop <;> simp only [timer, loop] <;> rfl

/-- Whether a command asks a loop to end that looks at the cancel flag, or does not. -/
def Command.Asks (cancellable : Bool) : Command τ → Prop
  | .close _ => True
  | .cancel => cancellable = true
  | _ => False

section Asks

variable [LE τ] [DecidableLE τ] {session : Session τ} {command : Command τ} {cancellable : Bool}

theorem loop_rouse (session : Session τ) : session.rouse.loop = session.loop := by
  unfold rouse
  split
  · split <;> rfl
  · rfl

theorem isToEnd_rouse (ends : session.IsToEnd) : session.rouse.IsToEnd := by
  unfold rouse
  split
  · split <;> exact ends
  · exact ends

variable [Add τ] [Sub τ] [Zero τ] [LT τ] [DecidableLT τ] [OfScientific τ]

theorem loop_of_asks (asks : command.Asks cancellable) (id : Nat) :
    (session.perform id command).loop = session.loop := by
  cases command with
  | cancel => rfl
  | close limited =>
      unfold perform close
      dsimp only
      split
      · rfl
      · split
        · rfl
        · split <;> exact loop_rouse _
  | replaceFiles | prepare | start | tick | advance | get | drain => exact asks.elim

theorem isToEnd_of_asks (asks : command.Asks session.cancellable) (id : Nat)
    (going : session.watcher.lifecycle ≠ .closed) : (session.perform id command).IsToEnd := by
  cases command with
  | cancel => exact .inr ⟨asks, rfl⟩
  | close limited =>
      simp only [perform, close, if_neg going]
      split
      · exact .inl rfl
      · split <;> exact isToEnd_rouse (.inl rfl)
  | replaceFiles | prepare | start | tick | advance | get | drain => exact asks.elim

end Asks

end Session

/-- A session, and the times at which its loop has begun and ended passes. -/
structure Diary (τ : Type := Seconds) where
  session : Session τ
  begun : List τ
  ended : List τ

namespace Diary

open Session (Command Happens KeepsTime)

variable {τ : Type}

/-- Goes on to a later moment, and notes the time if the loop has begun or ended a pass. -/
def note (diary : Diary τ) (later : Session τ) : Diary τ where
  session := later
  begun := diary.begun ++
    if !diary.session.loop.isPassing && later.loop.isPassing then [later.clock] else []
  ended := diary.ended ++
    if diary.session.loop.isPassing && !later.loop.isPassing then [later.clock] else []

variable [OfScientific τ]

def log (diary : Diary τ) : Log τ := ⟨diary.session.timer, diary.begun, diary.ended⟩

theorem log_note (diary : Diary τ) (later : Session τ) :
    (diary.note later).log = diary.log.note later.timer := by
  simp only [log, note, Log.note, Session.isPassing_timer]
  rfl

variable [Add τ] [Sub τ] [Zero τ] [LE τ] [DecidableLE τ] [LT τ] [DecidableLT τ]

inductive Step (timely : Session τ → Command τ → Prop) : Diary τ → Diary τ → Prop
  | happens {diary : Diary τ} {later : Session τ} (happens : Happens timely diary.session later) :
      Step timely diary (diary.note later)

def Leads (timely : Session τ → Command τ → Prop) : Diary τ → Diary τ → Prop :=
  ReflTransGen (Step timely)

end Diary

namespace Session

variable {τ : Type} [Add τ] [Sub τ] [Zero τ] [LE τ] [DecidableLE τ] [LT τ] [DecidableLT τ]
  [OfScientific τ] {session later : Session τ} {timely : Session τ → Command τ → Prop}

/-- Whatever happens is one act of the timer at most, and no other time goes by than a command
says. -/
theorem exists_acts_of_happens (coherent : session.Coherent)
    (happens : Happens timely session later) :
    ∃ act?, session.Acts act? later ∧
      ∀ duration, act? = some (.elapse duration) → timely session (.advance duration) := by
  cases happens with
  | @call id command unread now =>
      refine ⟨_, acts_call coherent id unread, fun duration elapses => ?_⟩
      cases command with
      | advance some =>
          cases elapses
          exact now
      | start cancellable =>
          simp only [actOfCall?] at elapses
          split at elapses <;> cases elapses
      | close limited =>
          simp only [actOfCall?] at elapses
          split at elapses <;> cases elapses
      | cancel | replaceFiles | prepare | tick | get | drain => cases elapses
  | @resume owner next =>
      let popped : Session τ := { session with ready := session.ready.erase owner }
      have stillCoherent : popped.Coherent := coherent
      have acts := acts_resume stillCoherent owner
      refine ⟨_, ⟨acts.coherent, acts.timer⟩, fun duration elapses => ?_⟩
      cases owner with
      | caller id => cases elapses
      | loop =>
          simp only [actOfResume?] at elapses
          split at elapses
          · split at elapses <;> cases elapses
          · cases elapses
  | take outlet => exact ⟨_, acts_take coherent outlet, fun _ elapses => by cases elapses⟩
  | answer replies => exact ⟨_, .still coherent rfl rfl rfl, fun _ elapses => by cases elapses⟩

theorem happens_goOn (session : Session τ) :
    Happens timely (session.goOn .loop) session.resumeLoop := by
  have happens : Happens timely (session.goOn .loop)
      ({ session.goOn .loop with ready := (session.goOn .loop).ready.erase .loop }.resume .loop) :=
    .resume List.mem_cons_self
  rwa [goOn, List.erase_cons_head] at happens

end Session

namespace Diary

open Session (Command KeepsTime)

section Steps

variable {τ : Type} [Add τ] [Sub τ] [Zero τ] [LE τ] [DecidableLE τ] [LT τ] [DecidableLT τ]
  [OfScientific τ] {diary later : Diary τ} {timely : Session τ → Command τ → Prop}

theorem step_still {session later : Session τ} {begun ended : List τ}
    (happens : Session.Happens timely session later)
    (same : later.loop.isPassing = session.loop.isPassing) :
    Step timely ⟨session, begun, ended⟩ ⟨later, begun, ended⟩ := by
  have step : Step timely ⟨session, begun, ended⟩ (note ⟨session, begun, ended⟩ later) := ⟨happens⟩
  cases passing : session.loop.isPassing <;> simpa [note, same, passing] using step

theorem step_begins {session later : Session τ} {begun ended : List τ}
    (happens : Session.Happens timely session later) (before : session.loop.isPassing = false)
    (after : later.loop.isPassing = true) :
    Step timely ⟨session, begun, ended⟩ ⟨later, begun ++ [later.clock], ended⟩ := by
  have step : Step timely ⟨session, begun, ended⟩ (note ⟨session, begun, ended⟩ later) := ⟨happens⟩
  simpa [note, before, after] using step

theorem step_ends {session later : Session τ} {begun ended : List τ}
    (happens : Session.Happens timely session later) (before : session.loop.isPassing = true)
    (after : later.loop.isPassing = false) :
    Step timely ⟨session, begun, ended⟩ ⟨later, begun, ended ++ [later.clock]⟩ := by
  have step : Step timely ⟨session, begun, ended⟩ (note ⟨session, begun, ended⟩ later) := ⟨happens⟩
  simpa [note, before, after] using step

theorem coherent_of_leads (coherent : diary.session.Coherent)
    (leads : Leads timely diary later) : later.session.Coherent := by
  induction leads with
  | refl => exact coherent
  | tail _ step inductionHypothesis =>
      obtain ⟨happens⟩ := step
      obtain ⟨_, acts, _⟩ := Session.exists_acts_of_happens inductionHypothesis happens
      exact acts.coherent

theorem exists_log_of_step (coherent : diary.session.Coherent) (step : Step timely diary later) :
    ∃ act?, later.log = diary.log.note (diary.log.timer.undergo act?) ∧
      ∀ duration, act? = some (.elapse duration) → timely diary.session (.advance duration) := by
  obtain ⟨happens⟩ := step
  obtain ⟨act?, acts, now⟩ := Session.exists_acts_of_happens coherent happens
  refine ⟨act?, ?_, now⟩
  rw [log_note, acts.timer]
  rfl

/-- What no act changes holds ever after, and no pass begins if no act begins one then. -/
theorem kept_of_leads {kept : Timer τ → Prop} (coherent : diary.session.Coherent)
    (keeps : ∀ timer, kept timer → ∀ act, kept (timer.act act))
    (now : kept diary.log.timer) (leads : Leads timely diary later) : kept later.log.timer := by
  induction leads with
  | refl => exact now
  | tail leads step inductionHypothesis =>
      obtain ⟨act?, noted, _⟩ := exists_log_of_step (coherent_of_leads coherent leads) step
      rw [noted]
      cases act? with
      | none => exact inductionHypothesis
      | some act => exact keeps _ inductionHypothesis act

theorem begun_of_kept {kept : Timer τ → Prop} (coherent : diary.session.Coherent)
    (keeps : ∀ timer, kept timer → ∀ act, kept (timer.act act))
    (begins : ∀ timer, kept timer → ∀ act, (timer.act act).phase.isPassing = true →
      timer.phase.isPassing = true)
    (now : kept diary.log.timer) (leads : Leads timely diary later) :
    later.begun = diary.begun := by
  induction leads with
  | refl => rfl
  | @tail middle last leads step inductionHypothesis =>
      have stillKept := kept_of_leads coherent keeps now leads
      obtain ⟨act?, noted, _⟩ := exists_log_of_step (coherent_of_leads coherent leads) step
      have same : last.log.begun = middle.log.begun := by
        rw [noted]
        cases act? with
        | none => exact Log.begun_note id
        | some act => exact Log.begun_note (begins _ stillKept act)
      exact Eq.trans same inductionHypothesis

/-- A loop that has been started is never idle again, and looks at the cancel flag or not as it was
told then. -/
theorem started_of_leads (coherent : diary.session.Coherent) (begun : diary.session.loop ≠ .idle)
    (leads : Leads timely diary later) :
    later.session.loop ≠ .idle ∧ later.session.cancellable = diary.session.cancellable := by
  have keeps (timer : Timer τ)
      (kept : timer.phase ≠ .idle ∧ timer.slice.isSome = diary.session.cancellable) (act : Act τ) :
      (timer.act act).phase ≠ .idle ∧ (timer.act act).slice.isSome = diary.session.cancellable :=
    ⟨Timer.act_ne_idle kept.1 act, by rw [Timer.slice_act kept.1, kept.2]⟩
  have now : diary.log.timer.phase ≠ .idle ∧
      diary.log.timer.slice.isSome = diary.session.cancellable := by
    refine ⟨fun idle => begun (Session.Loop.phase_eq_idle_iff.mp idle), ?_⟩
    cases looks : diary.session.cancellable <;> simp [log, Session.timer, looks]
  obtain ⟨notIdle, same⟩ := kept_of_leads coherent keeps now leads
  refine ⟨fun idle => notIdle (Session.Loop.phase_eq_idle_iff.mpr idle), ?_⟩
  rw [← same]
  cases looks : later.session.cancellable <;> simp [log, Session.timer, looks]

theorem begun_of_isToEnd (coherent : diary.session.Coherent)
    (begun : diary.session.loop ≠ .idle) (ends : diary.session.IsToEnd)
    (leads : Leads timely diary later) : later.begun = diary.begun := by
  apply begun_of_kept coherent (fun _ => Timer.ends_act) (fun _ => Timer.isPassing_of_ends) _ leads
  rcases ends with stopped | ⟨looks, cancelled⟩
  · exact .inl stopped
  · refine .inr ⟨fun idle => begun (Session.Loop.phase_eq_idle_iff.mp idle), ?_, cancelled⟩
    simp [log, Session.timer, looks]

theorem begun_of_ended (coherent : diary.session.Coherent) (ended : diary.session.loop = .ended)
    (leads : Leads timely diary later) : later.begun = diary.begun := by
  have keeps (timer : Timer τ) (ended : timer.phase = .ended) (act : Act τ) :
      (timer.act act).phase = .ended := Timer.act_ended ended act
  refine begun_of_kept coherent keeps (fun timer ended act passing => ?_) ?_ leads
  · rw [keeps timer ended act] at passing
    cases passing
  · simp [log, Session.timer, ended, Session.Loop.phase]

/-- A close, or a flag that is set while the loop looks at it, is followed by no beginning of a
pass. -/
theorem begun_of_asks {command : Command τ} (coherent : diary.session.Coherent)
    (begun : diary.session.loop ≠ .idle) (asks : command.Asks diary.session.cancellable) (id : Nat)
    (leads : Leads timely (diary.note (diary.session.perform id command)) later) :
    later.begun = diary.begun := by
  have unread : ¬command.Reads := by cases command <;> simp_all [Command.Asks, Command.Reads]
  have asked := Session.acts_call coherent id unread
  have sameLoop : (diary.session.perform id command).loop = diary.session.loop :=
    Session.loop_of_asks asks id
  have sameBegun : (diary.note (diary.session.perform id command)).begun = diary.begun := by
    simp [note, sameLoop]
  rw [← sameBegun]
  by_cases closed : diary.session.watcher.lifecycle = .closed
  · have ended : diary.session.loop = .ended :=
      Session.ended_of_suits (closed ▸ coherent) begun
    exact begun_of_ended asked.coherent (sameLoop.trans ended) leads
  · refine begun_of_isToEnd asked.coherent ?_ (Session.isToEnd_of_asks asks id closed) leads
    exact fun idle => begun (sameLoop.symm.trans idle)

theorem serves_leads (timely : Session τ → Command τ → Prop) :
    Session.Serves fun session later => ∀ begun ended, ∃ diary,
      Leads timely ⟨session, begun, ended⟩ diary ∧ diary.session = later where
  refl session begun ended := ⟨_, .refl, rfl⟩
  trans first second begun ended := by
    obtain ⟨⟨_, moreBegun, moreEnded⟩, leads, rfl⟩ := first begun ended
    obtain ⟨diary, goesOn, same⟩ := second moreBegun moreEnded
    exact ⟨diary, leads.trans goesOn, same⟩
  resume {session owner later} queue begun ended := by
    have next : owner ∈ session.ready := by simp [queue]
    have happens : Session.Happens timely session
        ({ session with ready := session.ready.erase owner }.resume owner) := .resume next
    rw [queue, List.erase_cons_head] at happens
    exact ⟨_, .single ⟨happens⟩, rfl⟩
  take outlet begun ended := ⟨_, .single ⟨.take outlet⟩, rfl⟩
  answer replies begun ended := ⟨_, .single ⟨.answer replies⟩, rfl⟩

theorem exists_leads_perform {session : Session τ} {command : Command τ}
    (now : timely session command) (id : Nat) (begun ended : List τ) :
    ∃ diary, Leads timely ⟨session, begun, ended⟩ diary ∧
      diary.session = (session.perform id command).settle := by
  refine (serves_leads timely).perform (fun unread begun ended => ?_) begun ended
  exact ⟨_, .single ⟨.call id unread now⟩, rfl⟩

theorem exists_leads_transcript {session : Session τ} {id : Nat} {commands : List (Command τ)}
    (inTime : session.Throughout timely id commands) (begun ended : List τ) :
    ∃ diary, Leads timely ⟨session, begun, ended⟩ diary ∧
      diary.session = (session.transcript id commands).2 := by
  have serves := serves_leads timely
  refine serves.transcript (fun _ id _ now unread begun ended => ?_) inTime begun ended
  exact ⟨_, .single ⟨.call id unread now⟩, rfl⟩

end Steps

section Exactness

variable {τ : Type} [Field τ] [LinearOrder τ] [IsStrictOrderedRing τ] {diary later : Diary τ}
  {session : Session τ} {interval start : τ} {durations : Nat → τ}

omit [IsStrictOrderedRing τ] in
theorem permits_timer (duration : τ) (keeps : session.KeepsTime (.advance duration)) :
    session.timer.Permits (.elapse duration) := by
  obtain ⟨forward, within⟩ := keeps
  refine ⟨forward, ?_⟩
  cases loop : session.loop with
  | idle | passing | ended => simp [Session.timer, Session.Loop.phase, loop]
  | deciding | sleeping => simpa [Session.timer, Session.Loop.phase, loop] using within

theorem onTime_of_step (coherent : diary.session.Coherent)
    (onTime : OnTime interval start durations diary.log) (positive : 0 < interval)
    (step : Step Session.KeepsTime diary later)
    (took : Took durations later.begun later.ended) :
    OnTime interval start durations later.log := by
  obtain ⟨act?, noted, now⟩ := exists_log_of_step coherent step
  have took : Took durations later.log.begun later.log.ended := took
  rw [noted] at took ⊢
  cases act? with
  | none => exact onTime.unchanged
  | some act =>
      refine onTime.act positive ?_ took
      cases act with
      | elapse duration => exact permits_timer duration (now duration rfl)
      | start | resume | cancel | stop | finish | fail => trivial

omit [IsStrictOrderedRing τ] in
theorem took_of_step {timely : Session τ → Session.Command τ → Prop}
    (step : Step timely diary later) (took : Took durations later.begun later.ended) :
    Took durations diary.begun diary.ended := by
  obtain ⟨happens⟩ := step
  exact took.of_append

theorem onTime_of_leads (coherent : diary.session.Coherent)
    (onTime : OnTime interval start durations diary.log) (positive : 0 < interval)
    (leads : Leads Session.KeepsTime diary later)
    (took : Took durations later.begun later.ended) :
    OnTime interval start durations later.log := by
  induction leads with
  | refl => exact onTime
  | tail leads step inductionHypothesis =>
      have onTime := inductionHypothesis (took_of_step step took)
      exact onTime_of_step (coherent_of_leads coherent leads) onTime positive step took

end Exactness

end Diary

end TreeWatch
