import Mathlib.Data.Rat.Floor
import TreeWatch.Proofs.Watcher.Rounds

/-!
A loop keeps to its schedule by an exact clock.

Passes begin at the times of the timetable, as many of them as one likes, and none begins once the
loop is to end. Whoever gives commands one after another finds the loop at the place where the
timetable has it.
-/

namespace TreeWatch

namespace Session

section Schedule

open Schedule (OnTime Took timetable firstTimes)

variable {τ : Type} [Field τ] [LinearOrder τ] {session : Session τ} {id : Nat} {cancellable : Bool}
  {watcher : Watcher τ} {durations : Nat → τ}

/-- Whether nobody can go on and nobody waits. -/
structure Quiet (session : Session τ) : Prop where
  nobody : session.ready = []
  free : session.watcher.Free

/-- Whether nothing stands in the way of a loop that looks at the cancel flag, or does not. -/
structure Clear (session : Session τ) (cancellable : Bool) : Prop extends session.Quiet where
  eventsOpen : session.watcher.events.closed = false
  errorsOpen : session.watcher.errors.closed = false
  sound : session.fileSystem.Sound
  unstopped : session.watcher.stopRequested = false
  uncancelled : cancellable = true → session.cancelled = false

def diaryOfStart (session : Session τ) (id : Nat) (cancellable : Bool) : Diary τ :=
  ⟨session.perform id (.start cancellable), [], []⟩

/-- What holds of a loop that has been started, by an exact clock. -/
structure KeepsSchedule (session : Session τ) (id : Nat) (cancellable : Bool) : Prop where
  /-- Passes begin at the times of the timetable, whether or not there is a flag to look at. -/
  punctual {diary : Diary τ} :
    (session.diaryOfStart id cancellable).Leads KeepsTime diary →
    ∀ durations, Took durations diary.begun diary.ended →
      diary.begun =
        firstTimes session.watcher.interval session.clock durations diary.begun.length
  /-- Whatever times the passes take, as many of them come about as one likes. -/
  lasting : session.Clear cancellable → ∀ durations, (∀ count, 0 ≤ durations count) → ∀ count,
    ∃ diary, (session.diaryOfStart id cancellable).Leads KeepsTime diary ∧
      Took durations diary.begun diary.ended ∧
      diary.begun = firstTimes session.watcher.interval session.clock durations count
  /-- The loop does not end as long as it is spared, by whatever clock. -/
  enduring {timely : Session τ → Command τ → Prop} {diary : Diary τ} : session.Clear cancellable →
    (∀ session command, timely session command → session.Spares command) →
    (session.diaryOfStart id cancellable).Leads timely diary → diary.session.loop ≠ .ended
  /-- No pass begins once the loop is to end, by whatever clock. -/
  obedient {timely : Session τ → Command τ → Prop} {diary later : Diary τ} :
    (session.diaryOfStart id cancellable).Leads timely diary → diary.session.IsToEnd →
    diary.Leads timely later → later.begun = diary.begun
  /-- It is to end from the moment on when it is asked to. -/
  heedful {timely : Session τ → Command τ → Prop} {diary later : Diary τ} {command : Command τ}
    {number : Nat} : (session.diaryOfStart id cancellable).Leads timely diary →
    command.Asks cancellable →
    (diary.note (diary.session.perform number command)).Leads timely later →
    later.begun = diary.begun
  /-- After each command of a transcript the loop has ended or waits for room, unless the time of
  the next pass has not come. -/
  prompt {commands : List (Command τ)} : session.Quiet →
    session.Throughout KeepsTime id (.start cancellable :: commands) →
    ∃ diary, (session.diaryOfStart id cancellable).Leads KeepsTime diary ∧
      diary.session = (session.transcript id (.start cancellable :: commands)).2 ∧
      (diary.session.loop = .ended ∨
        (∃ started pass, diary.session.loop = .passing started pass ∧
          diary.session.watcher.Blocked .loop pass) ∨
        ∀ durations, Took durations diary.begun diary.ended →
          diary.session.clock < timetable session.watcher.interval session.clock durations
            (diary.begun.length + 1))

theorem perform_start (started : session.watcher.start session.fileSystem = .ok watcher) :
    session.perform id (.start cancellable) =
      ({ session with watcher, cancellable, loop := .deciding session.clock }.wake [.loop]).reply id
        .done := by
  simp only [perform, started]

theorem coherent_of_start (started : session.watcher.start session.fileSystem = .ok watcher) :
    (session.diaryOfStart id cancellable).session.Coherent := by
  obtain ⟨_, times, rfl⟩ := Watcher.lifecycle_of_start started
  rw [diaryOfStart, perform_start started]
  exact .deciding session.clock

theorem begun_of_start (started : session.watcher.start session.fileSystem = .ok watcher)
    {timely : Session τ → Command τ → Prop} {diary : Diary τ}
    (leads : (session.diaryOfStart id cancellable).Leads timely diary) :
    diary.session.loop ≠ .idle ∧ diary.session.cancellable = cancellable := by
  obtain ⟨begun, same⟩ := Diary.started_of_leads (coherent_of_start started)
    (by simp [diaryOfStart, perform_start started, reply, Session.wake]) leads
  refine ⟨begun, same.trans ?_⟩
  rw [diaryOfStart, perform_start started]
  rfl

theorem atWork_of_start (started : session.watcher.start session.fileSystem = .ok watcher)
    (clear : session.Clear cancellable) :
    (session.diaryOfStart id cancellable).session.AtWork := by
  have coherent : (session.diaryOfStart id cancellable).session.Coherent :=
    coherent_of_start started
  obtain ⟨_, times, rfl⟩ := Watcher.lifecycle_of_start started
  rw [diaryOfStart, perform_start started] at coherent ⊢
  refine ⟨⟨clear.eventsOpen, clear.errorsOpen, clear.sound, ?_⟩, coherent, rfl⟩
  rintro (stopped | ⟨looks, cancelled⟩)
  · exact absurd stopped (Bool.eq_false_iff.mp clear.unstopped)
  · exact absurd cancelled (Bool.eq_false_iff.mp (clear.uncancelled looks))

theorem exists_picked_of_start (id : Nat) (cancellable : Bool)
    (started : session.watcher.start session.fileSystem = .ok watcher)
    (positive : 0 < session.watcher.interval) (quiet : session.Quiet) :
    ∃ first : Session τ, session.perform id (.start cancellable) = first.goOn .loop ∧
      first.Picked ∧ first.watcher.interval = session.watcher.interval ∧
      first.clock = session.clock ∧ first.loop = .deciding session.clock := by
  obtain ⟨_, times, rfl⟩ := Watcher.lifecycle_of_start started
  let first : Session τ :=
    { session with
      watcher := { session.watcher with tracked := times, lifecycle := .running }
      cancellable
      loop := .deciding session.clock
      replies := session.replies ++ [(id, .done)] }
  refine ⟨first, ?_, ?_, rfl, rfl, rfl⟩
  · rw [perform_start started]
    simp [Session.wake, goOn, reply, quiet.nobody, first]
  · exact ⟨positive, quiet.nobody, ⟨quiet.free.events, quiet.free.errors⟩, by simp [first]⟩

variable [IsStrictOrderedRing τ]

theorem onTime_of_start (started : session.watcher.start session.fileSystem = .ok watcher)
    (positive : 0 < session.watcher.interval) (durations : Nat → τ) :
    OnTime session.watcher.interval session.clock durations
      (session.diaryOfStart id cancellable).log := by
  obtain ⟨_, times, rfl⟩ := Watcher.lifecycle_of_start started
  rw [diaryOfStart, perform_start started]
  refine ⟨rfl, fun most looks => ?_, rfl, rfl, ?_⟩
  · cases cancellable with
    | false => cases looks
    | true =>
        cases looks
        exact cancelSlice_pos
  · apply Schedule.Keeps.deciding
    · exact (add_zero session.clock).le
    · exact le_max_of_le_left (le_add_of_nonneg_right positive.le)

variable [Archimedean τ]

/-- As long as nothing stands in its way, the loop makes one pass after another, and each may take
its time. -/
theorem exists_rounds (started : session.watcher.start session.fileSystem = .ok watcher)
    (positive : 0 < session.watcher.interval) (clear : session.Clear cancellable)
    (nonneg : ∀ count, 0 ≤ durations count) (count : Nat) :
    ∃ later : Session τ, ∃ clock last begun ended,
      later.Stands session.watcher.interval clock (.deciding last) ∧
      (session.diaryOfStart id cancellable).Leads KeepsTime ⟨later.goOn .loop, begun, ended⟩ ∧
      begun.length = count ∧ ended.length = begun.length ∧ Took durations begun ended := by
  induction count with
  | zero =>
      obtain ⟨first, same, picked, interval, clock, loop⟩ :=
        exists_picked_of_start id cancellable started positive clear.toQuiet
      have atWork : (session.perform id (.start cancellable)).AtWork :=
        atWork_of_start started clear
      rw [same] at atWork
      have able : first.Able := atWork.able.still rfl rfl fun asked => asked
      refine ⟨first, session.clock, session.clock, [], [], ?_, ?_, rfl, rfl, ?_⟩
      · exact ⟨⟨picked, able⟩, interval, clock, loop⟩
      · rw [diaryOfStart, same]
        exact .refl
      · intro count first last began
        cases began
  | succ count inductionHypothesis =>
      obtain ⟨later, clock, last, begun, ended, stands, leads, length, even, took⟩ :=
        inductionHypothesis
      have slicePositive : (0 : τ) < cancelSlice := cancelSlice_pos
      obtain ⟨slices, near⟩ := Archimedean.arch (last + session.watcher.interval - clock)
        slicePositive
      obtain ⟨passing, now, stands, begins⟩ :=
        stands.exists_begin begun ended slices (by linarith)
      obtain ⟨busy, stands, spends⟩ :=
        stands.spend (begun ++ [now]) ended (nonneg (begun.length + 1))
      obtain ⟨final, stands, finishes⟩ := stands.exists_finish (begun ++ [now]) ended trivial
      refine ⟨final, _, _, _, _, stands, ((leads.trans begins).trans spends).trans finishes, ?_, ?_,
        took.append even now⟩
      · rw [List.length_append, length]
        rfl
      · simp [even]

omit [Archimedean τ] in
theorem exists_atRest {commands : List (Command τ)}
    (started : session.watcher.start session.fileSystem = .ok watcher)
    (positive : 0 < session.watcher.interval) (quiet : session.Quiet)
    (inTime : session.Throughout KeepsTime id (.start cancellable :: commands)) :
    ∃ diary, (session.diaryOfStart id cancellable).Leads KeepsTime diary ∧
      diary.session = (session.transcript id (.start cancellable :: commands)).2 ∧
      diary.session.AtRest := by
  obtain ⟨first, same, picked, _⟩ :=
    exists_picked_of_start id cancellable started positive quiet
  have tended : (session.perform id (.start cancellable)).Tended := by
    rw [same]
    exact .next picked
  let settled : Session τ :=
    { (session.perform id (.start cancellable)).settle with replies := [] }
  have settles := tended.settle
  have atRest : settled.AtRest := ⟨settles.positive, settles.nobody, settles.rests⟩
  have serves := Diary.serves_leads (@KeepsTime τ _ _ _)
  obtain ⟨middle, leads, sameMiddle⟩ :
      ∃ middle, (session.diaryOfStart id cancellable).Leads KeepsTime middle ∧
        middle.session = settled :=
    serves.trans serves.settle (serves.answer []) [] []
  have coherent := Diary.coherent_of_leads (coherent_of_start started) leads
  rw [sameMiddle] at coherent
  obtain ⟨diary, goesOn, same⟩ : ∃ diary,
      Diary.Leads KeepsTime ⟨settled, middle.begun, middle.ended⟩ diary ∧
        diary.session = (settled.transcript (id + 1) commands).2 :=
    Diary.exists_leads_transcript inTime.2 middle.begun middle.ended
  refine ⟨diary, leads.trans ?_, same, ?_⟩
  · rw [← sameMiddle] at goesOn
    exact goesOn
  · rw [same]
    exact atRest.transcript coherent (id + 1) commands

/-- By an exact clock the loop of a session keeps to its schedule. -/
theorem passes_on_schedule (id : Nat) (cancellable : Bool)
    (started : session.watcher.start session.fileSystem = .ok watcher)
    (positive : 0 < session.watcher.interval) : session.KeepsSchedule id cancellable where
  punctual leads durations took :=
    (Diary.onTime_of_leads (coherent_of_start started) (onTime_of_start started positive durations)
      positive leads took).begun
  lasting clear durations nonneg count := by
    obtain ⟨later, _, _, begun, ended, _, leads, length, _, took⟩ :=
      exists_rounds started positive clear nonneg count
    refine ⟨_, leads, took, ?_⟩
    rw [← length]
    exact (Diary.onTime_of_leads (coherent_of_start started)
      (onTime_of_start started positive durations) positive leads took).begun
  enduring clear spares leads := by
    have atWork : (session.diaryOfStart id cancellable).session.AtWork :=
      atWork_of_start started clear
    exact (atWork.of_leads spares leads).unended
  obedient reached ends leads := by
    have coherent := Diary.coherent_of_leads (coherent_of_start started) reached
    obtain ⟨begun, _⟩ := begun_of_start started reached
    exact Diary.begun_of_isToEnd coherent begun ends leads
  heedful reached asks leads := by
    have coherent := Diary.coherent_of_leads (coherent_of_start started) reached
    obtain ⟨begun, looks⟩ := begun_of_start started reached
    rw [← looks] at asks
    exact Diary.begun_of_asks coherent begun asks _ leads
  prompt {commands} quiet inTime := by
    obtain ⟨diary, leads, same, atRest⟩ := exists_atRest started positive quiet inTime
    refine ⟨diary, leads, same, ?_⟩
    have rests := atRest.rests
    generalize loop : diary.session.loop = current at rests
    cases rests with
    | ended => exact .inl rfl
    | waiting blocked => exact .inr (.inl ⟨_, _, rfl, blocked⟩)
    | @sleeping last alarm _ asleep =>
        refine .inr (.inr fun durations took => ?_)
        have onTime := Diary.onTime_of_leads (coherent_of_start started)
          (onTime_of_start started positive durations) positive leads took
        have sleeping : diary.log.timer.phase = .sleeping last alarm := by
          simp [Diary.log, timer, loop, Loop.phase]
        exact asleep.trans_le (onTime.alarm_le positive sleeping)

end Schedule

def counted : Session ℚ :=
  ofWatcher { Watcher.narrow with interval := 1 } (Watcher.withFile "a" 1)

theorem clear_counted (cancellable : Bool) : counted.Clear cancellable where
  nobody := rfl
  free := ⟨⟨Nat.zero_le _, rfl, rfl⟩, ⟨Nat.zero_le _, rfl, rfl⟩⟩
  eventsOpen := rfl
  errorsOpen := rfl
  sound := {
    walk := fun failure raised => by cases raised
    timeOf := fun name failure answer => by cases answer }
  unstopped := rfl
  uncancelled _ := rfl

/-- The first pass takes two intervals and a half, the others a quarter of one. -/
def slowFirst (count : Nat) : ℚ :=
  if count = 1 then 5 / 2 else 1 / 4

theorem slowFirst_nonneg (count : Nat) : 0 ≤ slowFirst count := by
  unfold slowFirst
  split <;> norm_num

theorem firstTimes_slowFirst : Schedule.firstTimes 1 0 slowFirst 3 = [1, 7 / 2, 9 / 2] := by
  norm_num [Schedule.firstTimes, List.range_succ, Schedule.timetable, slowFirst]

/-- The second pass begins as soon as the first one has ended, with or without a flag. -/
theorem passes_on_schedule_slowFirst :
    (∃ watcher, counted.watcher.start counted.fileSystem = .ok watcher) ∧
      0 < counted.watcher.interval ∧ ∀ cancellable, ∃ diary,
        (counted.diaryOfStart 0 cancellable).Leads KeepsTime diary ∧
        Schedule.Took slowFirst diary.begun diary.ended ∧ diary.begun = [1, 7 / 2, 9 / 2] := by
  have positive : 0 < counted.watcher.interval := rfl
  let running : Watcher ℚ :=
    { counted.watcher with tracked := PathMap.empty.insert "a" 1, lifecycle := .running }
  have started : counted.watcher.start counted.fileSystem = .ok running := by cbv
  refine ⟨⟨running, started⟩, positive, fun cancellable => ?_⟩
  rw [← firstTimes_slowFirst]
  exact (passes_on_schedule 0 cancellable started positive).lasting (clear_counted cancellable)
    slowFirst slowFirst_nonneg 3

end Session

end TreeWatch
