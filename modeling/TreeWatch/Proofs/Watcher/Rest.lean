import Mathlib.Tactic.NormNum
import TreeWatch.Proofs.Watcher.Diary

/-!
A loop that nobody disturbs comes to rest.

When everybody has gone on who can, the loop of a session without other passes sleeps until later,
waits for room in a full channel, or has ended: it is not left at a look at the clock that it could
take, nor at the end of a sleep.
-/

namespace TreeWatch

namespace Channel

variable {ι α : Type*} {channel after : Channel ι α} {item : α} {woken : Option ι}

structure Unattended (channel : Channel ι α) : Prop where
  fits : channel.items.length ≤ channel.capacity
  writers : channel.writers = []
  readers : channel.readers = []

/-- Whether somebody, and nobody else, waits for room in a full channel. -/
structure Awaited (channel : Channel ι α) (writer : ι) : Prop where
  full : channel.items.length = channel.capacity
  writers : channel.writers = [writer]
  readers : channel.readers = []

namespace Unattended

theorem stored (unattended : channel.Unattended) (stored : channel.put item = .stored after woken) :
    after.Unattended := by
  unfold put at stored
  split at stored
  · cases stored
  · split at stored <;> cases stored
    rename_i room
    refine ⟨?_, unattended.writers, by simp [unattended.readers]⟩
    rw [List.length_append, List.length_singleton]
    exact Nat.lt_of_not_le room

theorem taken (unattended : channel.Unattended) (taken : channel.take = .taken item after woken) :
    after.Unattended ∧ woken = none := by
  unfold take at taken
  split at taken
  · split at taken <;> cases taken
  · rename_i items
    cases taken
    have fits := unattended.fits
    rw [items] at fits
    exact ⟨⟨Nat.le_of_succ_le fits, by simp [unattended.writers], unattended.readers⟩,
      by simp [unattended.writers]⟩

theorem close (unattended : channel.Unattended) :
    channel.close.1.Unattended ∧ channel.close.2 = [] :=
  ⟨⟨unattended.fits, rfl, rfl⟩, by simp [Channel.close, unattended.writers, unattended.readers]⟩

theorem awaitRoom (unattended : channel.Unattended) (full : channel.put item = .full)
    (writer : ι) : (channel.awaitRoom writer).Awaited writer := by
  have full := full_of_put full
  refine ⟨le_antisymm unattended.fits full, ?_, unattended.readers⟩
  simp [Channel.awaitRoom, unattended.writers]

end Unattended

theorem Awaited.exists_taken {writer : ι} (awaited : channel.Awaited writer) :
    ∃ first after, channel.take = .taken first after (some writer) ∧ after.Unattended ∧
      after.items.length < after.capacity := by
  have full := awaited.full
  cases items : channel.items with
  | nil =>
      rw [items] at full
      exact absurd channel.capacity_pos (Nat.not_lt.mpr full.ge)
  | cons first later =>
      rw [items] at full
      have room : later.length < channel.capacity := Nat.lt_of_succ_le full.le
      refine ⟨first, { channel with items := later, writers := [] }, ?_, ?_, room⟩
      · simp [take, items, awaited.writers]
      · exact ⟨room.le, rfl, awaited.readers⟩

end Channel

namespace Watcher

variable {τ : Type} {watcher after : Watcher τ} {fileSystem : FileSystem} {owner : Owner}
  {pass : Pass}

structure Free (watcher : Watcher τ) : Prop where
  events : watcher.events.Unattended
  errors : watcher.errors.Unattended

/-- Whether the owner of a pass, and nobody else, waits for room where it has to put something. -/
def Blocked (owner : Owner) (watcher : Watcher τ) : Pass → Prop
  | .complain _ _ => watcher.events.Unattended ∧ watcher.errors.Awaited owner
  | .publish (_ :: _) _ => watcher.events.Awaited owner ∧ watcher.errors.Unattended
  | _ => False

def StepLeaves (owner : Owner) (after : Watcher τ) (pass : Pass) : Pass.Progress → Prop
  | .waits => after.Blocked owner pass
  | .onward _ => after.Free
  | .ended _ => after.Free

theorem stepLeaves_of_step {progress : Pass.Progress} (free : watcher.Free)
    (stepped : watcher.step owner fileSystem pass = (after, progress)) :
    after.StepLeaves owner pass progress := by
  cases pass with
  | begin =>
      simp only [step, beginPass] at stepped
      split at stepped
      · cases stepped
        exact ⟨free.events, free.errors⟩
      · split at stepped <;> cases stepped <;> exact ⟨free.events, free.errors⟩
  | look left seen =>
      cases left with
      | nil =>
          cases stepped
          exact ⟨free.events, free.errors⟩
      | cons name later =>
          simp only [step, lookStep] at stepped
          split at stepped
          · cases stepped
            exact free
          · split at stepped <;> cases stepped <;> exact ⟨free.events, free.errors⟩
  | complain failure next =>
      simp only [step, complainStep] at stepped
      split at stepped
      · cases stepped
        exact free
      · rename_i full
        cases stepped
        exact ⟨free.events, free.errors.awaitRoom full owner⟩
      · rename_i stored
        cases stepped
        exact ⟨free.events, free.errors.stored stored⟩
  | publish left events =>
      cases left with
      | nil =>
          cases stepped
          exact ⟨free.events, free.errors⟩
      | cons event later =>
          simp only [step, publishStep] at stepped
          split at stepped
          · cases stepped
            exact free
          · rename_i full
            cases stepped
            exact ⟨free.events.awaitRoom full owner, free.errors⟩
          · rename_i stored
            cases stepped
            exact ⟨free.events.stored stored, free.errors⟩

/-- How a pass leaves a watcher on whose channels nobody has waited. -/
def Leaves (owner : Owner) (after : Watcher τ) : Outcome → Prop
  | .suspended rest => after.Blocked owner rest
  | .ended _ => after.Free

theorem leaves_of_run {outcome : Outcome} (free : watcher.Free)
    (ran : watcher.run owner fileSystem pass = (after, outcome)) : after.Leaves owner outcome := by
  fun_induction run watcher owner fileSystem pass with
  | case1 watcher pass later next stepped inductionHypothesis =>
      exact inductionHypothesis (stepLeaves_of_step free stepped) ran
  | case2 watcher pass later stepped =>
      cases ran
      exact stepLeaves_of_step free stepped
  | case3 watcher pass later result stepped =>
      cases ran
      exact stepLeaves_of_step free stepped

theorem free_shutdown (free : watcher.Free) :
    watcher.shutdown.1.Free ∧ watcher.shutdown.2 = [] := by
  obtain ⟨events, eventsWoken⟩ := free.events.close
  obtain ⟨errors, errorsWoken⟩ := free.errors.close
  refine ⟨⟨events, errors⟩, ?_⟩
  simp [shutdown, eventsWoken, errorsWoken]

end Watcher

namespace Session

open Schedule (Decision Decides decides)

variable {τ : Type}

/-- Where the loop may be when nobody can go on: it sleeps until later, waits for room in a full
channel or has ended. -/
inductive Rests [LT τ] (watcher : Watcher τ) (clock : τ) : Loop τ → Prop
  | sleeping {started wake : τ} (free : watcher.Free) (early : clock < wake) :
      Rests watcher clock (.sleeping started wake)
  | waiting {started : τ} {pass : Pass} (blocked : watcher.Blocked .loop pass) :
      Rests watcher clock (.passing started pass)
  | ended (free : watcher.Free) : Rests watcher clock .ended

theorem Rests.taken_event [LT τ] {watcher : Watcher τ} {clock : τ} {loop : Loop τ} {event : Event}
    {channel : Channel Owner Event} {woken : Option Owner} (rests : Rests watcher clock loop)
    (taken : watcher.events.take = .taken event channel woken) :
    woken = none ∧ Rests { watcher with events := channel } clock loop ∨
      woken = some .loop ∧ Watcher.Free { watcher with events := channel } := by
  cases rests with
  | sleeping free early =>
      obtain ⟨unattended, none⟩ := free.events.taken taken
      exact .inl ⟨none, .sleeping ⟨unattended, free.errors⟩ early⟩
  | ended free =>
      obtain ⟨unattended, none⟩ := free.events.taken taken
      exact .inl ⟨none, .ended ⟨unattended, free.errors⟩⟩
  | @waiting started pass blocked =>
      cases pass with
      | begin => exact blocked.elim
      | look left seen => exact blocked.elim
      | complain failure next =>
          obtain ⟨unattended, none⟩ := blocked.1.taken taken
          exact .inl ⟨none, .waiting ⟨unattended, blocked.2⟩⟩
      | publish left events =>
          cases left with
          | nil => exact blocked.elim
          | cons next later =>
              obtain ⟨first, after, took, unattended, _⟩ := blocked.1.exists_taken
              cases took.symm.trans taken
              exact .inr ⟨rfl, unattended, blocked.2⟩

theorem Rests.taken_failure [LT τ] {watcher : Watcher τ} {clock : τ} {loop : Loop τ}
    {failure : Failure} {channel : Channel Owner Failure} {woken : Option Owner}
    (rests : Rests watcher clock loop)
    (taken : watcher.errors.take = .taken failure channel woken) :
    woken = none ∧ Rests { watcher with errors := channel } clock loop ∨
      woken = some .loop ∧ Watcher.Free { watcher with errors := channel } := by
  cases rests with
  | sleeping free early =>
      obtain ⟨unattended, none⟩ := free.errors.taken taken
      exact .inl ⟨none, .sleeping ⟨free.events, unattended⟩ early⟩
  | ended free =>
      obtain ⟨unattended, none⟩ := free.errors.taken taken
      exact .inl ⟨none, .ended ⟨free.events, unattended⟩⟩
  | @waiting started pass blocked =>
      cases pass with
      | begin => exact blocked.elim
      | look left seen => exact blocked.elim
      | complain failure next =>
          obtain ⟨first, after, took, unattended, _⟩ := blocked.2.exists_taken
          cases took.symm.trans taken
          exact .inr ⟨rfl, blocked.1, unattended⟩
      | publish left events =>
          cases left with
          | nil => exact blocked.elim
          | cons next later =>
              obtain ⟨unattended, none⟩ := blocked.2.taken taken
              exact .inl ⟨none, .waiting ⟨blocked.1, unattended⟩⟩

theorem Rests.begun [LT τ] {watcher : Watcher τ} {clock : τ} {loop : Loop τ}
    (rests : Rests watcher clock loop) : loop ≠ .idle := by
  rintro rfl
  cases rests

variable [Field τ] [LinearOrder τ] {session later : Session τ} {steps : Nat}

theorem cancelSlice_pos [IsStrictOrderedRing τ] : (0 : τ) < cancelSlice := by
  unfold cancelSlice
  norm_num

/-- What the loop does when it is resumed, by an exact clock. -/
inductive Turn (session : Session τ) : Session τ → Prop
  | wakes {started wake : τ} (loop : session.loop = .sleeping started wake) :
      Turn session ({ session with loop := .deciding started }.goOn .loop)
  | begins {started : τ} (loop : session.loop = .deciding started)
      (due : started + session.watcher.interval ≤ session.clock) :
      Turn session ({ session with loop := .passing session.clock .begin }.goOn .loop)
  | sleeps {started duration : τ} (loop : session.loop = .deciding started) (forward : 0 < duration)
      (within : session.clock + duration ≤ started + session.watcher.interval)
      (enough : session.clock + duration = started + session.watcher.interval ∨
        duration = cancelSlice) :
      Turn session { session with loop := .sleeping started (session.clock + duration) }
  | stops {started : τ} (loop : session.loop = .deciding started) (ends : session.IsToEnd) :
      Turn session session.endLoop
  | waits {started : τ} {pass rest : Pass} {watcher : Watcher τ}
      (loop : session.loop = .passing started pass)
      (ran : session.watcher.run .loop session.fileSystem pass = (watcher, .suspended rest)) :
      Turn session { session with watcher, loop := .passing started rest }
  | finishes {started : τ} {pass : Pass} {watcher : Watcher τ} {events : List Event}
      (loop : session.loop = .passing started pass)
      (ran : session.watcher.run .loop session.fileSystem pass = (watcher, .ended (.ok events))) :
      Turn session ({ session with watcher, loop := .deciding started }.goOn .loop)
  | fails {started : τ} {pass : Pass} {watcher : Watcher τ} {error : PassError}
      (loop : session.loop = .passing started pass)
      (ran : session.watcher.run .loop session.fileSystem pass =
        (watcher, .ended (.error error))) :
      Turn session { session with watcher }.endLoop
  | ended (loop : session.loop = .ended) : Turn session session

theorem turn_resumeLoop [IsStrictOrderedRing τ] (begun : session.loop ≠ .idle) :
    session.Turn session.resumeLoop := by
  unfold resumeLoop
  cases loop : session.loop with
  | idle => exact absurd loop begun
  | ended => exact .ended loop
  | sleeping started wake => exact .wakes loop
  | passing started pass =>
      dsimp only
      split <;> rename_i ran
      · exact .waits loop ran
      · exact .finishes loop ran
      · exact .fails loop ran
  | deciding started =>
      have decided : Decides session.watcher.interval
          (if session.cancellable then some cancelSlice else none)
          (session.cancellable && session.cancelled) session.watcher.stopRequested started
          session.clock (session.decision started) :=
        decides _ _ _ _ _ _
      dsimp only
      generalize session.decision started = decision at decided
      cases decided with
      | stop ends => exact .stops loop (by simpa [IsToEnd] using ends)
      | tick due => exact .begins loop due
      | sleep early whole => exact .sleeps loop (by linarith) whole.le (.inl whole)
      | slice early sliced short =>
          split at sliced
          · cases sliced
            exact .sleeps loop cancelSlice_pos short (.inr rfl)
          · cases sliced

structure AtRest (session : Session τ) : Prop where
  positive : 0 < session.watcher.interval
  nobody : session.ready = []
  rests : Rests session.watcher session.clock session.loop

/-- Whether nobody can go on but one who has just been picked. -/
structure Picked (session : Session τ) : Prop where
  positive : 0 < session.watcher.interval
  nobody : session.ready = []
  free : session.watcher.Free
  begun : session.loop ≠ .idle

/-- How often the loop may have to be resumed at most until it comes to rest. No pass is due right
after the beginning of one. -/
def turnsLeft (session : Session τ) : Nat :=
  match session.loop with
  | .idle => 0
  | .ended => 1
  | .deciding started => if started = session.clock then 1 else 3
  | .passing started _ => if started = session.clock then 2 else 4
  | .sleeping _ _ => 4

omit [Field τ] in
theorem turnsLeft_le (session : Session τ) : session.turnsLeft ≤ 4 := by
  unfold turnsLeft
  split
  case h_3 | h_4 => split <;> omega
  all_goals omega

omit [Field τ] in
theorem turnsLeft_pos (begun : session.loop ≠ .idle) : 0 < session.turnsLeft := by
  unfold turnsLeft
  split
  case h_1 idle => exact absurd idle begun
  case h_3 | h_4 => split <;> omega
  all_goals omega

theorem Picked.atRest_endLoop (picked : session.Picked) : session.endLoop.AtRest := by
  obtain ⟨laterFree, noneWoken⟩ := Watcher.free_shutdown picked.free
  refine ⟨picked.positive, ?_, .ended laterFree⟩
  simp [endLoop, shutdown, wake, picked.nobody, noneWoken]

theorem AtRest.settleWithin (atRest : session.AtRest) (steps : Nat) :
    (session.settleWithin steps).AtRest := by
  cases steps with
  | zero => exact atRest
  | succ steps =>
      rw [Session.settleWithin, atRest.nobody]
      exact atRest

/-- Whether nobody can go on but the loop, if that can. -/
inductive Tended : Session τ → Prop
  | rests {session : Session τ} (atRest : session.AtRest) : Tended session
  | next {session : Session τ} (picked : session.Picked) : Tended (session.goOn .loop)

theorem Tended.withReplies (tended : session.Tended) (replies : List (Nat × Reply)) :
    Tended { session with replies } := by
  cases tended with
  | rests atRest => exact .rests ⟨atRest.positive, atRest.nobody, atRest.rests⟩
  | @next session picked =>
      have picked : Picked { session with replies } :=
        ⟨picked.positive, picked.nobody, picked.free, picked.begun⟩
      exact .next picked

theorem AtRest.tended_of_taken {watcher : Watcher τ} {woken : Option Owner}
    (atRest : session.AtRest) (interval : watcher.interval = session.watcher.interval)
    (taken : woken = none ∧ Rests watcher session.clock session.loop ∨
      woken = some .loop ∧ watcher.Free) :
    ({ session with watcher }.wake woken.toList).Tended := by
  have positive : 0 < watcher.interval := interval ▸ atRest.positive
  rcases taken with ⟨rfl, rests⟩ | ⟨rfl, free⟩
  · have nobody : ({ session with watcher }.wake []).ready = [] := by simp [wake, atRest.nobody]
    exact .rests ⟨positive, nobody, rests⟩
  · have picked : Picked { session with watcher } :=
      ⟨positive, atRest.nobody, free, atRest.rests.begun⟩
    have next : { session with watcher }.wake [.loop] = { session with watcher }.goOn .loop := by
      simp [wake, goOn, atRest.nobody]
    rw [Option.toList_some, next]
    exact .next picked

theorem AtRest.take (atRest : session.AtRest) (outlet : Outlet) :
    (session.take outlet).1.Tended := by
  have takes := session.takes outlet
  generalize (session.take outlet).1 = later at takes
  cases takes with
  | nothing => exact .rests atRest
  | event taken => exact atRest.tended_of_taken rfl (atRest.rests.taken_event taken)
  | failure taken => exact atRest.tended_of_taken rfl (atRest.rests.taken_failure taken)

theorem Rests.rouse {clock : τ} (rests : Rests session.watcher clock session.loop)
    (positive : 0 < session.watcher.interval) (nobody : session.ready = []) :
    session.rouse.Tended := by
  unfold Session.rouse
  generalize loop : session.loop = current at rests
  cases rests with
  | @sleeping started alarm free early =>
      dsimp only
      split
      · have next : session.wake [.loop] = session.goOn .loop := by simp [wake, goOn, nobody]
        rw [next]
        exact .next ⟨positive, nobody, free, by simp [loop]⟩
      · rename_i asleep
        have later : session.clock < alarm := by
          simpa using (Bool.or_eq_false_iff.mp (Bool.eq_false_iff.mpr asleep)).2
        exact .rests ⟨positive, nobody, by rw [loop]; exact .sleeping free later⟩
  | waiting blocked => exact .rests ⟨positive, nobody, by rw [loop]; exact .waiting blocked⟩
  | ended free => exact .rests ⟨positive, nobody, by rw [loop]; exact .ended free⟩

theorem AtRest.reply (atRest : session.AtRest) (id : Nat) (answer : Reply) :
    (session.reply id answer).Tended :=
  .rests ⟨atRest.positive, atRest.nobody, atRest.rests⟩

theorem AtRest.close (atRest : session.AtRest) (id : Nat) (limited : Bool) :
    (session.close id limited).Tended := by
  unfold Session.close
  split
  · exact atRest.reply id .done
  · let asked : Session τ :=
      { session with watcher := { session.watcher with stopRequested := true } }
    have rests : Rests asked.watcher session.clock session.loop := by
      have rests := atRest.rests
      generalize session.loop = current at rests
      cases rests with
      | sleeping free early => exact .sleeping ⟨free.events, free.errors⟩ early
      | @waiting started pass blocked =>
          apply Rests.waiting
          cases pass with
          | begin => exact blocked
          | look => exact blocked
          | complain => exact blocked
          | publish left events => cases left <;> exact blocked
      | ended free => exact .ended ⟨free.events, free.errors⟩
    have roused : asked.rouse.Tended := Rests.rouse rests atRest.positive atRest.nobody
    have queued : Tended { asked with closers := asked.closers ++ [id] }.rouse :=
      Rests.rouse rests atRest.positive atRest.nobody
    dsimp only
    split
    · rename_i idle
      exact absurd idle atRest.rests.begun
    · split
      · exact roused.withReplies _
      · exact queued

def Command.Launches : Command τ → Prop
  | .prepare => True
  | .start _ => True
  | .tick => True
  | _ => False

theorem exists_reply_of_launches (coherent : session.Coherent) (begun : session.loop ≠ .idle)
    {command : Command τ} (launches : command.Launches) (id : Nat) :
    ∃ answer, session.perform id command = session.reply id answer := by
  have launched : ¬(session.watcher.lifecycle = .uninitialized ∨
      session.watcher.lifecycle = .ready) :=
    fun fresh => begun (idle_of_suits coherent fresh)
  cases command with
  | tick =>
      have unready : session.watcher.lifecycle ≠ .ready := fun ready => launched (.inr ready)
      exact ⟨_, if_neg unready⟩
  | prepare =>
      cases prepared : session.watcher.prepare session.fileSystem with
      | ok watcher => exact absurd (.inl (Watcher.lifecycle_of_prepare prepared).1) launched
      | error error => exact ⟨_, by simp only [Session.perform, prepared]; rfl⟩
  | start cancellable =>
      cases started : session.watcher.start session.fileSystem with
      | ok watcher => exact absurd (Watcher.lifecycle_of_start started).1 launched
      | error error => exact ⟨_, by simp only [Session.perform, started]; rfl⟩
  | replaceFiles | cancel | advance | close | get | drain => exact launches.elim

theorem AtRest.call (atRest : session.AtRest) (coherent : session.Coherent) (id : Nat)
    {command : Command τ} (unread : ¬command.Reads) : (session.perform id command).Tended := by
  by_cases launches : command.Launches
  · obtain ⟨answer, same⟩ := exists_reply_of_launches coherent atRest.rests.begun launches id
    rw [same]
    exact atRest.reply id answer
  cases command with
  | get outlet => exact absurd trivial unread
  | drain outlet => exact absurd trivial unread
  | replaceFiles fileSystem => exact .rests ⟨atRest.positive, atRest.nobody, atRest.rests⟩
  | cancel => exact .rests ⟨atRest.positive, atRest.nobody, atRest.rests⟩
  | close limited => exact atRest.close id limited
  | advance duration =>
      have roused : { session with clock := session.clock + duration }.rouse.Tended :=
        Rests.rouse atRest.rests atRest.positive atRest.nobody
      exact roused.withReplies _
  | prepare | start | tick => exact absurd trivial launches

variable [IsStrictOrderedRing τ]

/-- The loop, resumed alone, comes to rest or is next again. -/
theorem Picked.of_turn (picked : session.Picked) (turn : session.Turn later) :
    later.AtRest ∨
      ∃ next : Session τ, later = next.goOn .loop ∧ next.Picked ∧
        next.turnsLeft < session.turnsLeft := by
  have positive := picked.positive
  cases turn with
  | wakes loop =>
      refine .inr ⟨_, rfl, ⟨positive, picked.nobody, picked.free, by simp⟩, ?_⟩
      simp only [turnsLeft, loop]
      split <;> omega
  | @begins started loop due =>
      refine .inr ⟨_, rfl, ⟨positive, picked.nobody, picked.free, by simp⟩, ?_⟩
      have past : started ≠ session.clock := by
        rintro rfl
        exact absurd due (not_le.mpr (lt_add_of_pos_right _ positive))
      simp only [turnsLeft, loop, if_neg past, if_true]
      omega
  | sleeps loop forward =>
      exact .inl ⟨positive, picked.nobody,
        .sleeping picked.free (lt_add_of_pos_right _ forward)⟩
  | stops => exact .inl picked.atRest_endLoop
  | waits loop ran =>
      have frame := Watcher.frame_of_run ran
      have leaves := Watcher.leaves_of_run picked.free ran
      exact .inl ⟨frame.interval ▸ positive, picked.nobody, .waiting leaves⟩
  | finishes loop ran =>
      have frame := Watcher.frame_of_run ran
      have leaves := Watcher.leaves_of_run picked.free ran
      refine .inr ⟨_, rfl, ⟨frame.interval ▸ positive, picked.nobody, leaves, by simp⟩, ?_⟩
      simp only [turnsLeft, loop]
      split <;> omega
  | fails loop ran =>
      have frame := Watcher.frame_of_run ran
      have leaves := Watcher.leaves_of_run picked.free ran
      left
      apply Picked.atRest_endLoop
      exact ⟨frame.interval ▸ positive, picked.nobody, leaves, picked.begun⟩
  | ended loop =>
      exact .inl ⟨positive, picked.nobody, by rw [loop]; exact .ended picked.free⟩

theorem Picked.settleWithin (picked : session.Picked) (enough : session.turnsLeft ≤ steps) :
    ((session.goOn .loop).settleWithin steps).AtRest := by
  induction steps generalizing session with
  | zero =>
      have some := turnsLeft_pos picked.begun
      omega
  | succ steps inductionHypothesis =>
      change (session.resumeLoop.settleWithin steps).AtRest
      have onward := picked.of_turn (turn_resumeLoop picked.begun)
      rcases onward with atRest | ⟨next, same, nextPicked, less⟩
      · exact atRest.settleWithin steps
      · rw [same]
        exact inductionHypothesis nextPicked (by omega)

theorem Tended.settle (tended : session.Tended) : session.settle.AtRest := by
  cases tended with
  | rests atRest => exact atRest.settleWithin _
  | @next session picked =>
      have few := session.turnsLeft_le
      exact picked.settleWithin (by omega)

theorem Tended.drainWithin (tended : session.Tended) (count : Nat) (outlet : Outlet)
    (taken : List Item) : (session.drainWithin count outlet taken).1.Tended := by
  induction count generalizing session taken with
  | zero => exact tended
  | succ count inductionHypothesis =>
      have reads := tended.settle.take outlet
      unfold Session.drainWithin
      split <;> rename_i answered <;> rw [answered] at reads
      · exact inductionHypothesis reads _
      · exact reads

theorem AtRest.perform (atRest : session.AtRest) (coherent : session.Coherent) (id : Nat)
    (command : Command τ) : (session.perform id command).settle.AtRest := by
  apply Tended.settle
  cases command with
  | get outlet =>
      have reads := atRest.take outlet
      unfold Session.perform
      dsimp only
      split <;> rename_i answered <;> rw [answered] at reads <;> exact reads.withReplies _
  | drain outlet =>
      have tended : session.Tended := .rests atRest
      have drained : (session.drain outlet).1.Tended := tended.drainWithin _ outlet []
      exact drained.withReplies _
  | replaceFiles | prepare | start | tick | cancel | advance | close =>
      exact atRest.call coherent id fun reads => reads

theorem AtRest.transcript (atRest : session.AtRest) (coherent : session.Coherent) (id : Nat)
    (commands : List (Command τ)) : (session.transcript id commands).2.AtRest := by
  induction commands generalizing session id with
  | nil => exact atRest
  | cons command later inductionHypothesis =>
      let performed := (session.perform id command).settle
      have rests : performed.AtRest := atRest.perform coherent id command
      obtain ⟨diary, leads, same⟩ : ∃ diary,
          Diary.Leads (fun _ _ => True) ⟨session, [], []⟩ diary ∧ diary.session = performed :=
        Diary.exists_leads_perform trivial id [] []
      have laterCoherent : performed.Coherent := same ▸ Diary.coherent_of_leads coherent leads
      have forgets : AtRest { performed with replies := [] } :=
        ⟨rests.positive, rests.nobody, rests.rests⟩
      exact inductionHypothesis forgets laterCoherent (id + 1)

end Session

end TreeWatch
