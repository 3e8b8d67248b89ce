import TreeWatch.Watcher.Basic

/-!
Passes: one look at all files, and the report of what has changed since the last one.

A pass walks the tree, asks for the time of each matching file, compares the answers with the
tracked times and publishes the events. It proceeds in small steps, because it may have to wait
for room in a channel and the files may change in between. Failures of the file system are put on
the error channel and do not end a pass, a failed walk leaves it without events, and any other
failure ends it. The tracked times are replaced before the first event is published.
-/

namespace TreeWatch

inductive Pass
  | begin
  /-- The times of some files are still to be read. -/
  | look (left : List String) (seen : Observation)
  /-- A failure has to be put on the error channel. -/
  | complain (failure : Failure) (next : Pass)
  /-- Some of the events are still to be put on the event channel. -/
  | publish (left events : List Event)

inductive PassError
  | failure (failure : Failure)
  | refused (refusal : Channel.Refusal)
  deriving DecidableEq

inductive Pass.Progress
  /-- The pass can go on. -/
  | onward (pass : Pass)
  /-- The pass has to wait for room. -/
  | waits
  | ended (result : Except PassError (List Event))

namespace Pass

/-- The stages that lie ahead: the look at the tree and the publication. -/
def stage : Pass → Nat
  | begin => 2
  | look _ _ => 1
  | complain _ next => next.stage
  | publish _ _ => 0

/-- The steps that are left in the present stage. -/
def stepsLeft : Pass → Nat
  | begin => 0
  | look left _ => 2 * left.length
  | complain _ next => next.stepsLeft + 1
  | publish left _ => left.length

/-- Whether a pass is nearer to its end than another one. -/
def Nearer (next pass : Pass) : Prop :=
  Prod.Lex (· < ·) (· < ·) (next.stage, next.stepsLeft) (pass.stage, pass.stepsLeft)

theorem nearer_of_stage {next pass : Pass} (less : next.stage < pass.stage) : Nearer next pass :=
  .left _ _ less

theorem nearer_of_steps {next pass : Pass} (same : next.stage = pass.stage)
    (less : next.stepsLeft < pass.stepsLeft) : Nearer next pass := by
  unfold Nearer
  rw [same]
  exact .right _ less

end Pass

namespace Watcher

open Pass (Progress)

variable {τ : Type}

def countTick (watcher : Watcher τ) : Watcher τ :=
  { watcher with stats := { watcher.stats with ticks := watcher.stats.ticks + 1 } }

def countReport (watcher : Watcher τ) : Watcher τ :=
  { watcher with stats := { watcher.stats with reported := watcher.stats.reported + 1 } }

def countEvents (watcher : Watcher τ) (count : Nat) : Watcher τ :=
  { watcher with stats := { watcher.stats with emitted := watcher.stats.emitted + count } }

def beginPass (watcher : Watcher τ) (fileSystem : FileSystem) : Watcher τ × Progress :=
  match watcher.pattern.glob fileSystem root with
  | .ok names => (watcher.countTick, .onward (.look names .empty))
  | .error failure =>
      if failure.isOfWalk then
        (watcher.countTick.countReport, .onward (.complain failure (.publish [] [])))
      else (watcher.countTick, .ended (.error (.failure failure)))

/-- Reads the time of one file, or compares all times once they are read. -/
def lookStep (watcher : Watcher τ) (fileSystem : FileSystem) (seen : Observation) :
    List String → Watcher τ × Progress
  | [] =>
      let revision := Changes.between watcher.tracked seen
      ({ watcher with tracked := revision.times },
        .onward (.publish revision.events revision.events))
  | name :: later =>
      match fileSystem.timeOf name with
      | .ok time => (watcher, .onward (.look later (seen.insert name (some time))))
      | .error failure =>
          if failure.isOfFiles then
            (watcher.countReport,
              .onward (.complain failure (.look later (seen.insert name none))))
          else (watcher, .ended (.error (.failure failure)))

/-- Puts a failure on the error channel. -/
def complainStep (watcher : Watcher τ) (owner : Owner) (failure : Failure) (next : Pass) :
    Watcher τ × Progress :=
  match watcher.errors.put failure with
  | .refused => (watcher, .ended (.error (.refused .putToClosed)))
  | .full => ({ watcher with errors := watcher.errors.awaitRoom owner }, .waits)
  | .stored errors _ => ({ watcher with errors }, .onward next)

/-- Puts an event on the event channel, or counts the events once all are put. -/
def publishStep (watcher : Watcher τ) (owner : Owner) (events : List Event) :
    List Event → Watcher τ × Progress
  | [] => (watcher.countEvents events.length, .ended (.ok events))
  | event :: later =>
      match watcher.events.put event with
      | .refused => (watcher, .ended (.error (.refused .putToClosed)))
      | .full => ({ watcher with events := watcher.events.awaitRoom owner }, .waits)
      | .stored channel _ => ({ watcher with events := channel }, .onward (.publish later events))

def step (watcher : Watcher τ) (owner : Owner) (fileSystem : FileSystem) :
    Pass → Watcher τ × Progress
  | .begin => watcher.beginPass fileSystem
  | .look left seen => watcher.lookStep fileSystem seen left
  | .complain failure next => watcher.complainStep owner failure next
  | .publish left events => watcher.publishStep owner events left

theorem nearer_of_step {watcher after : Watcher τ} {owner : Owner} {fileSystem : FileSystem}
    {pass next : Pass} (stepped : watcher.step owner fileSystem pass = (after, .onward next)) :
    Pass.Nearer next pass := by
  cases pass with
  | begin =>
      simp only [step, beginPass] at stepped
      split at stepped
      · cases stepped
        exact Pass.nearer_of_stage (by simp [Pass.stage])
      · split at stepped
        · cases stepped
          exact Pass.nearer_of_stage (by simp [Pass.stage])
        · cases stepped
  | look left seen =>
      cases left with
      | nil =>
          cases stepped
          exact Pass.nearer_of_stage (by simp [Pass.stage])
      | cons name later =>
          simp only [step, lookStep] at stepped
          split at stepped
          · cases stepped
            exact Pass.nearer_of_steps rfl (by simp [Pass.stepsLeft])
          · split at stepped
            · cases stepped
              exact Pass.nearer_of_steps rfl (by simp [Pass.stepsLeft]; omega)
            · cases stepped
  | complain failure following =>
      simp only [step, complainStep] at stepped
      split at stepped
      · cases stepped
      · cases stepped
      · cases stepped
        exact Pass.nearer_of_steps rfl (Nat.lt_succ_self _)
  | publish left events =>
      cases left with
      | nil => cases stepped
      | cons event later =>
          simp only [step, publishStep] at stepped
          split at stepped
          · cases stepped
          · cases stepped
          · cases stepped
            exact Pass.nearer_of_steps rfl (by simp [Pass.stepsLeft])

inductive Outcome
  | suspended (pass : Pass)
  | ended (result : Except PassError (List Event))

/-- Takes the steps of a pass until it ends or has to wait. -/
def run (watcher : Watcher τ) (owner : Owner) (fileSystem : FileSystem) (pass : Pass) :
    Watcher τ × Outcome :=
  match _stepped : watcher.step owner fileSystem pass with
  | (after, .onward next) => run after owner fileSystem next
  | (after, .waits) => (after, .suspended pass)
  | (after, .ended result) => (after, .ended result)
termination_by (pass.stage, pass.stepsLeft)
decreasing_by exact nearer_of_step _stepped

end Watcher

end TreeWatch
