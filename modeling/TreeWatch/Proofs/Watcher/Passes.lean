import TreeWatch.Proofs.Channel.Operations
import TreeWatch.Proofs.Replay
import TreeWatch.Watcher.Pass

/-!
Passes one after another, among whatever else may happen.

Before each step of a pass the file system may answer differently and readers may have taken
items from the channels; where a channel is full the pass tries the same step again later. The
tracked times change in one step of a pass only, and the events that it publishes from there on
are those of that change.
-/

namespace TreeWatch

namespace PathMap

variable {α : Type*}

theorem mem_keys_insert {map : PathMap α} {path key : String} {value : α} :
    key ∈ (map.insert path value).keys ↔ key ∈ map.keys ∨ key = path := by
  rw [keys_insert]
  split
  · rename_i present
    constructor
    · exact .inl
    · rintro (member | rfl)
      · exact member
      · exact present
  · simp

end PathMap

theorem Pattern.matches_of_mem_filesAmong {pattern : Pattern} {ending : Except Failure Unit}
    {entries : List Entry} {names : List String}
    (listed : pattern.filesAmong ending entries = .ok names) :
    ∀ name ∈ names, pattern.matches name = true := by
  induction entries generalizing names with
  | nil =>
      cases ending with
      | error failure => cases listed
      | ok =>
          cases listed
          simp
  | cons entry later inductionHypothesis =>
      unfold filesAmong at listed
      split at listed
      · cases listed
      · split at listed
        · rename_i fits
          cases others : pattern.filesAmong ending later with
          | error failure =>
              rw [others] at listed
              cases listed
          | ok names =>
              rw [others] at listed
              cases listed
              intro name member
              rcases List.mem_cons.mp member with rfl | member
              · exact (Bool.and_eq_true_iff.mp fits).2
              · exact inductionHypothesis others name member
        · exact inductionHypothesis listed

theorem Pattern.matches_of_mem_glob {pattern : Pattern} {fileSystem : FileSystem} {root : String}
    {names : List String} (listed : pattern.glob fileSystem root = .ok names) :
    ∀ name ∈ names, pattern.matches name = true :=
  matches_of_mem_filesAmong listed

namespace Watcher

/-- What readers may do to a watcher's channels. -/
inductive Reads : Watcher → Watcher → Prop where
  | event {watcher event channel woken} : watcher.events.take = .taken event channel woken →
      Reads watcher { watcher with events := channel }
  | failure {watcher failure channel woken} : watcher.errors.take = .taken failure channel woken →
      Reads watcher { watcher with errors := channel }
  | awaitEvent {watcher} (reader : Owner) :
      Reads watcher { watcher with events := watcher.events.awaitItem reader }
  | awaitFailure {watcher} (reader : Owner) :
      Reads watcher { watcher with errors := watcher.errors.awaitItem reader }

/-- Whether a pass may come to its end with a result and leave a watcher behind. -/
inductive Finishes (owner : Owner) :
    Watcher → Pass → Except PassError (List Event) → Watcher → Prop where
  | read {watcher later pass result final} : Reads watcher later →
      Finishes owner later pass result final → Finishes owner watcher pass result final
  | onward {watcher after pass next result final} (fileSystem : FileSystem) :
      watcher.step owner fileSystem pass = (after, .onward next) →
      Finishes owner after next result final → Finishes owner watcher pass result final
  | waits {watcher after pass result final} (fileSystem : FileSystem) :
      watcher.step owner fileSystem pass = (after, .waits) →
      Finishes owner after pass result final → Finishes owner watcher pass result final
  | ended {watcher pass result final} (fileSystem : FileSystem) :
      watcher.step owner fileSystem pass = (final, .ended result) →
      Finishes owner watcher pass result final

def eventsOf : Except PassError (List Event) → List Event
  | .ok events => events
  | .error _ => []

/-- Whether passes, made by callers or by the loop, may yield lists of events one after another
and leave a watcher behind. -/
inductive Passes : Watcher → List (List Event) → Watcher → Prop where
  | none {watcher} : Passes watcher [] watcher
  | read {watcher batches later final} : Passes watcher batches later → Reads later final →
      Passes watcher batches final
  | started {watcher batches later final} (fileSystem : FileSystem) :
      Passes watcher batches later → later.start fileSystem = .ok final →
      Passes watcher batches final
  | pass {watcher batches later owner result final} : Passes watcher batches later →
      Finishes owner later .begin result final → Passes watcher (batches ++ [eventsOf result]) final

theorem finishes_of_run {owner : Owner} {fileSystem : FileSystem} {watcher final : Watcher}
    {pass : Pass} {result : Except PassError (List Event)}
    (ran : watcher.run owner fileSystem pass = (final, .ended result)) :
    Finishes owner watcher pass result final := by
  fun_induction run watcher owner fileSystem pass with
  | case1 watcher pass after next stepped inductionHypothesis =>
      exact .onward fileSystem stepped (inductionHypothesis ran)
  | case2 watcher pass after stepped => cases ran
  | case3 watcher pass after outcome stepped =>
      cases ran
      exact .ended fileSystem stepped

theorem finishes_of_suspended {owner : Owner} {fileSystem : FileSystem}
    {watcher after final : Watcher} {pass rest : Pass} {result : Except PassError (List Event)}
    (ran : watcher.run owner fileSystem pass = (after, .suspended rest))
    (finishes : Finishes owner after rest result final) :
    Finishes owner watcher pass result final := by
  fun_induction run watcher owner fileSystem pass with
  | case1 watcher pass later next stepped inductionHypothesis =>
      exact .onward fileSystem stepped (inductionHypothesis ran)
  | case2 watcher pass later stepped =>
      cases ran
      exact .waits fileSystem stepped finishes
  | case3 watcher pass later outcome stepped => cases ran

/-- What neither a step of a pass nor a reader changes. -/
structure Frame {τ : Type} (watcher after : Watcher τ) : Prop where
  pattern : after.pattern = watcher.pattern
  lifecycle : after.lifecycle = watcher.lifecycle
  eventsClosed : after.events.closed = watcher.events.closed
  errorsClosed : after.errors.closed = watcher.errors.closed
  interval : after.interval = watcher.interval
  stopRequested : after.stopRequested = watcher.stopRequested

namespace Frame

variable {τ : Type}

theorem refl (watcher : Watcher τ) : Frame watcher watcher := ⟨rfl, rfl, rfl, rfl, rfl, rfl⟩

theorem trans {watcher later final : Watcher τ} (first : Frame watcher later)
    (second : Frame later final) : Frame watcher final :=
  ⟨second.pattern.trans first.pattern, second.lifecycle.trans first.lifecycle,
    second.eventsClosed.trans first.eventsClosed, second.errorsClosed.trans first.errorsClosed,
    second.interval.trans first.interval, second.stopRequested.trans first.stopRequested⟩

end Frame

theorem frame_of_reads {watcher after : Watcher} (reads : Reads watcher after) :
    Frame watcher after ∧ after.tracked = watcher.tracked := by
  cases reads with
  | event taken => exact ⟨⟨rfl, rfl, (Channel.frame_of_taken taken).closed, rfl, rfl, rfl⟩, rfl⟩
  | failure taken => exact ⟨⟨rfl, rfl, rfl, (Channel.frame_of_taken taken).closed, rfl, rfl⟩, rfl⟩
  | awaitEvent reader => exact ⟨⟨rfl, rfl, rfl, rfl, rfl, rfl⟩, rfl⟩
  | awaitFailure reader => exact ⟨⟨rfl, rfl, rfl, rfl, rfl, rfl⟩, rfl⟩

theorem frame_of_step {τ : Type} {watcher after : Watcher τ} {owner : Owner}
    {fileSystem : FileSystem} {pass : Pass} {progress : Pass.Progress}
    (stepped : watcher.step owner fileSystem pass = (after, progress)) : Frame watcher after := by
  cases pass with
  | begin =>
      simp only [step, beginPass] at stepped
      split at stepped
      · cases stepped
        exact ⟨rfl, rfl, rfl, rfl, rfl, rfl⟩
      · split at stepped <;> cases stepped <;> exact ⟨rfl, rfl, rfl, rfl, rfl, rfl⟩
  | look left seen =>
      cases left with
      | nil =>
          cases stepped
          exact ⟨rfl, rfl, rfl, rfl, rfl, rfl⟩
      | cons name later =>
          simp only [step, lookStep] at stepped
          split at stepped
          · cases stepped
            exact .refl _
          · split at stepped <;> cases stepped <;> exact ⟨rfl, rfl, rfl, rfl, rfl, rfl⟩
  | complain failure next =>
      simp only [step, complainStep] at stepped
      split at stepped
      · cases stepped
        exact .refl _
      · cases stepped
        exact ⟨rfl, rfl, rfl, rfl, rfl, rfl⟩
      · rename_i stored
        cases stepped
        exact ⟨rfl, rfl, rfl, (Channel.frame_of_stored stored).closed, rfl, rfl⟩
  | publish left events =>
      cases left with
      | nil =>
          cases stepped
          exact ⟨rfl, rfl, rfl, rfl, rfl, rfl⟩
      | cons event later =>
          simp only [step, publishStep] at stepped
          split at stepped
          · cases stepped
            exact .refl _
          · cases stepped
            exact ⟨rfl, rfl, rfl, rfl, rfl, rfl⟩
          · rename_i stored
            cases stepped
            exact ⟨rfl, rfl, (Channel.frame_of_stored stored).closed, rfl, rfl, rfl⟩

theorem frame_of_run {τ : Type} {watcher after : Watcher τ} {owner : Owner}
    {fileSystem : FileSystem} {pass : Pass} {outcome : Outcome}
    (ran : watcher.run owner fileSystem pass = (after, outcome)) : Frame watcher after := by
  fun_induction run watcher owner fileSystem pass with
  | case1 watcher pass later next stepped inductionHypothesis =>
      exact (frame_of_step stepped).trans (inductionHypothesis ran)
  | case2 watcher pass later stepped =>
      cases ran
      exact frame_of_step stepped
  | case3 watcher pass later result stepped =>
      cases ran
      exact frame_of_step stepped

end Watcher

end TreeWatch
