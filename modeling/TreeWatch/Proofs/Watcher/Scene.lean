import TreeWatch.Proofs.Watcher.Mirror

/-!
A watcher and the one pass that may be in flight.

What can happen to both is one of a few changes: the watcher is prepared, started, asked to stop
or shut down, a reader takes an item, a pass begins, or a step of the pass is taken. Each of them
keeps the channels open exactly as long as the watcher's life goes on.
-/

namespace TreeWatch

namespace Watcher

structure Fresh (watcher : Watcher) : Prop where
  uninitialized : watcher.lifecycle = .uninitialized
  blank : watcher.tracked = .empty
  eventsOpen : watcher.events.closed = false
  errorsOpen : watcher.errors.closed = false
  unpublished : watcher.events.items = []
  uncounted : watcher.stats.emitted = 0

variable {watcher : Watcher} {fileSystem : FileSystem}

theorem fresh_of_create {source : PatternSource} {interval : Number} {bufferSize : Int}
    (created : create source interval bufferSize = .ok watcher) : watcher.Fresh := by
  obtain ⟨_, _, _, same⟩ := eq_of_create created
  rw [same]
  exact ⟨rfl, rfl, rfl, rfl, rfl, rfl⟩

theorem lifecycle_of_prepare {τ : Type} {watcher ready : Watcher τ}
    (prepared : watcher.prepare fileSystem = .ok ready) :
    watcher.lifecycle = .uninitialized ∧
      ∃ times, ready = { watcher with tracked := times, lifecycle := .ready } := by
  obtain ⟨uninitialized, times, _, same⟩ := eq_of_prepare prepared
  exact ⟨uninitialized, times, same⟩

theorem lifecycle_of_start {τ : Type} {watcher running : Watcher τ}
    (started : watcher.start fileSystem = .ok running) :
    (watcher.lifecycle = .uninitialized ∨ watcher.lifecycle = .ready) ∧
      ∃ times, running = { watcher with tracked := times, lifecycle := .running } := by
  by_cases uninitialized : watcher.lifecycle = .uninitialized
  · simp only [start, if_pos uninitialized] at started
    cases prepared : watcher.prepare fileSystem with
    | error error =>
        rw [prepared] at started
        cases started
    | ok ready =>
        rw [prepared] at started
        obtain ⟨_, times, rfl⟩ := lifecycle_of_prepare prepared
        cases started
        exact ⟨.inl uninitialized, times, rfl⟩
  · have ready : watcher.lifecycle = .ready := by
      simp only [start, if_neg uninitialized, bind, Except.bind] at started
      split at started
      · assumption
      · cases started
    exact ⟨.inr ready, watcher.tracked, eq_of_start uninitialized started⟩

end Watcher

def Pass.Progress.rest (pass : Pass) : Progress → Option Pass
  | onward next => some next
  | waits => some pass
  | ended _ => none

/-- A watcher and the pass that is in flight, with its owner. -/
structure Scene where
  watcher : Watcher
  current : Option (Owner × Pass)

namespace Scene

/-- The events of the comparison that a pass is about to make. -/
def comparison (tracked : Times) : Pass → List (List Event)
  | .look [] seen => [(Changes.between tracked seen).events]
  | _ => []

/-- What can happen to a scene, with the events that readers are handed and those that are found
by comparison. -/
inductive Change : Scene → List Event → List (List Event) → Scene → Prop
  | rest {scene} : Change scene [] [] scene
  | prepare {watcher ready : Watcher} {fileSystem : FileSystem} :
      watcher.prepare fileSystem = .ok ready → Change ⟨watcher, none⟩ [] [] ⟨ready, none⟩
  | start {watcher running : Watcher} {fileSystem : FileSystem} :
      watcher.start fileSystem = .ok running → Change ⟨watcher, none⟩ [] [] ⟨running, none⟩
  | requestStop {watcher current} :
      Change ⟨watcher, current⟩ [] [] ⟨{ watcher with stopRequested := true }, current⟩
  | shutdown {watcher : Watcher} (stopRequested : Bool) :
      Change ⟨watcher, none⟩ [] [] ⟨{ watcher with stopRequested }.shutdown.1, none⟩
  | takeEvent {watcher : Watcher} {current event channel woken} :
      watcher.events.take = .taken event channel woken →
      Change ⟨watcher, current⟩ [event] [] ⟨{ watcher with events := channel }, current⟩
  | takeFailure {watcher : Watcher} {current failure channel woken} :
      watcher.errors.take = .taken failure channel woken →
      Change ⟨watcher, current⟩ [] [] ⟨{ watcher with errors := channel }, current⟩
  | begin {watcher : Watcher} (owner : Owner) :
      watcher.lifecycle = .ready ∨ watcher.lifecycle = .running →
      Change ⟨watcher, none⟩ [] [] ⟨watcher, some (owner, .begin)⟩
  | step {watcher after : Watcher} {owner fileSystem pass progress} :
      watcher.step owner fileSystem pass = (after, progress) →
      Change ⟨watcher, some (owner, pass)⟩ [] (comparison watcher.tracked pass)
        ⟨after, (progress.rest pass).map fun rest => (owner, rest)⟩
  /-- A pass that fails ends the loop. -/
  | broken {watcher after : Watcher} {fileSystem pass error} :
      watcher.step .loop fileSystem pass = (after, .ended (.error error)) →
      Change ⟨watcher, some (.loop, pass)⟩ [] (comparison watcher.tracked pass)
        ⟨after.shutdown.1, none⟩

/-- What holds of a watcher as long as its life goes on in order. -/
structure Tidy (scene : Scene) : Prop where
  awake : scene.current ≠ none →
    scene.watcher.lifecycle = .ready ∨ scene.watcher.lifecycle = .running
  eventsClosed : scene.watcher.events.closed = true ↔ scene.watcher.lifecycle = .closed
  errorsClosed : scene.watcher.errors.closed = true ↔ scene.watcher.lifecycle = .closed
  blank : scene.watcher.lifecycle = .uninitialized ∨ scene.watcher.lifecycle = .closed →
    scene.watcher.tracked = .empty

section

variable {before after : Scene} {handed : List Event} {compared : List (List Event)}

theorem Tidy.isOpen (tidy : Tidy before) (present : before.current ≠ none) :
    before.watcher.events.closed = false ∧ before.watcher.errors.closed = false := by
  have unclosed : before.watcher.lifecycle ≠ .closed := by
    rcases tidy.awake present with ready | running
    · simp [ready]
    · simp [running]
  exact ⟨Bool.eq_false_iff.mpr (unclosed ∘ tidy.eventsClosed.mp),
    Bool.eq_false_iff.mpr (unclosed ∘ tidy.errorsClosed.mp)⟩

theorem tidy_shutdown (watcher : Watcher) : Tidy ⟨watcher.shutdown.1, none⟩ where
  awake present := absurd rfl present
  eventsClosed := by simp [Watcher.shutdown, Channel.close]
  errorsClosed := by simp [Watcher.shutdown, Channel.close]
  blank _ := rfl

theorem Tidy.of_frame {watcher later : Watcher} {current rest : Option (Owner × Pass)}
    (tidy : Tidy ⟨watcher, current⟩) (frame : Watcher.Frame watcher later)
    (working : watcher.lifecycle = .ready ∨ watcher.lifecycle = .running) :
    Tidy ⟨later, rest⟩ where
  awake _ := frame.lifecycle ▸ working
  eventsClosed := by
    rw [frame.eventsClosed, frame.lifecycle]
    exact tidy.eventsClosed
  errorsClosed := by
    rw [frame.errorsClosed, frame.lifecycle]
    exact tidy.errorsClosed
  blank idle := by
    rw [frame.lifecycle] at idle
    rcases working with ready | running <;> simp_all

theorem Tidy.of_life {watcher : Watcher} {current : Option (Owner × Pass)} {tracked : Times}
    {lifecycle : Lifecycle} (tidy : Tidy ⟨watcher, current⟩)
    (unclosed : watcher.lifecycle ≠ .closed)
    (working : lifecycle = .ready ∨ lifecycle = .running) :
    Tidy ⟨{ watcher with tracked, lifecycle }, none⟩ := by
  have later : lifecycle ≠ .closed := by rintro rfl; simp at working
  have unblank : lifecycle ≠ .uninitialized := by rintro rfl; simp at working
  exact {
    awake := fun present => absurd rfl present
    eventsClosed := by simp only [later, tidy.eventsClosed, unclosed]
    errorsClosed := by simp only [later, tidy.errorsClosed, unclosed]
    blank := by simp only [later, unblank, or_self, false_implies] }

theorem tidy_of_change (tidy : before.Tidy) (change : before.Change handed compared after) :
    after.Tidy := by
  cases change with
  | rest => exact tidy
  | prepare prepared =>
      obtain ⟨uninitialized, times, rfl⟩ := Watcher.lifecycle_of_prepare prepared
      exact tidy.of_life (by simp [uninitialized]) (.inl rfl)
  | start started =>
      obtain ⟨fresh, times, rfl⟩ := Watcher.lifecycle_of_start started
      exact tidy.of_life (by rcases fresh with same | same <;> simp [same]) (.inr rfl)
  | requestStop => exact ⟨tidy.awake, tidy.eventsClosed, tidy.errorsClosed, tidy.blank⟩
  | shutdown stopRequested => exact tidy_shutdown _
  | takeEvent taken =>
      have frame := Channel.frame_of_taken taken
      exact ⟨tidy.awake, frame.closed ▸ tidy.eventsClosed, tidy.errorsClosed, tidy.blank⟩
  | takeFailure taken =>
      have frame := Channel.frame_of_taken taken
      exact ⟨tidy.awake, tidy.eventsClosed, frame.closed ▸ tidy.errorsClosed, tidy.blank⟩
  | begin owner working =>
      exact ⟨fun _ => working, tidy.eventsClosed, tidy.errorsClosed, tidy.blank⟩
  | step stepped => exact tidy.of_frame (Watcher.frame_of_step stepped) (tidy.awake nofun)
  | broken stepped => exact tidy_shutdown _

end

end Scene

end TreeWatch
