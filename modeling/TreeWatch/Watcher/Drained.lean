import TreeWatch.Watcher.Pass

/-!
Passes of a watcher whose channels are read as soon as anything is put on them. Such a pass never
waits, and its reports come in the order in which they are made.
-/

namespace TreeWatch

structure Reports where
  events : List Event
  errors : List Failure
  deriving DecidableEq

namespace Reports

def none : Reports := ⟨[], []⟩

def append (first second : Reports) : Reports :=
  ⟨first.events ++ second.events, first.errors ++ second.errors⟩

end Reports

namespace Watcher

/-- Reads both channels empty. -/
def collect (watcher : Watcher) : Watcher × Reports :=
  ({ watcher with
      events := { watcher.events with items := [] }
      errors := { watcher.errors with items := [] } },
    ⟨watcher.events.items, watcher.errors.items⟩)

/-- Takes the steps of a pass and reads both channels empty after each. -/
def runDrained (watcher : Watcher) (owner : Owner) (fileSystem : FileSystem) (pass : Pass) :
    Watcher × Reports × Outcome :=
  match _stepped : watcher.step owner fileSystem pass with
  | (after, .onward next) =>
      let (after, reports) := after.collect
      let (final, more, outcome) := runDrained after owner fileSystem next
      (final, reports.append more, outcome)
  | (after, .waits) => (after, .none, .suspended pass)
  | (after, .ended result) => (after, .none, .ended result)
termination_by (pass.stage, pass.stepsLeft)
decreasing_by exact nearer_of_step _stepped

end Watcher

end TreeWatch
