import TreeWatch.Event
import TreeWatch.PathMap

/-!
Comparing the known times of files with what a look at them finds.

A path that was found but whose time could not be read has no observed time; it keeps its known
state. Events for observed paths come first, in the order of the observation; those for paths
that are gone follow in the order in which the paths are known.
-/

namespace TreeWatch

/-- A time in seconds, as file systems and clocks give it. -/
abbrev Seconds := Float

abbrev Times := PathMap Seconds

abbrev Observation := PathMap (Option Seconds)

namespace Changes

/-- The events found so far, and the times that are known with them. -/
structure Revision where
  events : List Event
  times : Times

namespace Revision

def record (revision : Revision) (change : Change) (path : String) (time : Seconds) : Revision :=
  ⟨revision.events ++ [⟨change, path⟩], revision.times.insert path time⟩

/-- Takes account of one observed path. Only a later time counts as a modification. -/
def observe (known : Times) (revision : Revision) : String × Option Seconds → Revision
  | (_, none) => revision
  | (path, some time) =>
      match known.get? path with
      | none => revision.record .created path time
      | some previous => if previous < time then revision.record .modified path time else revision

/-- Takes account of one known path, which is gone unless it was observed. -/
def retain (observed : Observation) (revision : Revision) (path : String) : Revision :=
  if observed.contains path then revision
  else ⟨revision.events ++ [⟨.deleted, path⟩], revision.times.erase path⟩

end Revision

def between (known : Times) (observed : Observation) : Revision :=
  known.keys.foldl (Revision.retain observed)
    (observed.entries.foldl (Revision.observe known) ⟨[], known⟩)

end Changes

end TreeWatch
