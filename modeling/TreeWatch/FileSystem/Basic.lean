import TreeWatch.Changes
import TreeWatch.FileSystem.Failure

/-!
File systems as the library sees them: a walk below a root, and the times of files.
-/

namespace TreeWatch

structure Entry where
  path : String
  isDirectory : Bool
  /-- Why the directory at the path could not be listed. -/
  failure : Option Failure
  deriving DecidableEq, Repr

/-- The entries that a walk yields, in order, and the failure it breaks off with. -/
structure Walk where
  entries : List Entry
  failure : Option Failure
  deriving DecidableEq, Repr

structure FileSystem where
  walk : (root : String) → Walk
  timeOf : (path : String) → Except Failure Seconds

end TreeWatch
