import TreeWatch.FileSystem.Basic
import TreeWatch.Pattern.Search

/-!
Listing the files that match a pattern.

The first failure of the walk decides. One that belongs to the file system is reported with the
path at which the walk failed; any other one is passed on as it is.
-/

namespace TreeWatch.Pattern

def filesAmong (pattern : Pattern) (ending : Except Failure Unit) :
    List Entry → Except Failure (List String)
  | [] => ending.map fun _ => []
  | entry :: later =>
      match entry.failure with
      | some failure => .error (.listing entry.path failure)
      | none =>
          if !entry.isDirectory && pattern.matches entry.path then
            (pattern.filesAmong ending later).map (entry.path :: ·)
          else pattern.filesAmong ending later

def filesOf (pattern : Pattern) (root : String) (walk : Walk) : Except Failure (List String) :=
  pattern.filesAmong
    (match walk.failure with
      | none => .ok ()
      | some failure => .error (failure.whileWalking root))
    walk.entries

def glob (pattern : Pattern) (fileSystem : FileSystem) (root : String) :
    Except Failure (List String) :=
  pattern.filesOf root (fileSystem.walk root)

end TreeWatch.Pattern
