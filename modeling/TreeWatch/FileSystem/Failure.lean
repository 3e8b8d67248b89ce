import TreeWatch.Text.Quoted

/-!
What can go wrong while a file system is read.
-/

namespace TreeWatch

/-- Kinds of failed file operations that are told apart. -/
inductive FileErrorKind
  | missing
  | denied
  | notDirectory
  | other
  deriving DecidableEq, Repr

def FileErrorKind.ofCode : Int → FileErrorKind
  | 1 => .denied
  | 2 => .missing
  | 13 => .denied
  | 20 => .notDirectory
  | _ => .other

/-- Kinds of failures that are not about files. -/
inductive FaultKind
  | badValue
  | breakdown
  deriving DecidableEq, Repr

inductive Failure
  /-- An operation on a file failed, perhaps with an error number. -/
  | file (kind : FileErrorKind) (code : Option Int) (detail : String)
  /-- A walk reported that it cannot go on at a path. -/
  | walk (path detail : String)
  /-- What lies below a path could not be listed. -/
  | listing (path : String) (cause : Failure)
  /-- Something failed that is not about files. -/
  | fault (kind : FaultKind) (detail : String)
  deriving DecidableEq, Repr

namespace Failure

def message : Failure → String
  | file _ none detail => detail
  | file _ (some code) detail => "[Errno " ++ toString code ++ "] " ++ detail
  | walk _ detail => detail
  | listing path cause => "failed to walk " ++ Text.quote path ++ ": " ++ cause.message
  | fault _ detail => detail

/-- Whether the failure is one of the file system, which a watcher survives. -/
def isOfFiles : Failure → Bool
  | fault _ _ => false
  | _ => true

/-- Whether the failure already names the path at which a walk ended. -/
def isOfWalk : Failure → Bool
  | walk _ _ => true
  | listing _ _ => true
  | _ => false

/-- A failure of the walk below a root, as it is reported. -/
def whileWalking (root : String) (failure : Failure) : Failure :=
  if failure.isOfFiles && !failure.isOfWalk then listing root failure else failure

end Failure

end TreeWatch
