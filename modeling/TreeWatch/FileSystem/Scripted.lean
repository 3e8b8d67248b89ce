import TreeWatch.FileSystem.Basic

/-!
File systems given by a list of answers.
-/

namespace TreeWatch

structure ScriptedEntry where
  entry : Entry
  time : Option (Except Failure Seconds)

structure Script where
  entries : List ScriptedEntry
  failure : Option Failure

namespace Script

/-- The first answer that is given for a path. -/
def timeOf (script : Script) (path : String) : Except Failure Seconds :=
  match script.entries.findSome? fun scripted =>
      if scripted.entry.path = path then scripted.time else none with
  | some answer => answer
  | none => .error (.file .missing none ("no such file: " ++ path))

/-- Every walk yields the same entries, whatever its root. -/
def toFileSystem (script : Script) : FileSystem where
  walk _ := ⟨script.entries.map (·.entry), script.failure⟩
  timeOf := script.timeOf

end Script

end TreeWatch
