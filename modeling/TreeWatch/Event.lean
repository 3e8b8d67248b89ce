import TreeWatch.Text.Quoted

/-!
Changes of files as they are reported.
-/

namespace TreeWatch

inductive Change
  | created
  | modified
  | deleted
  deriving DecidableEq, Repr

namespace Change

def name : Change → String
  | created => "created"
  | modified => "modified"
  | deleted => "deleted"

def ofName? : String → Option Change
  | "created" => some created
  | "modified" => some modified
  | "deleted" => some deleted
  | _ => none

@[simp]
theorem ofName?_name (change : Change) : ofName? change.name = some change := by
  cases change <;> rfl

/-- What is said about a word that names no change. -/
def unknownMessage (word : String) : String :=
  Text.quote word ++ " is not a valid EventType"

end Change

structure Event where
  change : Change
  path : String
  deriving DecidableEq, Repr

def Event.text (event : Event) : String :=
  event.change.name ++ " " ++ event.path

end TreeWatch
