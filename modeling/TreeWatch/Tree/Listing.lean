import TreeWatch.FileSystem.Basic
import TreeWatch.Tree.Resolve

/-!
Listing a tree depth first.

The names of a directory come in ascending order, each directory being followed at once by its
own contents. A link is listed but never followed. A directory that cannot be listed is followed
by an entry that carries the reason, and the listing goes on behind it.
-/

namespace TreeWatch

/-- An entry of a listing and the path under which the operating system knows it. -/
structure LocatedEntry where
  entry : Entry
  location : Path

namespace Node

def refusal? (shown : Path → String) (location : Path) (listable : Bool) : Option Failure :=
  if pathLimit < (shown location).utf8ByteSize then
    some (LookupError.nameTooLong.failure (shown location))
  else if listable then none
  else some (LookupError.denied.failure (shown location))

/-- The name of a child below the names that lead to its directory. -/
def nameBelow (names name : String) : String :=
  if names = "" then name else names ++ "/" ++ name

mutual

def contents (shown : Path → String) (location : Path) (names : String) :
    Node → List LocatedEntry
  | .file _ => []
  | .link _ => []
  | .directory _ listable children =>
      match refusal? shown location listable with
      | some failure => [⟨⟨if names = "" then "." else names, true, some failure⟩, location⟩]
      | none =>
          ((branches shown location names children).mergeSort fun first second =>
            first.1 ≤ second.1).flatMap (·.2)

/-- What each child brings into the listing, by name. -/
def branches (shown : Path → String) (location : Path) (names : String) :
    List (String × Node) → List (String × List LocatedEntry)
  | [] => []
  | (name, node) :: later =>
      (name, ⟨⟨nameBelow names name, node.isDirectory, none⟩, location.child name⟩ ::
        contents shown (location.child name) (nameBelow names name) node) ::
        branches shown location names later

end

end Node

end TreeWatch
