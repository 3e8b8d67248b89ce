import TreeWatch.FileSystem.Failure
import TreeWatch.Path
import TreeWatch.Tree.Node

/-!
Following a path through a tree.

A place is a path without links and double dots: a relative one lies in the tree, the others lie
outside, where there is nothing but the root. A way is taken step by step. A double dot leads to the
directory above, and a link is replaced by the steps of its target, which are taken from the
directory that holds the link.

There are two ways to take the steps. `follow` asks for what is there and says why it cannot be
reached. `settle` asks for the place alone, and takes names that are missing as they stand.
-/

namespace TreeWatch

inductive LookupError
  | missing
  | denied
  | notDirectory
  | isDirectory
  | nameTooLong
  | tooManyLinks
  deriving DecidableEq, Repr

namespace LookupError

def code : LookupError → Int
  | missing => 2
  | denied => 13
  | notDirectory => 20
  | isDirectory => 21
  | nameTooLong => 36
  | tooManyLinks => 40

def text : LookupError → String
  | missing => "No such file or directory"
  | denied => "Permission denied"
  | notDirectory => "Not a directory"
  | isDirectory => "Is a directory"
  | nameTooLong => "File name too long"
  | tooManyLinks => "Too many levels of symbolic links"

def failure (error : LookupError) (path : String) : Failure :=
  .file (.ofCode error.code) error.code (error.text ++ ": " ++ Text.quote path)

end LookupError

/-- What is said about a path that holds a character no file can have in its name. -/
def Path.unusable? (path : Path) : Option Failure :=
  if path.names.any fun name => name.contains '\x00' then
    some (.fault .badValue "embedded null byte")
  else none

namespace Node

/-- Links that may be followed on the way to one file. -/
def linkLimit : Nat := 40

/-- The greatest length of a name, in bytes. -/
def nameLimit : Nat := 255

/-- The greatest length of a path, in bytes. -/
def pathLimit : Nat := 4095

def at? (top : Node) (place : Path) : Option Node :=
  if place.isAbsolute then if place.names = [] then some (emptyDirectory 0) else none
  else top.descendant? place.names

/-- Where the steps of a link in a directory start. -/
def targetOrigin (directory : Path) (target : String) : Path :=
  if (Path.ofText target).isAbsolute then (Path.ofText target).origin else directory

/-- The place that steps lead to. A step is taken from a directory only, even one that stays
there. -/
def follow (top : Node) (links : Nat) (place : Path) (steps : List String) :
    Except LookupError Path :=
  match steps with
  | [] => .ok place
  | step :: later =>
      match top.at? place with
      | some (.directory _ _ _) =>
          if Path.staysPut step then follow top links place later
          else if step = ".." then follow top links place.above later
          else if nameLimit < step.utf8ByteSize then .error .nameTooLong
          else
            match top.at? (place.child step) with
            | none => .error .missing
            | some (.link target) =>
                match links with
                | 0 => .error .tooManyLinks
                | links + 1 =>
                    follow top links (targetOrigin place target) (Path.stepsIn target ++ later)
            | some _ => follow top links (place.child step) later
      | _ => .error .notDirectory
termination_by (links, steps.length)

/-- The place that a path leads to, and what is there. The text of the path is limited, too. -/
def find (top : Node) (text : String) (path : Path) : Except LookupError (Path × Node) :=
  if pathLimit < text.utf8ByteSize then .error .nameTooLong
  else
    match top.follow linkLimit path.origin path.names with
    | .error error => .error error
    | .ok place =>
        match top.at? place with
        | some node => .ok (place, node)
        | none => .error .missing

mutual

/-- The places of the links at a place and below it. -/
def linkPlaces (place : Path) : Node → List Path
  | .file _ => []
  | .link _ => [place]
  | .directory _ _ children => linkPlacesAmong place children

def linkPlacesAmong (place : Path) : List (String × Node) → List Path
  | [] => []
  | (name, node) :: later => linkPlaces (place.child name) node ++ linkPlacesAmong place later

end

/-- The place that steps lead to. A link that is not fresh is being followed already, so it leads
back to itself; then the way ends with its path, behind which the steps that are left are
written. -/
def settle (top : Node) (fresh : List Path) (place : Path) (steps : List String) :
    Except Path Path :=
  match steps with
  | [] => .ok place
  | step :: later =>
      if Path.staysPut step then settle top fresh place later
      else if step = ".." then settle top fresh place.above later
      else
        let stuckAt (path : Path) : Path := path.join (Path.ofText ("/".intercalate later))
        match top.at? (place.child step) with
        | some (.link target) =>
            if place.child step ∈ fresh then
              match settle top (fresh.erase (place.child step)) (targetOrigin place target)
                  (Path.stepsIn target) with
              | .ok reached => settle top fresh reached later
              | .error path => .error (stuckAt path)
            else .error (stuckAt (place.child step))
        | _ => settle top fresh (place.child step) later
termination_by (fresh.length, steps.length)
decreasing_by
  all_goals simp_wf
  all_goals first
    | exact .right _ (Nat.lt_succ_self _)
    | exact .left _ _ (by
        rw [List.length_erase_of_mem ‹_ ∈ fresh›]
        exact Nat.pred_lt_of_lt (List.length_pos_of_mem ‹_ ∈ fresh›))

/-- The place that steps lead to; where a link leads back to itself, no link is followed in what is
left. -/
def settled (top : Node) (place : Path) (steps : List String) : Path :=
  match top.settle (linkPlaces ⟨.relative, []⟩ top) place steps with
  | .ok place => place
  | .error path => path.normalized

/-- The place of a path, or the failure to find it because of a link that leads back to itself. -/
def resolve (top : Node) (shown : Path → String) (path : Path) : Except Failure Path :=
  match path.unusable? with
  | some failure => .error failure
  | none =>
      let place := top.settled path.origin path.names
      match top.follow linkLimit place.origin place.names with
      | .error .tooManyLinks =>
          .error (.fault .breakdown ("Symlink loop from " ++ Text.quote (shown place)))
      | _ => .ok place

end Node

end TreeWatch
