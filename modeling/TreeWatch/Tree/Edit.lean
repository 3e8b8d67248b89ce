import TreeWatch.Tree.Resolve

/-!
Changing a tree.

An edit names its place by a path. The directories on the way are made where they are missing, and
links on the way are followed. A file is written through a link as well, and a directory is made
where a link leads; a link is put, and anything is removed, where the path says. Nothing outside
the tree is changed. The times that edits set are set after all edits of a batch.
-/

namespace TreeWatch

inductive Edit.Content
  | file
  | directory
  | link (target : String)
  | nothing
  deriving DecidableEq, Repr

structure Edit where
  path : Path
  content : Edit.Content
  /-- The time to be set afterwards. -/
  time : Option Seconds

namespace Node

def alterChild (name : String) (change : Option Node → Option Node) :
    List (String × Node) → List (String × Node)
  | [] => ((change none).map fun node => (name, node)).toList
  | (key, node) :: later =>
      if key = name then ((change (some node)).map fun node => (name, node)).toList ++ later
      else (key, node) :: alterChild name change later

/-- Replaces what names lead to, if there is a directory that holds it. Where a child comes or
goes, the directory gets the given time. -/
def alter (now : Seconds) (change : Option Node → Option Node) : List String → Node → Node
  | [], node => (change (some node)).getD node
  | [name], .directory time listable children =>
      let altered := alterChild name change children
      .directory (if altered.length = children.length then time else now) listable altered
  | name :: later, .directory time listable children =>
      .directory time listable
        (alterChild name (Option.map (alter now change later)) children)
  | _, node => node

def alterAt (top : Node) (now : Seconds) (place : Path) (change : Option Node → Option Node) :
    Node :=
  if place.isAbsolute then top else alter now change place.names top

/-- Makes the directories that steps lead through. The last one is the place that is reached. -/
def makeWay (top : Node) (now : Seconds) (place : Path) : List String → Node × Path
  | [] => (top, place)
  | step :: later =>
      let next := top.settled place [step]
      makeWay (top.alterAt now next fun old => some (old.getD (.emptyDirectory now))) now next later

end Node

namespace Edit

def put (now : Seconds) (top : Node) (edit : Edit) : Node :=
  let origin := edit.path.origin
  let way := edit.path.names.dropLast
  let last := edit.path.names.getLast?.toList
  match edit.content with
  | .directory => (top.makeWay now origin edit.path.names).1
  | .file =>
      let (top, directory) := top.makeWay now origin way
      top.alterAt now (top.settled directory last) fun _ => some (.file now)
  | .link target =>
      let (top, directory) := top.makeWay now origin way
      top.alterAt now (directory.join ⟨.relative, last⟩) fun _ => some (.link target)
  | .nothing =>
      top.alterAt now ((top.settled origin way).join ⟨.relative, last⟩) fun _ => none

/-- A time as a file system stores it, in whole nanoseconds. -/
def stored (time : Seconds) : Seconds :=
  let whole := if time < 0 then time.ceil else time.floor
  let nanoseconds := ((time - whole) * 1e9).floor
  if 1e9 ≤ nanoseconds then (whole + 1) + 1e-9 * (nanoseconds - 1e9)
  else if nanoseconds < 0 then (whole - 1) + 1e-9 * (nanoseconds + 1e9)
  else whole + 1e-9 * nanoseconds

def setTime (now : Seconds) (top : Node) (edit : Edit) : Node :=
  match edit.time with
  | none => top
  | some time =>
      top.alterAt now (top.settled edit.path.origin edit.path.names)
        (Option.map (Node.withTime (stored time)))

end Edit

/-- The tree after a batch of edits. What gets no time of its own gets the present one. -/
def Node.edited (top : Node) (now : Seconds) (edits : List Edit) : Node :=
  edits.foldl (Edit.setTime now) (edits.foldl (Edit.put now) top)

end TreeWatch
