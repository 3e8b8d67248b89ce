import TreeWatch.Tree.Listing

/-!
A directory of a tree as a file system.

A path is joined to the base piece by piece, so that no path leads away from the base by being
absolute. Double dots and links are followed in the tree.
-/

namespace TreeWatch

structure LocalFiles where
  top : Node
  /-- The path of the top as it is shown, or nothing if paths are shown relative to it. -/
  home : Option String
  base : Path

namespace LocalFiles

/-- The path of the base joined with the pieces of a text. -/
def locate (files : LocalFiles) (path : String) : Path :=
  if path = "" ∨ path = "." then files.base
  else ((Path.stepsIn path).map Path.ofText).foldl Path.join files.base

def shown (files : LocalFiles) (path : Path) : String :=
  match files.home with
  | some home => path.textFrom home
  | none => path.text

/-- The node that a path leads to. -/
def find (files : LocalFiles) (path : Path) : Except LookupError Node :=
  (files.top.find (files.shown path) path).map (·.2)

def timeOf (files : LocalFiles) (path : String) : Except Failure Seconds :=
  let location := files.locate path
  match location.unusable? with
  | some failure => .error failure
  | none =>
      match files.find location with
      | .ok node => .ok node.time
      | .error error => .error (error.failure (files.shown location))

/-- The listing of a directory, with the path of each entry. -/
def listing (files : LocalFiles) (location : Path) : List LocatedEntry :=
  let refused (error : LookupError) : List LocatedEntry :=
    [⟨⟨".", true, some (error.failure (files.shown location))⟩, location⟩]
  match files.find location with
  | .error error => refused error
  | .ok node =>
      if node.isDirectory then node.contents files.shown location ""
      else refused .notDirectory

def walk (files : LocalFiles) (root : String) : Walk :=
  let location := files.locate root
  match location.unusable? with
  | some failure => ⟨[], some failure⟩
  | none => ⟨(files.listing location).map (·.entry), none⟩

def toFileSystem (files : LocalFiles) : FileSystem where
  walk := files.walk
  timeOf := files.timeOf

end LocalFiles

end TreeWatch
