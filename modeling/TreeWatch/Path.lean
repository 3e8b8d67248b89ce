/-!
Paths as text and as lists of names.

Between separators, empty names and single dots say nothing and are dropped; double dots are kept.
Two leading separators are told apart from one, and more than two are as good as one. The path
without any name is written as a dot unless it is absolute.
-/

namespace TreeWatch

def separator : Char := '/'

def pieces : List Char → List (List Char)
  | [] => [[]]
  | c :: rest =>
      if c = separator then [] :: pieces rest
      else
        match pieces rest with
        | [] => [[c]]
        | piece :: others => (c :: piece) :: others

inductive Anchor
  | relative
  | root
  /-- Two leading separators. -/
  | doubleRoot
  deriving DecidableEq, Repr

def Anchor.text : Anchor → String
  | relative => ""
  | root => "/"
  | doubleRoot => "//"

def Anchor.ofText : List Char → Anchor
  | '/' :: '/' :: '/' :: _ => root
  | '/' :: '/' :: _ => doubleRoot
  | '/' :: _ => root
  | _ => relative

structure Path where
  anchor : Anchor
  names : List String
  deriving DecidableEq, Repr

namespace Path

/-- The stretches of a text between separators, one step of the way each. -/
def stepsIn (text : String) : List String := (pieces text.toList).map String.ofList

/-- Whether a step stays where it is. -/
def staysPut (step : String) : Bool := step = "" || step = "."

def ofText (text : String) : Path :=
  ⟨.ofText text.toList, (stepsIn text).filter fun step => !staysPut step⟩

def text (path : Path) : String :=
  if path.anchor = .relative ∧ path.names = [] then "."
  else path.anchor.text ++ "/".intercalate path.names

def isAbsolute (path : Path) : Bool := path.anchor ≠ .relative

/-- The path that the second one denotes when the first one is the place to start from. -/
def join (start path : Path) : Path :=
  if path.isAbsolute then path else ⟨start.anchor, start.names ++ path.names⟩

def child (path : Path) (name : String) : Path := ⟨path.anchor, path.names ++ [name]⟩

def parent (path : Path) : Path := ⟨path.anchor, path.names.dropLast⟩

/-- Where the names of a path are followed from. -/
def origin (path : Path) : Path := ⟨if path.isAbsolute then .root else .relative, []⟩

/-- The directory above a place. Whatever a relative path starts from lies right below the root,
and the root is above itself. -/
def above (place : Path) : Path := if place.names = [] then ⟨.root, []⟩ else place.parent

/-- The path with each double dot taken back together with the name before it, as if no name on
it were a link. -/
def normalized (path : Path) : Path :=
  path.names.foldl (fun place name => if name = ".." then place.above else place.child name)
    path.origin

/-- The text of a path if relative paths start in a directory that has a text of its own. -/
def textFrom (home : String) (path : Path) : String :=
  if path.isAbsolute then path.text else (Path.mk .relative (home :: path.names)).text

end Path

end TreeWatch
