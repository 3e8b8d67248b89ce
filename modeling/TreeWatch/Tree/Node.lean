import TreeWatch.Changes

/-!
Trees of files, directories and symbolic links.
-/

namespace TreeWatch

inductive Node
  | file (time : Seconds)
  | link (target : String)
  /-- A directory may refuse to be listed. Its names are meant to be distinct. -/
  | directory (time : Seconds) (listable : Bool) (children : List (String × Node))

namespace Node

def emptyDirectory (time : Seconds) : Node := directory time true []

def isDirectory : Node → Bool
  | directory _ _ _ => true
  | _ => false

def children : Node → List (String × Node)
  | directory _ _ children => children
  | _ => []

def child? (node : Node) (name : String) : Option Node := node.children.lookup name

/-- The node that names lead to without following a link. -/
def descendant? (node : Node) : List String → Option Node
  | [] => some node
  | name :: later => (node.child? name).bind fun child => child.descendant? later

def time : Node → Seconds
  | file time => time
  | link _ => 0
  | directory time _ _ => time

def withTime (time : Seconds) : Node → Node
  | file _ => file time
  | link target => link target
  | directory _ listable children => directory time listable children

end Node

end TreeWatch
