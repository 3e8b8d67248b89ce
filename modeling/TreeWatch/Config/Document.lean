/-!
Documents: the values that a configuration text stands for.
-/

namespace TreeWatch

inductive Document
  | null
  | boolean (value : Bool)
  | integer (value : Int)
  | double (value : Float)
  | text (value : String)
  | list (elements : List Document)
  | mapping (entries : List (String × Document))
  deriving Inhabited

def Document.entries? : Document → Option (List (String × Document))
  | .mapping entries => some entries
  | _ => none

end TreeWatch
