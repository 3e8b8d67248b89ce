import TreeWatch.CharSet
import TreeWatch.Path

/-!
The units a pattern is made of.

Four kinds of token take exactly one character of a path; `accepts` says which. The wildcards
`any` and `directories` take stretches of a path and accept no single character.
-/

namespace TreeWatch

/-- A choice of characters: single ones and ranges, taken together or, if negated, left out. -/
structure Group where
  negated : Bool
  members : CharSet
  ranges : List (Char × Char)
  deriving DecidableEq

namespace Group

def contains (group : Group) (c : Char) : Bool :=
  decide (c ∈ group.members) || group.ranges.any fun (low, high) => low ≤ c && c ≤ high

/-- Whether a name character may stand where the group does. -/
def admits (group : Group) (c : Char) : Bool :=
  group.contains c != group.negated

end Group

inductive Token
  | literal (c : Char)
  | separator
  /-- One character of a name. -/
  | single
  /-- Any stretch of a name. -/
  | any
  /-- Any number of whole directories. -/
  | directories
  | group (choice : Group)
  deriving DecidableEq

namespace Token

def accepts : Token → Char → Bool
  | literal expected, c => c == expected
  | separator, c => c == TreeWatch.separator
  | single, c => c != TreeWatch.separator
  | group choice, c => c != TreeWatch.separator && choice.admits c
  | any, _ => false
  | directories, _ => false

/-- Whether the token takes a stretch of the path rather than one character. -/
def isStretch : Token → Bool
  | any => true
  | directories => true
  | _ => false

end Token

end TreeWatch
