/-!
Numbers as a document or a caller gives them: integers of any size and binary64 values.
-/

namespace TreeWatch

inductive Number
  | integer (value : Int)
  | double (value : Float)
  deriving Repr, Inhabited

namespace Number

/-- The least magnitude that rounds past the greatest finite double: the midpoint between that
double and the next power of two. -/
def overflowBound : Nat := Nat.pow 2 1024 - Nat.pow 2 970

/-- The nearest double, or nothing for an integer that rounds to no finite one. -/
def toFloat? : Number → Option Float
  | .double value => some value
  | .integer value => if overflowBound ≤ value.natAbs then none else some (Float.ofInt value)

/-- Whether the number itself is zero or less, which "not a number" is not. -/
def isNonPositive : Number → Bool
  | .integer value => value ≤ 0
  | .double value => value ≤ 0

end Number

end TreeWatch
