import TreeWatch.Text.Quoted

/-!
What can be wrong with a pattern text, and where.
-/

namespace TreeWatch

inductive PatternError.Reason
  | doubledSeparator
  | singleAfterWildcard
  | anyAfterWildcard
  /-- The wildcard for directories ends at a separator or at the end of the text only. -/
  | afterDirectories (found : Char)
  | directoriesInSegment
  | danglingEscape
  | unexpectedClose
  | unterminatedGroup
  | emptyGroup
  | rangeWithoutStart
  | rangeWithoutEnd
  | emptyRange (low high : Char)
  deriving DecidableEq

namespace PatternError.Reason

def message : Reason → String
  | doubledSeparator => "unexpected //"
  | singleAfterWildcard => "unexpected ? after wildcard"
  | anyAfterWildcard => "unexpected * after wildcard"
  | afterDirectories found => "unexpected " ++ Text.quote (String.singleton found) ++ " after **"
  | directoriesInSegment => "** must be a whole path segment"
  | danglingEscape => "dangling escape"
  | unexpectedClose => "unexpected ]"
  | unterminatedGroup => "unterminated group"
  | emptyGroup => "empty group"
  | rangeWithoutStart => "range without start"
  | rangeWithoutEnd => "range without end"
  | emptyRange low high => "empty range " ++ String.ofList [low, '-', high]

/-- Whether more text could have made the pattern whole. -/
def isUnfinished : Reason → Bool
  | danglingEscape => true
  | unterminatedGroup => true
  | _ => false

end PatternError.Reason

/-- A fault in a pattern text, at a position counted in characters. -/
structure PatternError.Fault where
  position : Nat
  reason : PatternError.Reason
  deriving DecidableEq

structure PatternError where
  pattern : String
  fault : PatternError.Fault
  deriving DecidableEq

namespace PatternError

def position (error : PatternError) : Nat := error.fault.position

def message (error : PatternError) : String :=
  "invalid pattern " ++ Text.quote error.pattern ++ " at position " ++ toString error.position ++
    ": " ++ error.fault.reason.message

end PatternError

end TreeWatch
