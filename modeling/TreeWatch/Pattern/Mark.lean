/-!
The marks of a pattern text.

A backslash and the character after it are one mark, as is any other character on its own. Only
the last mark can be a backslash that escapes nothing.
-/

namespace TreeWatch

inductive Mark
  | bare (c : Char)
  | escaped (c : Char)
  | dangling
  deriving DecidableEq

namespace Mark

def head : Mark → Char
  | bare c => c
  | escaped _ => '\\'
  | dangling => '\\'

def text : Mark → List Char
  | bare c => [c]
  | escaped c => ['\\', c]
  | dangling => ['\\']

def width (mark : Mark) : Nat := mark.text.length

def ofText : List Char → List Mark
  | [] => []
  | '\\' :: c :: rest => escaped c :: ofText rest
  | c :: rest => (if c = '\\' then dangling else bare c) :: ofText rest

@[simp]
theorem flatMap_text_ofText (chars : List Char) : (ofText chars).flatMap text = chars := by
  fun_induction ofText chars with
  | case1 => rfl
  | case2 c rest inductionHypothesis => simp [text, inductionHypothesis]
  | case3 c rest _ inductionHypothesis =>
      split
      · rename_i same
        simp [text, inductionHypothesis, same]
      · simp [text, inductionHypothesis]

end Mark

end TreeWatch
