import TreeWatch.CommandLine.Usage
import TreeWatch.Text.DecimalDigit
import TreeWatch.Text.Quoted

/-!
What each word of a command line is by itself.

A word that begins with a dash is a switch, unless it is a lone dash, a negative number, or not a
switch of the command and holds a space. A long switch may be cut short where that is clear, and a
value may follow an equals sign. Behind a lone double dash every word is an operand.
-/

namespace TreeWatch.CommandLine

/-- A value in the word of a switch, behind an equals sign or right behind the switch. -/
structure Attached where
  /-- Whether the switch is a single letter behind one dash. -/
  isShort : Bool
  value : List Char
  deriving DecidableEq

inductive Word
  | operand
  /-- The double dash that ends the switches. -/
  | doubleDash
  | option (switch : Switch) (attached : Option Attached)
  | unknown
  deriving DecidableEq

/-- A word that begins like several switches. -/
structure Ambiguity where
  word : String
  candidates : List String
  deriving DecidableEq

def Ambiguity.message (ambiguity : Ambiguity) : String :=
  "ambiguous option: " ++ ambiguity.word ++ " could match " ++
    ", ".intercalate ambiguity.candidates

/-- The text up to the first equals sign, and the one behind it. -/
def splitAtEquals (word : List Char) : List Char × Option (List Char) :=
  match word.dropWhile (· != '=') with
  | [] => (word, none)
  | _ :: value => (word.takeWhile (· != '='), some value)

def switchOf? (word : List Char) : Option Switch := spellings.lookup (String.ofList word)

def isShort : (spelling : List Char) → Bool
  | '-' :: '-' :: _ => false
  | _ => true

/-- A minus sign and decimal digits with at most one point, some digit being last. A line end
may follow. -/
def isNegativeNumber (word : List Char) : Bool :=
  let isDigit (c : Char) : Bool := (Text.digit? c).isSome
  let word := if word.getLast? = some '\n' then word.dropLast else word
  match word with
  | '-' :: digits =>
      match digits.dropWhile isDigit with
      | [] => !digits.isEmpty
      | '.' :: fraction => !fraction.isEmpty && fraction.all isDigit
      | _ => false
  | _ => false

/-- The switches that a word may stand for without being one, with their spellings. -/
def completions (word : List Char) : List (String × Word) :=
  match word with
  | '-' :: '-' :: _ =>
      let (start, value) := splitAtEquals word
      (spellings.filter fun (spelling, _) => start.isPrefixOf spelling.toList).map
        fun (spelling, switch) => (spelling, .option switch (value.map (⟨false, ·⟩)))
  | '-' :: letter :: value =>
      (spellings.filter fun (spelling, _) => spelling.toList = ['-', letter]).map
        fun (spelling, switch) => (spelling, .option switch (some ⟨true, value⟩))
  | _ => []

def Word.ofText (text : String) : Except Ambiguity Word :=
  match text.toList with
  | '-' :: c :: rest =>
      let word := '-' :: c :: rest
      match switchOf? word, splitAtEquals word with
      | some switch, _ => .ok (.option switch none)
      | none, (start, value) =>
          match switchOf? start, value with
          | some switch, some value => .ok (.option switch (some ⟨isShort start, value⟩))
          | _, _ =>
              match completions word with
              | [] =>
                  if isNegativeNumber word || word.contains ' ' then .ok .operand else .ok .unknown
              | [(_, completion)] => .ok completion
              | several => .error ⟨text, several.map (·.1)⟩
  | _ => .ok .operand

def classify : List String → Except Ambiguity (List (String × Word))
  | [] => .ok []
  | "--" :: later => .ok (("--", .doubleDash) :: later.map (·, .operand))
  | text :: later => do
      let word ← Word.ofText text
      return (text, word) :: (← classify later)

end TreeWatch.CommandLine
