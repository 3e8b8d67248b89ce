import TreeWatch.Changes
import TreeWatch.CommandLine.Word
import TreeWatch.Numeral

/-!
The arguments of the command.

Words are taken from the left. The first operand is the directory; a double dash next to it is
passed over. Words that nothing wants are kept and reported in the end, unless something stops the
reading before.
-/

namespace TreeWatch.CommandLine

/-- What the words say about an argument. -/
inductive Argument (α : Type)
  | absent
  /-- A switch with a double dash for its value, which is none. -/
  | blank
  | given (value : α)
  deriving DecidableEq

namespace Argument

def value? {α : Type} : Argument α → Option α
  | given value => some value
  | _ => none

def isBlank {α : Type} : Argument α → Bool
  | blank => true
  | _ => false

end Argument

structure Arguments where
  directory : Option String
  pattern : Argument String
  interval : Argument Seconds
  config : Argument String
  logLevel : Argument String

def Arguments.none : Arguments := ⟨.none, .absent, .absent, .absent, .absent⟩

/-- Why reading stops before all words are taken. -/
inductive Stop
  | help
  | ambiguous (ambiguity : Ambiguity)
  | missingValue (switch : Switch)
  | unwantedValue (switch : Switch) (value : String)
  | badNumber (switch : Switch) (value : String)
  | unrecognized (words : List String)
  deriving DecidableEq

def Stop.message : Stop → String
  | help => ""
  | ambiguous ambiguity => ambiguity.message
  | missingValue switch => "argument " ++ switch.name ++ ": expected one argument"
  | unwantedValue switch value =>
      "argument " ++ switch.name ++ ": ignored explicit argument " ++ Text.quote value
  | badNumber switch value =>
      "argument " ++ switch.name ++ ": invalid float value: " ++ Text.quote value
  | unrecognized words => "unrecognized arguments: " ++ " ".intercalate words

/-- What has been read so far. -/
structure Reading where
  arguments : Arguments
  /-- Whether the directory has had its turn. -/
  directoryRead : Bool
  /-- Words that nothing wants. -/
  extras : List String

namespace Reading

def start : Reading := ⟨.none, false, []⟩

def keep (reading : Reading) (word : String) : Reading :=
  { reading with extras := reading.extras ++ [word] }

def takeDirectory (reading : Reading) (directory : Option String) : Reading :=
  { reading with
    arguments := { reading.arguments with directory }
    directoryRead := true }

def intervalOf : Argument String → Except Stop (Argument Seconds)
  | .absent => .ok .absent
  | .blank => .ok .blank
  | .given text =>
      match Numeral.read? text with
      | none => .error (.badNumber .interval text)
      | some numeral => .ok (.given numeral.toFloat)

def take (reading : Reading) (switch : Switch) (argument : Argument String) :
    Except Stop Reading := do
  let arguments := reading.arguments
  match switch with
  | .help => .error .help
  | .pattern => return { reading with arguments := { arguments with pattern := argument } }
  | .config => return { reading with arguments := { arguments with config := argument } }
  | .logLevel => return { reading with arguments := { arguments with logLevel := argument } }
  | .interval =>
      let interval ← intervalOf argument
      return { reading with arguments := { arguments with interval } }

end Reading

/-- How a word ends that begins with the switch for help and goes on. Behind the short switch,
letters may ask for help again; a value is not wanted. -/
def helpStop : (isShort : Bool) → List Char → Stop
  | true, ['h'] => .help
  | true, 'h' :: rest => helpStop true rest
  | _, value => .unwantedValue .help (String.ofList value)

/-- What a value says that is attached to its switch. -/
def Attached.argument (attached : Attached) : Argument String :=
  if attached.value = ['-', '-'] then .blank else .given (String.ofList attached.value)

def read (reading : Reading) : List (String × Word) → Except Stop Reading
  | [] => .ok reading
  | (text, .unknown) :: later => read (reading.keep text) later
  | (_, .option switch (some attached)) :: later =>
      if switch = .help then .error (helpStop attached.isShort attached.value)
      else do read (← reading.take switch attached.argument) later
  | (_, .option .help none) :: _ => .error .help
  | (_, .option switch none) :: (value, .operand) :: later => do
      read (← reading.take switch (.given value)) later
  | (_, .option switch none) :: _ => .error (.missingValue switch)
  | (text, .operand) :: later =>
      if reading.directoryRead then read (reading.keep text) later
      else
        match later with
        | (_, .doubleDash) :: later => read (reading.takeDirectory (some text)) later
        | later => read (reading.takeDirectory (some text)) later
  | (text, .doubleDash) :: later =>
      if reading.directoryRead then read (reading.keep text) later
      else
        match later with
        | (text, .operand) :: later => read (reading.takeDirectory (some text)) later
        | later => read (reading.takeDirectory none) later

def Arguments.ofWords (words : List String) : Except Stop Arguments := do
  let classified ← (classify words).mapError .ambiguous
  let reading ← read .start classified
  if reading.extras.isEmpty then .ok reading.arguments
  else .error (.unrecognized reading.extras)

end TreeWatch.CommandLine
