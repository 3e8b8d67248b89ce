import TreeWatch.Config.Document
import TreeWatch.Numeral
import TreeWatch.Path
import TreeWatch.Watcher.Basic

/-!
Configurations: what to watch, and how often, as a document says it.

The document is a mapping whose entry `watch` is a mapping again. Its entries are checked one
after another, and the first fault is reported. Entries that are missing have a default; entries
that are not known are passed over.
-/

namespace TreeWatch

structure Config where
  /-- The directory to watch, if the document names one. -/
  root : Option Path
  pattern : String
  interval : Seconds
  bufferSize : Int

namespace Config

def defaultPattern : String := "**/*"

def default : Config := ⟨none, defaultPattern, Watcher.defaultInterval, Watcher.defaultBufferSize⟩

inductive NumberFault
  | boolean
  /-- A text that is no numeral. -/
  | text
  | otherKind
  deriving DecidableEq, Repr

inductive Error
  | notFound (path : String)
  | unreadable
  | notMapping
  | noWatchSection
  | rootNotText
  | patternNotText
  | pattern (error : PatternError)
  | intervalNotNumeric (fault : NumberFault)
  | intervalNotPositive
  | bufferNotInteger
  | bufferTooSmall
  deriving DecidableEq

def Error.message : Error → String
  | notFound path => "Configuration file not found: " ++ path
  | unreadable => "Failed to parse YAML configuration: ..."
  | notMapping => "Configuration root must be a mapping"
  | noWatchSection => "'watch' section must be a mapping"
  | rootNotText => "watch.root_path must be a string"
  | patternNotText => "watch.pattern must be a string"
  | pattern error => "watch.pattern is invalid: " ++ error.message
  | intervalNotNumeric _ => "watch.poll_interval must be numeric"
  | intervalNotPositive => "watch.poll_interval must be positive"
  | bufferNotInteger => "watch.buffer_size must be an integer"
  | bufferTooSmall => "watch.buffer_size must be at least 1"

/-- How a configuration can fail to load. -/
inductive LoadError
  | invalid (error : Error)
  /-- The interval is an integer that no double comes near. -/
  | intervalTooLarge
  /-- The file or the directory that it names cannot be looked for. -/
  | unresolved (failure : Failure)
  deriving DecidableEq

def LoadError.message : LoadError → String
  | invalid error => error.message
  | intervalTooLarge => "int too large to convert to float"
  | unresolved failure => failure.message

/-- What is found under the path of a configuration. A path that cannot be looked up, as one with a
name that is too long, and a file that cannot be read as a text have none: they fail before. -/
inductive Source
  | missing
  /-- The text is no document. -/
  | unreadable
  | document (document : Document)

def rootFrom (resolve : Path → Except Failure Path) (file : Path) :
    Option Document → Except LoadError (Option Path)
  | none => .ok none
  | some .null => .ok none
  | some (.text text) =>
      let path := Path.ofText text
      if path.isAbsolute then .ok path
      else
        match resolve (file.parent.join path) with
        | .ok root => .ok root
        | .error failure => .error (.unresolved failure)
  | some _ => .error (.invalid .rootNotText)

def patternFrom : Option Document → Except LoadError String
  | none => .ok defaultPattern
  | some (.text text) =>
      match Pattern.compile text with
      | .ok _ => .ok text
      | .error error => .error (.invalid (.pattern error))
  | some _ => .error (.invalid .patternNotText)

def numberFrom : Document → Except NumberFault Number
  | .integer value => .ok (.integer value)
  | .double value => .ok (.double value)
  | .text text =>
      match Numeral.read? text with
      | some numeral => .ok (.double numeral.toFloat)
      | none => .error .text
  | .boolean _ => .error .boolean
  | _ => .error .otherKind

def intervalFrom : Option Document → Except LoadError Seconds
  | none => .ok Watcher.defaultInterval
  | some document =>
      match numberFrom document with
      | .error fault => .error (.invalid (.intervalNotNumeric fault))
      | .ok number =>
          match number.toFloat? with
          | none => .error .intervalTooLarge
          | some interval =>
              if interval ≤ 0 then .error (.invalid .intervalNotPositive)
              else .ok interval

def bufferSizeFrom : Option Document → Except LoadError Int
  | none => .ok Watcher.defaultBufferSize
  | some (.integer size) => if size < 1 then .error (.invalid .bufferTooSmall) else .ok size
  | some _ => .error (.invalid .bufferNotInteger)

def ofEntries (resolve : Path → Except Failure Path) (file : Path)
    (entries : List (String × Document)) : Except LoadError Config := do
  let root ← rootFrom resolve file (entries.lookup "root_path")
  let pattern ← patternFrom (entries.lookup "pattern")
  let interval ← intervalFrom (entries.lookup "poll_interval")
  let bufferSize ← bufferSizeFrom (entries.lookup "buffer_size")
  return ⟨root, pattern, interval, bufferSize⟩

/-- Loads the configuration of a file. A relative directory is one below the directory of the
file, and `resolve` says where that is. -/
def load (resolve : Path → Except Failure Path) (file : Path) : Source → Except LoadError Config
  | .missing => .error (.invalid (.notFound file.text))
  | .unreadable => .error (.invalid .unreadable)
  | .document document =>
      match document.entries? with
      | none => .error (.invalid .notMapping)
      | some entries =>
          match (entries.lookup "watch").bind Document.entries? with
          | none => .error (.invalid .noWatchSection)
          | some watch => ofEntries resolve file watch

end Config

end TreeWatch
