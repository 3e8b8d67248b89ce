import TreeWatch.CommandLine.Arguments
import TreeWatch.Config.Basic
import TreeWatch.Tree.Edit
import TreeWatch.Tree.Files
import TreeWatch.Watcher.Drained

/-!
The command: reading its arguments and its configuration, starting a watcher, and printing what
the watcher reports.

The command runs in a directory of a tree. Between passes the tree may be edited. Events are
printed on the standard output and failures on the standard error output; a failure that has been
printed once is not printed again.
-/

namespace TreeWatch.CommandLine

structure Output where
  status : Nat
  stdout : String
  stderr : String
  /-- Records of the log at the level of errors. -/
  log : List String
  deriving DecidableEq

/-- Why the command breaks off without an output of its own. -/
inductive Breakdown
  /-- There is no value where one is needed. -/
  | blank (switch : Switch)
  | intervalTooLarge
  | failure (cause : Failure)
  deriving DecidableEq

def Breakdown.message : Breakdown → String
  | .blank .interval => "'<=' not supported between instances of 'list' and 'int'"
  | .blank .logLevel => "'list' object has no attribute 'upper'"
  | .blank _ => "'list' object has no attribute 'glob'"
  | .intervalTooLarge => Config.LoadError.intervalTooLarge.message
  | .failure cause => cause.message

structure Surroundings where
  /-- The directory in which the command runs. -/
  top : Node
  /-- The path of that directory as it is shown. -/
  home : String
  /-- The documents of configuration files, by place. -/
  documents : List (Path × Document)

namespace Surroundings

def resolve (surroundings : Surroundings) (path : Path) : Except Failure Path :=
  surroundings.top.resolve (Path.textFrom surroundings.home) path

/-- What is found under the path of a configuration. A file without a document is empty. -/
def configurationAt (surroundings : Surroundings) (path : Path) : Except Failure Config.Source :=
  if path.unusable?.isSome then .ok .missing
  else
    match surroundings.top.find path.text path with
    | .error .nameTooLong => .error (LookupError.nameTooLong.failure path.text)
    | .error _ => .ok .missing
    | .ok (place, node) =>
        if node.isDirectory then .error (LookupError.isDirectory.failure path.text)
        else .ok (.document ((surroundings.documents.lookup place).getD .null))

def files (surroundings : Surroundings) (base : Path) : LocalFiles :=
  ⟨surroundings.top, some surroundings.home, base⟩

end Surroundings

/-- The configuration that the arguments name, or the default one. -/
def configOf (surroundings : Surroundings) (arguments : Arguments) :
    Except Config.LoadError Config := do
  match arguments.config.value? with
  | none => return .default
  | some "" => return .default
  | some file =>
      let path := Path.ofText file
      let source ← (surroundings.configurationAt path).mapError .unresolved
      Config.load surroundings.resolve path source

/-- Arguments take precedence over the configuration. -/
def override (surroundings : Surroundings) (arguments : Arguments) (config : Config) :
    Except Failure Config := do
  let root ←
    match arguments.directory with
    | none => pure config.root
    | some "" => pure config.root
    | some directory => some <$> surroundings.resolve (Path.ofText directory)
  return {
    root
    pattern := arguments.pattern.value?.getD config.pattern
    interval := arguments.interval.value?.getD config.interval
    bufferSize := config.bufferSize }

/-- The name of the program, a colon and a text, as a line. -/
def remark (text : String) : String := programName ++ ": " ++ text ++ "\n"

def eventLine (event : Event) : String :=
  String.ofList (List.replicate (8 - event.change.name.length) ' ') ++ event.text ++ "\n"

def failureLine (failure : Failure) : String :=
  remark ("failed to detect changes: " ++ failure.message)

structure Printed where
  events : List String
  failures : List String

def Printed.add (printed : Printed) (reports : Reports) : Printed where
  events := printed.events ++ reports.events.map eventLine
  failures := (reports.errors.map failureLine).foldl
    (fun lines line => if line ∈ lines then lines else lines ++ [line]) printed.failures

/-- Makes one pass after each batch of edits. -/
def watch (base : Path) (now : Nat) (surroundings : Surroundings) (watcher : Watcher)
    (printed : Printed) : List (List Edit) → Printed
  | [] => printed
  | edits :: later =>
      let surroundings :=
        { surroundings with top := surroundings.top.edited (Float.ofNat now) edits }
      let (watcher, reports, _) :=
        watcher.runDrained .loop (surroundings.files base).toFileSystem .begin
      watch base (now + 1) surroundings watcher (printed.add reports) later

/-- Runs a watcher over batches of edits, the first one being made at the given time. -/
def serve (surroundings : Surroundings) (arguments : Arguments) (config : Config) (now : Nat)
    (batches : List (List Edit)) : Except Breakdown Output :=
  match config.root with
  | none => .ok ⟨1, "", remark "missing directory" ++ usage, []⟩
  | some base =>
      if arguments.interval.isBlank then .error (.blank .interval)
      else
        match Watcher.create (.text config.pattern) (.double config.interval) config.bufferSize with
        | .error error => .ok ⟨2, "", remark ("unable to create watcher: " ++ error.message), []⟩
        | .ok watcher =>
            if arguments.pattern.isBlank then .error (.blank .pattern)
            else
              match watcher.start (surroundings.files base).toFileSystem with
              | .error (.seed (.fault failure)) => .error (.failure failure)
              | .error error =>
                  .ok ⟨3, "", remark ("unable to start watcher: " ++ error.message), []⟩
              | .ok watcher =>
                  let printed := watch base now surroundings watcher ⟨[], []⟩ batches
                  .ok ⟨0, "".intercalate printed.events, "".intercalate printed.failures, []⟩

def run (surroundings : Surroundings) (words : List String) (now : Nat)
    (batches : List (List Edit)) : Except Breakdown Output :=
  match Arguments.ofWords words with
  | .error .help => .ok ⟨0, help, "", []⟩
  | .error stop => .ok ⟨2, "", usage ++ remark ("error: " ++ stop.message), []⟩
  | .ok arguments =>
      if arguments.logLevel.isBlank then .error (.blank .logLevel)
      else
        match configOf surroundings arguments with
        | .error (.invalid error) =>
            .ok ⟨2, "", "", ["[ERROR] " ++ programName ++ " - " ++ error.message]⟩
        | .error .intervalTooLarge => .error .intervalTooLarge
        | .error (.unresolved failure) => .error (.failure failure)
        | .ok config =>
            match override surroundings arguments config with
            | .error failure => .error (.failure failure)
            | .ok config => serve surroundings arguments config now batches

end TreeWatch.CommandLine
