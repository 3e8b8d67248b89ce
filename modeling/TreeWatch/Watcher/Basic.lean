import TreeWatch.Channel.Basic
import TreeWatch.Number
import TreeWatch.Pattern.Glob

/-!
Watchers: what they watch, the state of their life, the times they know and the two channels on
which they report.
-/

namespace TreeWatch

inductive Lifecycle
  | uninitialized
  | ready
  | running
  | closed
  deriving DecidableEq, Repr

def Lifecycle.name : Lifecycle → String
  | uninitialized => "uninitialized"
  | ready => "ready"
  | running => "running"
  | closed => "closed"

/-- Who makes a pass, and so may have to wait on a channel. -/
inductive Owner
  | caller (id : Nat)
  | loop
  deriving DecidableEq, Repr

structure Stats where
  ticks : Nat
  emitted : Nat
  reported : Nat
  deriving DecidableEq, Repr

/-- The times of its clock may be of any kind; those of a watcher that is at work are doubles. -/
structure Watcher (τ : Type := Seconds) where
  pattern : Pattern
  interval : τ
  events : Channel Owner Event
  errors : Channel Owner Failure
  lifecycle : Lifecycle
  tracked : Times
  stats : Stats
  /-- Whether a close has been asked for. -/
  stopRequested : Bool

namespace Watcher

variable {τ : Type}

inductive PatternSource
  | text (text : String)
  | compiled (pattern : Pattern)

def PatternSource.compile : PatternSource → Except PatternError Pattern
  | .text source => Pattern.compile source
  | .compiled pattern => .ok pattern

inductive CreationError
  | intervalNotPositive
  | bufferTooSmall
  | pattern (error : PatternError)
  | intervalTooLarge
  deriving DecidableEq

def CreationError.message : CreationError → String
  | intervalNotPositive => "interval must be positive"
  | bufferTooSmall => "buffer_size must be at least 1"
  | pattern error => error.message
  | intervalTooLarge => "int too large to convert to float"

def defaultInterval : Seconds := 1

def defaultBufferSize : Int := 10

/-- A watcher that has not looked at its files yet. -/
def create (source : PatternSource) (interval : Number) (bufferSize : Int) :
    Except CreationError Watcher :=
  if interval.isNonPositive then .error .intervalNotPositive
  else
    match Channel.new? bufferSize, Channel.new? bufferSize with
    | some events, some errors =>
        match source.compile with
        | .error error => .error (.pattern error)
        | .ok pattern =>
            match interval.toFloat? with
            | none => .error .intervalTooLarge
            | some interval =>
                .ok ⟨pattern, interval, events, errors, .uninitialized, .empty, ⟨0, 0, 0⟩, false⟩
    | _, _ => .error .bufferTooSmall

/-- Why the files could not be looked at for the first time. -/
inductive SeedError
  | walk (cause : Failure)
  | file (name : String) (cause : Failure)
  | fault (failure : Failure)
  deriving DecidableEq

def SeedError.message : SeedError → String
  | walk cause => "failed to determine initial state: " ++ cause.message
  | file name cause =>
      "failed to determine initial state of " ++ Text.quote name ++ ": " ++ cause.message
  | fault failure => failure.message

/-- The directory whose files are watched, as the file system names it. -/
def root : String := "."

/-- The times of the named files, in addition to those already found. -/
def timesOf (fileSystem : FileSystem) (found : Times) : List String → Except SeedError Times
  | [] => .ok found
  | name :: later =>
      match fileSystem.timeOf name with
      | .ok time => timesOf fileSystem (found.insert name time) later
      | .error failure =>
          .error (if failure.isOfFiles then .file name failure else .fault failure)

def seed (pattern : Pattern) (fileSystem : FileSystem) : Except SeedError Times :=
  match pattern.glob fileSystem root with
  | .ok names => timesOf fileSystem .empty names
  | .error failure => .error (if failure.isOfWalk then .walk failure else .fault failure)

/-- Operations that are allowed in one state of a watcher's life only. -/
inductive Operation
  | prepare
  | start
  | tick
  deriving DecidableEq, Repr

def Operation.name : Operation → String
  | prepare => "initialize"
  | start => "start"
  | tick => "tick"

inductive StartError
  | wrongState (operation : Operation) (lifecycle : Lifecycle)
  | seed (error : SeedError)
  deriving DecidableEq

def StartError.message : StartError → String
  | wrongState operation lifecycle =>
      "cannot " ++ operation.name ++ " a watcher in state " ++ lifecycle.name
  | seed error => error.message

/-- Learns the current times without reporting anything. -/
def prepare (watcher : Watcher τ) (fileSystem : FileSystem) : Except StartError (Watcher τ) :=
  if watcher.lifecycle = .uninitialized then
    match seed watcher.pattern fileSystem with
    | .ok times => .ok { watcher with tracked := times, lifecycle := .ready }
    | .error error => .error (.seed error)
  else .error (.wrongState .prepare watcher.lifecycle)

/-- Enters the running state, after a first look at the files if there was none. -/
def start (watcher : Watcher τ) (fileSystem : FileSystem) : Except StartError (Watcher τ) := do
  let watcher ←
    if watcher.lifecycle = .uninitialized then watcher.prepare fileSystem else .ok watcher
  if watcher.lifecycle = .ready then .ok { watcher with lifecycle := .running }
  else .error (.wrongState .start watcher.lifecycle)

/-- Ends the watcher's life. The owners of passes that waited on a channel are woken. -/
def shutdown (watcher : Watcher τ) : Watcher τ × List Owner :=
  let (events, eventWriters) := watcher.events.close
  let (errors, errorWriters) := watcher.errors.close
  ({ watcher with lifecycle := .closed, tracked := .empty, events, errors },
    eventWriters ++ errorWriters)

end Watcher

end TreeWatch
