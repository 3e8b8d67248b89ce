import TreeWatch.Watcher.Pass
import TreeWatch.Watcher.Schedule

/-!
A watcher among its surroundings: the files, the clock, the loop that makes passes by itself, and
the calls that are in flight.

The clock stands still while anything happens and moves only when it is told to. Whoever can go
on is queued in `ready`; a resumed pass runs until it ends or has to wait for room, and the loop
is resumed once for each look at the clock and once for each stretch of a pass.
-/

namespace TreeWatch

namespace Session

/-- What the loop of a watcher is doing. A pass or a sleep is kept with the time at which the
last pass began. -/
inductive Loop (τ : Type := Seconds)
  /-- The watcher has not been started. -/
  | idle
  | deciding (started : τ)
  | sleeping (started wake : τ)
  | passing (started : τ) (pass : Pass)
  | ended

inductive Outlet
  | events
  | errors
  deriving DecidableEq, Repr

inductive Item
  | event (event : Event)
  | failure (failure : Failure)
  deriving DecidableEq

inductive Reply
  | done
  | events (events : List Event)
  | item (item : Item)
  | items (items : List Item) (ending : Channel.Refusal)
  | refused (refusal : Channel.Refusal)
  | notStarted (error : Watcher.StartError)
  | passFailed (error : PassError)

end Session

structure Session (τ : Type := Seconds) where
  watcher : Watcher τ
  fileSystem : FileSystem
  clock : τ
  /-- Whether the cancel flag is set. -/
  cancelled : Bool
  /-- Whether the loop looks at the cancel flag. -/
  cancellable : Bool
  loop : Session.Loop τ
  /-- The passes that callers make, by the number of the call. -/
  passes : List (Nat × Pass)
  /-- Calls that wait for the end of the loop. -/
  closers : List Nat
  /-- Those who can go on, in the order in which they are due. -/
  ready : List Owner
  replies : List (Nat × Session.Reply)

namespace Session

variable {τ : Type}

/-- How long a set cancel flag may go unnoticed. -/
def cancelSlice [OfScientific τ] : τ := 0.05

def ofWatcher [Zero τ] (watcher : Watcher τ) (fileSystem : FileSystem) : Session τ where
  watcher
  fileSystem
  clock := 0
  cancelled := false
  cancellable := false
  loop := .idle
  passes := []
  closers := []
  ready := []
  replies := []

def reply (session : Session τ) (id : Nat) (answer : Reply) : Session τ :=
  { session with replies := session.replies ++ [(id, answer)] }

def wake (session : Session τ) (owners : List Owner) : Session τ :=
  { session with ready := session.ready ++ owners }

/-- Lets an owner go on before all others. -/
def goOn (session : Session τ) (owner : Owner) : Session τ :=
  { session with ready := owner :: session.ready }

def shutdown (session : Session τ) : Session τ :=
  let (watcher, woken) := session.watcher.shutdown
  { session with watcher }.wake woken

/-- Ends the loop, which those who wait for it are told. -/
def endLoop (session : Session τ) : Session τ :=
  let session := session.shutdown
  { session with
    loop := .ended
    closers := []
    replies := session.replies ++ session.closers.map (·, .done) }

def replyOfPass : Except PassError (List Event) → Reply
  | .ok events => .events events
  | .error error => .passFailed error

def resumeCaller (session : Session τ) (id : Nat) : Session τ :=
  match session.passes.lookup id with
  | none => session
  | some pass =>
      match session.watcher.run (.caller id) session.fileSystem pass with
      | (watcher, .suspended pass) =>
          { session with
            watcher
            passes := session.passes.map fun entry => if entry.1 = id then (id, pass) else entry }
      | (watcher, .ended result) =>
          { session with watcher, passes := session.passes.filter (·.1 != id) }.reply id
            (replyOfPass result)

section Clock

variable [Sub τ] [Zero τ] [LE τ] [DecidableLE τ] [LT τ] [DecidableLT τ] [OfScientific τ]

def decision (session : Session τ) (started : τ) : Schedule.Decision τ :=
  Schedule.decide session.watcher.interval (if session.cancellable then some cancelSlice else none)
    (session.cancellable && session.cancelled) session.watcher.stopRequested started session.clock

variable [Add τ]

/-- Resumes the loop. A pass that fails ends it. -/
def resumeLoop (session : Session τ) : Session τ :=
  match session.loop with
  | .idle => session
  | .ended => session
  | .sleeping started _ => { session with loop := .deciding started }.goOn .loop
  | .deciding started =>
      match session.decision started with
      | .stop => session.endLoop
      | .tick => { session with loop := .passing session.clock .begin }.goOn .loop
      | .sleep duration =>
          { session with loop := .sleeping started (session.clock + duration) }
  | .passing started pass =>
      match session.watcher.run .loop session.fileSystem pass with
      | (watcher, .suspended pass) => { session with watcher, loop := .passing started pass }
      | (watcher, .ended (.ok _)) =>
          { session with watcher, loop := .deciding started }.goOn .loop
      | (watcher, .ended (.error _)) => { session with watcher }.endLoop

def resume (session : Session τ) : Owner → Session τ
  | .caller id => session.resumeCaller id
  | .loop => session.resumeLoop

def settleWithin : (steps : Nat) → Session τ → Session τ
  | 0, session => session
  | steps + 1, session =>
      match session.ready with
      | [] => session
      | owner :: later => settleWithin steps ({ session with ready := later }.resume owner)

/-- Resumes all who can go on until none is left. While the clock stands still the loop begins at
most one pass after the one it is making, and a caller is woken at most once by room and once by
the end of the watcher's life. -/
def settle (session : Session τ) : Session τ :=
  settleWithin (8 + 3 * (session.passes.length + session.ready.length)) session

end Clock

/-- Wakes the loop if its sleep is over. -/
def rouse [LE τ] [DecidableLE τ] (session : Session τ) : Session τ :=
  match session.loop with
  | .sleeping _ wake =>
      if session.watcher.stopRequested || wake ≤ session.clock then session.wake [.loop]
      else session
  | _ => session

def take (session : Session τ) : Outlet → Session τ × Except Channel.Refusal Item
  | .events =>
      match session.watcher.events.take with
      | .drained => (session, .error .drained)
      | .empty => (session, .error .nothingYet)
      | .taken event channel woken =>
          ({ session with watcher := { session.watcher with events := channel } }.wake woken.toList,
            .ok (.event event))
  | .errors =>
      match session.watcher.errors.take with
      | .drained => (session, .error .drained)
      | .empty => (session, .error .nothingYet)
      | .taken failure channel woken =>
          ({ session with watcher := { session.watcher with errors := channel } }.wake woken.toList,
            .ok (.failure failure))

/-- The paths and events that a pass still has before it. -/
def extent : Pass → Nat
  | .begin => 0
  | .look left seen => left.length + seen.entries.length
  | .complain _ next => extent next
  | .publish left _ => left.length

def loopExtent : Loop τ → Nat
  | .passing _ pass => extent pass
  | _ => 0

def callerExtent : List (Nat × Pass) → Nat
  | [] => 0
  | (_, pass) :: passes => extent pass + callerExtent passes

/-- Bounds the paths that passes can be about before the clock moves. -/
def pathBound (session : Session τ) : Nat :=
  session.watcher.tracked.entries.length +
    (session.passes.length + 3) * (session.fileSystem.walk Watcher.root).entries.length +
    callerExtent session.passes + loopExtent session.loop

/-- Bounds the items that can be taken before the clock moves. -/
def itemBound (session : Session τ) : Nat :=
  session.watcher.events.items.length + session.watcher.errors.items.length +
    (session.passes.length + 3) * (3 * session.pathBound + 2)

section Clock

variable [Add τ] [Sub τ] [Zero τ] [LE τ] [DecidableLE τ] [LT τ] [DecidableLT τ]
  [OfScientific τ]

/-- Takes items, letting everybody go on before each, until there is none. -/
def drainWithin : (count : Nat) → Outlet → List Item → Session τ → Session τ × Reply
  | 0, _, taken, session => (session, .items taken .nothingYet)
  | count + 1, outlet, taken, session =>
      match session.settle.take outlet with
      | (session, .ok item) => drainWithin count outlet (taken ++ [item]) session
      | (session, .error refusal) => (session, .items taken refusal)

def drain (session : Session τ) (outlet : Outlet) : Session τ × Reply :=
  drainWithin (session.itemBound + 1) outlet [] session

end Clock

/-- Asks the watcher to stop. Without a loop its life ends at once; otherwise the call is over
when the loop has ended or when it has been given up. -/
def close [LE τ] [DecidableLE τ] (session : Session τ) (id : Nat) (limited : Bool) : Session τ :=
  if session.watcher.lifecycle = .closed then session.reply id .done
  else
    let session :=
      { session with watcher := { session.watcher with stopRequested := true } }
    match session.loop with
    | .idle => session.shutdown.reply id .done
    | _ =>
        if limited then session.rouse.reply id .done
        else { session with closers := session.closers ++ [id] }.rouse

end Session

end TreeWatch
