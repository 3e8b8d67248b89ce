import TreeWatch.Watcher.Session

/-!
Running commands on a watcher one after another, and reporting what each of them brings about.

A command is numbered by its place. After each one everybody who can go on does so.
-/

namespace TreeWatch.Session

inductive Command (τ : Type := Seconds)
  | replaceFiles (fileSystem : FileSystem)
  | prepare
  | start (cancellable : Bool)
  | tick
  | cancel
  | advance (duration : τ)
  /-- A limited close gives up when the loop does not end at once. -/
  | close (limited : Bool)
  | get (outlet : Outlet)
  | drain (outlet : Outlet)

structure Report where
  /-- The answer to the command, unless its call still waits. -/
  reply : Option Reply
  /-- Answers to earlier commands that came since the last report, by number. -/
  finished : List (Nat × Reply)
  lifecycle : Lifecycle
  stats : Stats
  eventCount : Nat
  errorCount : Nat
  eventsClosed : Bool
  errorsClosed : Bool

variable {τ : Type}

section Clock

variable [Add τ] [Sub τ] [Zero τ] [LE τ] [DecidableLE τ] [LT τ] [DecidableLT τ]
  [OfScientific τ]

def perform (session : Session τ) (id : Nat) : Command τ → Session τ
  | .replaceFiles fileSystem => { session with fileSystem }.reply id .done
  | .prepare =>
      match session.watcher.prepare session.fileSystem with
      | .ok watcher => { session with watcher }.reply id .done
      | .error error => session.reply id (.notStarted error)
  | .start cancellable =>
      match session.watcher.start session.fileSystem with
      | .ok watcher =>
          ({ session with watcher, cancellable, loop := .deciding session.clock }.wake
            [.loop]).reply id .done
      | .error error => session.reply id (.notStarted error)
  | .tick =>
      if session.watcher.lifecycle = .ready then
        { session with passes := session.passes ++ [(id, Pass.begin)] }.wake [.caller id]
      else session.reply id (.notStarted (.wrongState .tick session.watcher.lifecycle))
  | .cancel => { session with cancelled := true }.reply id .done
  | .advance duration =>
      ({ session with clock := session.clock + duration }.rouse).reply id .done
  | .close limited => session.close id limited
  | .get outlet =>
      match session.take outlet with
      | (session, .ok item) => session.reply id (.item item)
      | (session, .error refusal) => session.reply id (.refused refusal)
  | .drain outlet =>
      let (session, answer) := session.drain outlet
      session.reply id answer

end Clock

def report (session : Session τ) (id : Nat) : Report where
  reply := session.replies.lookup id
  finished :=
    (session.replies.filter (·.1 != id)).mergeSort fun first second => first.1 ≤ second.1
  lifecycle := session.watcher.lifecycle
  stats := session.watcher.stats
  eventCount := session.watcher.events.items.length
  errorCount := session.watcher.errors.items.length
  eventsClosed := session.watcher.events.closed
  errorsClosed := session.watcher.errors.closed

/-- The reports on commands numbered from `id` on, and what they leave behind. -/
def transcript [Add τ] [Sub τ] [Zero τ] [LE τ] [DecidableLE τ] [LT τ] [DecidableLT τ]
    [OfScientific τ] (session : Session τ) (id : Nat) :
    List (Command τ) → List Report × Session τ
  | [] => ([], session)
  | command :: later =>
      let performed := (session.perform id command).settle
      let (reports, left) := transcript { performed with replies := [] } (id + 1) later
      (performed.report id :: reports, left)

def waiting (session : Session τ) : List Nat :=
  (session.passes.map (·.1) ++ session.closers).mergeSort

end TreeWatch.Session
