import TreeWatch.Proofs.Watcher.Passes
import TreeWatch.Watcher.Transcript

/-!
What may happen to a watcher, move by move.

A move is a call, a reading of a channel, a change of the surroundings, or one step of somebody who
makes a pass or sleeps. Anybody may be resumed at any time; whoever still has to wait waits again.
A reader that waits for an item is one that has not made its move yet. Settling a session makes
such moves only, so what holds after all moves holds of every transcript.
-/

namespace TreeWatch

namespace Watcher

section Run

variable {τ : Type} {watcher after : Watcher τ} {owner : Owner} {fileSystem : FileSystem}
  {pass next : Pass}
  {result : Except PassError (List Event)}

theorem run_of_onward (stepped : watcher.step owner fileSystem pass = (after, .onward next)) :
    watcher.run owner fileSystem pass = after.run owner fileSystem next := by
  rw [run]
  split <;> rename_i stepped' <;> cases stepped.symm.trans stepped'
  rfl

theorem run_of_waits (stepped : watcher.step owner fileSystem pass = (after, .waits)) :
    watcher.run owner fileSystem pass = (after, .suspended pass) := by
  rw [run]
  split <;> rename_i stepped' <;> cases stepped.symm.trans stepped'
  rfl

theorem run_of_ended (stepped : watcher.step owner fileSystem pass = (after, .ended result)) :
    watcher.run owner fileSystem pass = (after, .ended result) := by
  rw [run]
  split <;> rename_i stepped' <;> cases stepped.symm.trans stepped'
  rfl

end Run

end Watcher

namespace Session

open Relation (ReflTransGen)

/-- What the loop may be doing in each state of the watcher's life. -/
inductive Suits {τ : Type} : Lifecycle → Loop τ → Prop
  | uninitialized : Suits .uninitialized .idle
  | ready : Suits .ready .idle
  | deciding (started : τ) : Suits .running (.deciding started)
  | sleeping (started wake : τ) : Suits .running (.sleeping started wake)
  | passing (started : τ) (pass : Pass) : Suits .running (.passing started pass)
  | unstarted : Suits .closed .idle
  | ended : Suits .closed .ended

section Suits

variable {τ : Type} {lifecycle : Lifecycle} {loop : Loop τ}

theorem idle_of_suits (suits : Suits lifecycle loop)
    (fresh : lifecycle = .uninitialized ∨ lifecycle = .ready) : loop = .idle := by
  rcases fresh with rfl | rfl <;> cases suits <;> rfl

theorem running_of_suits (suits : Suits lifecycle loop) (begun : loop ≠ .idle)
    (unended : loop ≠ .ended) : lifecycle = .running := by
  cases suits with
  | deciding | sleeping | passing => rfl
  | uninitialized | ready | unstarted => exact absurd rfl begun
  | ended => exact absurd rfl unended

theorem ended_of_suits (suits : Suits .closed loop) (begun : loop ≠ .idle) : loop = .ended := by
  cases suits with
  | unstarted => exact absurd rfl begun
  | ended => rfl

end Suits

def passOf? (session : Session) : Owner → Option Pass
  | .caller id => session.passes.lookup id
  | .loop =>
      match session.loop with
      | .passing _ pass => some pass
      | _ => none

def withWatcher (session : Session) (watcher : Watcher) : Session := { session with watcher }

def keepPass (session : Session) (owner : Owner) (pass : Pass) : Session :=
  match owner with
  | .caller id =>
      { session with
        passes := session.passes.map fun entry => if entry.1 = id then (id, pass) else entry }
  | .loop =>
      match session.loop with
      | .passing started _ => { session with loop := .passing started pass }
      | _ => session

/-- Ends the pass of an owner. A failure ends the loop with it. -/
def endPass (session : Session) (owner : Owner) (result : Except PassError (List Event)) :
    Session :=
  match owner with
  | .caller id =>
      { session with passes := session.passes.filter (·.1 != id) }.reply id (replyOfPass result)
  | .loop =>
      match session.loop, result with
      | .passing started _, .ok _ => { session with loop := .deciding started }.goOn .loop
      | _, _ => session.endLoop

def stepPass (session : Session) (owner : Owner) (pass : Pass) : Session :=
  match session.watcher.step owner session.fileSystem pass with
  | (watcher, .onward next) => ((session.withWatcher watcher).keepPass owner next).goOn owner
  | (watcher, .waits) => (session.withWatcher watcher).keepPass owner pass
  | (watcher, .ended result) => (session.withWatcher watcher).endPass owner result

/-- Takes one step of an owner: of its pass, or of the loop's waiting for the next one. -/
def stepOwner (session : Session) (owner : Owner) : Session :=
  match session.passOf? owner with
  | some pass => session.stepPass owner pass
  | none => session.resume owner

def Command.Reads {τ : Type} : Command τ → Prop
  | .get _ => True
  | .drain _ => True
  | _ => False

section Serving

variable {τ : Type} [Add τ] [Sub τ] [Zero τ] [LE τ] [DecidableLE τ] [LT τ] [DecidableLT τ]
  [OfScientific τ]

/-- Relations that hold between a session and what becomes of it when somebody goes on, an item is
taken or answers are given. -/
structure Serves (leads : Session τ → Session τ → Prop) : Prop where
  refl (session : Session τ) : leads session session
  trans {session later final : Session τ} :
    leads session later → leads later final → leads session final
  resume {session : Session τ} {owner : Owner} {later : List Owner} :
    session.ready = owner :: later → leads session ({ session with ready := later }.resume owner)
  take {session : Session τ} (outlet : Outlet) : leads session (session.take outlet).1
  answer {session : Session τ} (replies : List (Nat × Reply)) :
    leads session { session with replies }

def Throughout (allows : Session τ → Command τ → Prop) :
    Session τ → Nat → List (Command τ) → Prop
  | _, _, [] => True
  | session, id, command :: later =>
      allows session command ∧
        Throughout allows { (session.perform id command).settle with replies := [] } (id + 1) later

namespace Serves

variable {leads : Session τ → Session τ → Prop} {session : Session τ}

theorem settleWithin (serves : Serves leads) (steps : Nat) :
    leads session (session.settleWithin steps) := by
  induction steps generalizing session with
  | zero => exact serves.refl session
  | succ steps inductionHypothesis =>
      unfold Session.settleWithin
      cases queue : session.ready with
      | nil => exact serves.refl session
      | cons owner later => exact serves.trans (serves.resume queue) inductionHypothesis

theorem settle (serves : Serves leads) : leads session session.settle :=
  serves.settleWithin _

theorem drainWithin (serves : Serves leads) (count : Nat) (outlet : Outlet) (taken : List Item) :
    leads session (session.drainWithin count outlet taken).1 := by
  induction count generalizing session taken with
  | zero => exact serves.refl session
  | succ count inductionHypothesis =>
      have reads : leads session (session.settle.take outlet).1 :=
        serves.trans serves.settle (serves.take outlet)
      unfold Session.drainWithin
      split <;> rename_i answered <;> rw [answered] at reads
      · exact serves.trans reads (inductionHypothesis _)
      · exact reads

theorem reply (serves : Serves leads) (id : Nat) (reply : Reply) :
    leads session (session.reply id reply) :=
  serves.answer _

theorem perform (serves : Serves leads) {id : Nat} {command : Command τ}
    (calls : ¬command.Reads → leads session (session.perform id command)) :
    leads session (session.perform id command).settle := by
  apply serves.trans _ serves.settle
  cases command with
  | get outlet =>
      have reads : leads session (session.take outlet).1 := serves.take outlet
      unfold Session.perform
      dsimp only
      split <;> rename_i answered <;> rw [answered] at reads <;>
        exact serves.trans reads (serves.reply _ _)
  | drain outlet =>
      have reads : leads session (session.drain outlet).1 := serves.drainWithin _ _ _
      exact serves.trans reads (serves.reply _ _)
  | replaceFiles | prepare | start | tick | cancel | advance | close =>
      exact calls fun reads => reads

theorem transcript (serves : Serves leads) {allows : Session τ → Command τ → Prop} {id : Nat}
    {commands : List (Command τ)}
    (calls : ∀ session id command, allows session command → ¬command.Reads →
      leads session (session.perform id command))
    (allowed : session.Throughout allows id commands) :
    leads session (session.transcript id commands).2 := by
  induction commands generalizing session id with
  | nil => exact serves.refl session
  | cons command later inductionHypothesis =>
      obtain ⟨now, rest⟩ := allowed
      have performs : leads session (session.perform id command).settle :=
        serves.perform (calls session id command now)
      have forgets : leads session { (session.perform id command).settle with replies := [] } :=
        serves.trans performs (serves.answer [])
      exact serves.trans forgets (inductionHypothesis rest)

end Serves

end Serving

def Command.Interferes : Command → Prop
  | .start _ => True
  | .tick => True
  | .close _ => True
  | _ => False

inductive Move
  | call (id : Nat) (command : Command)
  | take (outlet : Outlet)
  | resume (owner : Owner)
  /-- Nobody looks at the answers that have been given, so they may be anything. -/
  | answer (replies : List (Nat × Reply))

def move (session : Session) : Move → Session
  | .call id command => session.perform id command
  | .take outlet => (session.take outlet).1
  | .resume owner => { session with ready := session.ready.erase owner }.stepOwner owner
  | .answer replies => { session with replies }

/-- Whether this is a single move. Readings are moves of their own, one for each item. -/
def Move.Single : Move → Prop
  | .call _ command => ¬command.Reads
  | _ => True

/-- Whether a move is in order: nobody starts, ticks or closes while a caller makes a pass. -/
def Permits (session : Session) : Move → Prop
  | .call _ command => ¬command.Reads ∧ (command.Interferes → session.passes = [])
  | _ => True

inductive OrderlyStep : Session → Session → Prop
  | move {session : Session} (move : Move) (permitted : session.Permits move) :
      OrderlyStep session (session.move move)

section Runs

variable {session : Session} {owner : Owner} {pass next : Pass}

theorem passing_of_passOf?_loop (found : session.passOf? .loop = some pass) :
    ∃ started, session.loop = .passing started pass := by
  unfold passOf? at found
  cases loop : session.loop with
  | passing started current =>
      rw [loop] at found
      cases found
      exact ⟨started, rfl⟩
  | idle | deciding | sleeping | ended =>
      rw [loop] at found
      cases found

theorem lookup_keep {passes : List (Nat × Pass)} {id : Nat}
    (found : passes.lookup id = some pass) :
    (passes.map fun entry => if entry.1 = id then (id, next) else entry).lookup id = some next := by
  induction passes with
  | nil => cases found
  | cons entry later inductionHypothesis =>
      obtain ⟨key, value⟩ := entry
      rw [List.map_cons]
      by_cases same : key = id
      · rw [if_pos same, List.lookup_cons_self]
      · have different : (id == key) = false := by simpa using Ne.symm same
        rw [if_neg same, List.lookup_cons, different]
        rw [List.lookup_cons, different] at found
        exact inductionHypothesis found

theorem filter_keep (passes : List (Nat × Pass)) (id : Nat) (next : Pass) :
    (passes.map fun entry => if entry.1 = id then (id, next) else entry).filter (·.1 != id) =
      passes.filter (·.1 != id) := by
  induction passes with
  | nil => rfl
  | cons entry later inductionHypothesis =>
      by_cases same : entry.1 = id <;> simp [same, inductionHypothesis]

theorem passOf?_keepPass (found : session.passOf? owner = some pass) :
    (session.keepPass owner next).passOf? owner = some next := by
  cases owner with
  | caller id => exact lookup_keep found
  | loop =>
      obtain ⟨started, passing⟩ := passing_of_passOf?_loop found
      simp only [keepPass, passing, passOf?]

theorem keepPass_keepPass (found : session.passOf? owner = some pass) (last : Pass) :
    (session.keepPass owner next).keepPass owner last = session.keepPass owner last := by
  cases owner with
  | caller id =>
      simp only [keepPass, List.map_map]
      congr 2
      funext entry
      by_cases same : entry.1 = id <;> simp [same]
  | loop =>
      obtain ⟨started, passing⟩ := passing_of_passOf?_loop found
      simp only [keepPass, passing]

theorem endPass_keepPass (found : session.passOf? owner = some pass)
    (result : Except PassError (List Event)) :
    (session.keepPass owner next).endPass owner result = session.endPass owner result := by
  cases owner with
  | caller id => simp only [keepPass, endPass, filter_keep]
  | loop =>
      obtain ⟨started, passing⟩ := passing_of_passOf?_loop found
      cases result <;> simp only [keepPass, endPass, passing, goOn, endLoop]; rfl

theorem resume_eq (found : session.passOf? owner = some pass) :
    session.resume owner =
      match session.watcher.run owner session.fileSystem pass with
      | (watcher, .suspended pass) => (session.withWatcher watcher).keepPass owner pass
      | (watcher, .ended result) => (session.withWatcher watcher).endPass owner result := by
  cases owner with
  | caller id =>
      have found : session.passes.lookup id = some pass := found
      simp only [resume, resumeCaller, found]
      split <;> rename_i ran <;> simp only [ran, withWatcher, keepPass, endPass]
  | loop =>
      obtain ⟨started, passing⟩ := passing_of_passOf?_loop found
      simp only [resume, resumeLoop, passing]
      split <;> rename_i ran <;> simp only [ran, withWatcher, keepPass, endPass, passing]

theorem single_of_permits {move : Move} (permitted : session.Permits move) : move.Single := by
  cases move with
  | call id command => exact permitted.1
  | take outlet => trivial
  | resume owner => trivial
  | answer replies => trivial

theorem watcher_keepPass : (session.keepPass owner pass).watcher = session.watcher := by
  cases owner with
  | caller id => rfl
  | loop => cases loop : session.loop <;> simp only [keepPass, loop]

theorem fileSystem_keepPass : (session.keepPass owner pass).fileSystem = session.fileSystem := by
  cases owner with
  | caller id => rfl
  | loop => cases loop : session.loop <;> simp only [keepPass, loop]

theorem withWatcher_keepPass (watcher : Watcher) :
    (session.keepPass owner pass).withWatcher watcher =
      (session.withWatcher watcher).keepPass owner pass := by
  cases owner with
  | caller id => rfl
  | loop => cases loop : session.loop <;> simp only [withWatcher, keepPass, loop]

theorem move_goOn (found : session.passOf? owner = some pass) :
    ((session.keepPass owner next).goOn owner).move (.resume owner) =
      (session.keepPass owner next).stepPass owner next := by
  simp only [move, goOn, List.erase_cons_head, stepOwner, passOf?_keepPass found]

/-- Resuming a pass until it ends or has to wait takes one step of it after another. -/
theorem leads_run {watcher : Watcher} {fileSystem : FileSystem}
    (sameWatcher : session.watcher = watcher) (sameFiles : session.fileSystem = fileSystem)
    (found : session.passOf? owner = some pass) :
    ReflTransGen OrderlyStep (session.stepPass owner pass) (session.resume owner) := by
  -- The session is general: each step of the run leaves a session that is resumed in its turn.
  fun_induction Watcher.run watcher owner fileSystem pass generalizing session with
  | case1 watcher pass after next stepped inductionHypothesis =>
      have kept (watcher : Watcher) : (session.withWatcher watcher).passOf? owner = some pass :=
        found
      let later := (session.withWatcher after).keepPass owner next
      have laterFound : later.passOf? owner = some next := passOf?_keepPass (kept after)
      have laterWatcher : later.watcher = after := watcher_keepPass
      have laterFiles : later.fileSystem = fileSystem := fileSystem_keepPass.trans sameFiles
      have steps : session.stepPass owner pass = later.goOn owner := by
        rw [stepPass, sameWatcher, sameFiles, stepped]
      have resumes : later.resume owner = session.resume owner := by
        rw [resume_eq laterFound, resume_eq found, laterWatcher, laterFiles, sameWatcher, sameFiles,
          Watcher.run_of_onward stepped]
        have laterWith (watcher : Watcher) : later.withWatcher watcher =
            (session.withWatcher watcher).keepPass owner next := withWatcher_keepPass watcher
        cases after.run owner fileSystem next with
        | mk final outcome =>
            cases outcome with
            | suspended last =>
                simp only [laterWith]
                exact keepPass_keepPass (kept final) last
            | ended result =>
                simp only [laterWith]
                exact endPass_keepPass (kept final) result
      have moves : OrderlyStep (later.goOn owner) (later.stepPass owner next) := by
        rw [← move_goOn (kept after)]
        exact .move (.resume owner) trivial
      rw [steps, ← resumes]
      exact .head moves (inductionHypothesis laterWatcher laterFiles laterFound)
  | case2 watcher pass after stepped =>
      rw [resume_eq found, sameWatcher, sameFiles, Watcher.run_of_waits stepped, stepPass,
        sameWatcher, sameFiles, stepped]
  | case3 watcher pass after result stepped =>
      rw [resume_eq found, sameWatcher, sameFiles, Watcher.run_of_ended stepped, stepPass,
        sameWatcher, sameFiles, stepped]

theorem leads_stepOwner :
    ReflTransGen OrderlyStep (session.stepOwner owner) (session.resume owner) := by
  unfold stepOwner
  cases found : session.passOf? owner with
  | none => exact .refl
  | some pass => exact leads_run rfl rfl found

theorem leads_resume {later : List Owner} (queue : session.ready = owner :: later) :
    ReflTransGen OrderlyStep session ({ session with ready := later }.resume owner) := by
  have moved : session.move (.resume owner) =
      { session with ready := later }.stepOwner owner := by
    simp only [move, queue, List.erase_cons_head]
  have first : OrderlyStep session ({ session with ready := later }.stepOwner owner) := by
    rw [← moved]
    exact .move (.resume owner) trivial
  exact .head first leads_stepOwner

theorem serves_orderly : Serves (ReflTransGen OrderlyStep) where
  refl _ := .refl
  trans := .trans
  resume := leads_resume
  take outlet := .single (.move (.take outlet) trivial)
  answer replies := .single (.move (.answer replies) trivial)

def InOrder (session : Session) (id : Nat) (commands : List Command) : Prop :=
  session.Throughout (fun session command => command.Interferes → session.passes = []) id commands

/-- What a transcript leaves behind has come about by moves that are in order, if the commands are
in order. -/
theorem leads_transcript {id : Nat} {commands : List Command}
    (inOrder : session.InOrder id commands) :
    ReflTransGen OrderlyStep session (session.transcript id commands).2 := by
  refine serves_orderly.transcript (fun session id command permitted unread => ?_) inOrder
  exact .single (.move (.call id command) ⟨unread, permitted⟩)

end Runs

end Session

end TreeWatch
