import TreeWatch.Proofs.Watcher.Moves
import TreeWatch.Proofs.Watcher.Scene

/-!
All that a move in order can do.

As long as nobody starts, ticks or closes while a caller makes a pass, at most one pass is in
flight, and the loop keeps to the state of the watcher's life. Whatever a move does to the watcher
and to that pass is then one of the changes of a scene, so what holds after every change holds of
every run.
-/

namespace TreeWatch

namespace Session

def Loop.flight : Loop → Option (Owner × Pass)
  | passing _ pass => some (.loop, pass)
  | _ => none

def current (session : Session) : Option (Owner × Pass) :=
  match session.passes with
  | (id, pass) :: _ => some (.caller id, pass)
  | [] => session.loop.flight

def scene (session : Session) : Scene := ⟨session.watcher, session.current⟩

/-- The events that a move hands to a reader. -/
def handed (session : Session) : Move → List Event
  | .take .events =>
      match session.watcher.events.take with
      | .taken event _ _ => [event]
      | _ => []
  | _ => []

/-- The events that a move finds by comparison. -/
def compared (session : Session) : Move → List (List Event)
  | .resume owner =>
      match session.passOf? owner with
      | some pass => Scene.comparison session.watcher.tracked pass
      | none => []
  | _ => []

/-- What holds as long as all moves are in order. -/
structure Orderly (session : Session) : Prop where
  suits : Suits session.watcher.lifecycle session.loop
  /-- A caller makes a pass alone, and before the loop is started. -/
  alone : session.passes = [] ∨
    ∃ id pass, session.passes = [(id, pass)] ∧ session.watcher.lifecycle = .ready

/-- All of a session that order is about. -/
def core (session : Session) : Watcher × Loop × List (Nat × Pass) :=
  (session.watcher, session.loop, session.passes)

/-- Whether a move may have led here, as far as order is concerned. -/
def Follows (before : Session) (handed : List Event) (compared : List (List Event))
    (after : Session) : Prop :=
  after.Orderly ∧ Scene.Change before.scene handed compared after.scene

section

variable {session : Session} {id : Nat} {owner : Owner} {pass next : Pass}
  {handed : List Event} {compared : List (List Event)}

theorem current_of_passes (passes : session.passes = [(id, pass)]) :
    session.current = some (.caller id, pass) := by
  simp only [current, passes]

theorem current_of_alone (alone : session.passes = []) : session.current = session.loop.flight := by
  simp only [current, alone]

theorem alone_of_not_ready (orderly : session.Orderly)
    (notReady : session.watcher.lifecycle ≠ .ready) : session.passes = [] := by
  rcases orderly.alone with alone | ⟨_, _, _, ready⟩
  · exact alone
  · exact absurd ready notReady

theorem Follows.of_core {after later : Session} (follows : session.Follows handed compared after)
    (same : later.core = after.core) : session.Follows handed compared later := by
  obtain ⟨orderly, change⟩ := follows
  obtain ⟨watcher, loop, passes⟩ : later.watcher = after.watcher ∧ later.loop = after.loop ∧
      later.passes = after.passes := by
    simpa only [core, Prod.mk.injEq] using same
  have scene : later.scene = after.scene := by
    simp only [Session.scene, current, watcher, loop, passes]
  refine ⟨⟨?_, ?_⟩, ?_⟩
  · rw [watcher, loop]
    exact orderly.suits
  · rw [watcher, passes]
    exact orderly.alone
  · rw [scene]
    exact change

theorem Follows.rouse {after : Session} (follows : session.Follows handed compared after) :
    session.Follows handed compared after.rouse := by
  unfold Session.rouse
  split
  · split
    · exact follows.of_core rfl
    · exact follows
  · exact follows

theorem follows_rest (orderly : session.Orderly) : session.Follows [] [] session :=
  ⟨orderly, .rest⟩

theorem follows_alone (alone : session.passes = []) {old loop : Loop} (was : session.loop = old)
    {watcher : Watcher} (suits : Suits watcher.lifecycle loop)
    (change : Scene.Change ⟨session.watcher, old.flight⟩ handed compared ⟨watcher, loop.flight⟩) :
    session.Follows handed compared { session with watcher, loop } := by
  have before : session.scene = ⟨session.watcher, old.flight⟩ := by
    rw [scene, current_of_alone alone, was]
  have after : scene { session with watcher, loop } = ⟨watcher, loop.flight⟩ := by
    simp only [scene, current, alone]
  refine ⟨⟨suits, .inl alone⟩, ?_⟩
  rw [before, after]
  exact change

theorem follows_take (orderly : session.Orderly) (outlet : Outlet) :
    session.Follows (session.handed (.take outlet)) [] (session.take outlet).1 := by
  cases outlet with
  | events =>
      unfold take Session.handed
      cases taken : session.watcher.events.take with
      | drained => exact follows_rest orderly
      | empty => exact follows_rest orderly
      | taken event channel woken => exact ⟨⟨orderly.suits, orderly.alone⟩, .takeEvent taken⟩
  | errors =>
      unfold take Session.handed
      cases taken : session.watcher.errors.take with
      | drained => exact follows_rest orderly
      | empty => exact follows_rest orderly
      | taken failure channel woken => exact ⟨⟨orderly.suits, orderly.alone⟩, .takeFailure taken⟩

theorem follows_prepare (orderly : session.Orderly) {watcher : Watcher}
    (prepared : session.watcher.prepare session.fileSystem = .ok watcher) :
    session.Follows [] [] { session with watcher } := by
  obtain ⟨uninitialized, times, rfl⟩ := Watcher.lifecycle_of_prepare prepared
  have alone : session.passes = [] := alone_of_not_ready orderly (by simp [uninitialized])
  have idle : session.loop = .idle := idle_of_suits orderly.suits (.inl uninitialized)
  have follows : session.Follows [] []
      { session with
        watcher := { session.watcher with tracked := times, lifecycle := .ready }
        loop := .idle } :=
    follows_alone alone idle .ready (.prepare prepared)
  apply follows.of_core
  simp only [core, idle]

theorem follows_start (orderly : session.Orderly) (alone : session.passes = []) {watcher : Watcher}
    (started : session.watcher.start session.fileSystem = .ok watcher) (time : Seconds) :
    session.Follows [] [] { session with watcher, loop := .deciding time } := by
  obtain ⟨fresh, times, rfl⟩ := Watcher.lifecycle_of_start started
  have idle : session.loop = .idle := idle_of_suits orderly.suits fresh
  exact follows_alone alone idle (.deciding time) (.start started)

theorem follows_tick (orderly : session.Orderly) (alone : session.passes = [])
    (ready : session.watcher.lifecycle = .ready) (id : Nat) :
    session.Follows [] [] { session with passes := session.passes ++ [(id, .begin)] } := by
  have idle : session.loop = .idle := idle_of_suits orderly.suits (.inr ready)
  refine ⟨⟨orderly.suits, .inr ⟨id, .begin, ?_, ready⟩⟩, ?_⟩
  · rw [alone, List.nil_append]
  · rw [scene, current_of_alone alone, idle]
    simp only [scene, current, alone, List.nil_append]
    exact .begin (.caller id) (.inl ready)

theorem follows_close (orderly : session.Orderly) (alone : session.passes = []) (id : Nat)
    (limited : Bool) : session.Follows [] [] (session.close id limited) := by
  unfold close
  split
  · exact (follows_rest orderly).of_core rfl
  · dsimp only
    split
    · rename_i idle
      have follows : session.Follows [] []
          { session with
            watcher := { session.watcher with stopRequested := true }.shutdown.1
            loop := .idle } :=
        follows_alone alone idle .unstarted (.shutdown true)
      apply follows.of_core
      simp only [core, reply, shutdown, wake, idle]
    · have requests : session.Follows [] []
          { session with watcher := { session.watcher with stopRequested := true } } :=
        ⟨⟨orderly.suits, orderly.alone⟩, .requestStop⟩
      split
      · exact requests.rouse.of_core rfl
      · have queued : session.Follows [] []
            { session with
              watcher := { session.watcher with stopRequested := true }
              closers := session.closers ++ [id] } :=
          requests.of_core rfl
        exact queued.rouse

theorem follows_call (orderly : session.Orderly) (id : Nat) {command : Command}
    (permitted : session.Permits (.call id command)) :
    session.Follows [] [] (session.perform id command) := by
  obtain ⟨unread, free⟩ := permitted
  have rests : session.Follows [] [] session := follows_rest orderly
  cases command with
  | replaceFiles fileSystem => exact rests.of_core rfl
  | cancel => exact rests.of_core rfl
  | advance duration =>
      have moved : session.Follows [] [] { session with clock := session.clock + duration } :=
        rests.of_core rfl
      exact moved.rouse.of_core rfl
  | get outlet => exact absurd trivial unread
  | drain outlet => exact absurd trivial unread
  | prepare =>
      simp only [perform]
      split <;> rename_i prepared
      · exact (follows_prepare orderly prepared).of_core rfl
      · exact rests.of_core rfl
  | start cancellable =>
      simp only [perform]
      split <;> rename_i started
      · exact (follows_start orderly (free trivial) started _).of_core rfl
      · exact rests.of_core rfl
  | tick =>
      simp only [perform]
      split <;> rename_i ready
      · exact (follows_tick orderly (free trivial) ready id).of_core rfl
      · exact rests.of_core rfl
  | close limited => exact follows_close orderly (free trivial) id limited

theorem flight_eq_some {loop : Loop} (found : loop.flight = some (owner, pass)) :
    owner = .loop ∧ ∃ started, loop = .passing started pass := by
  cases loop with
  | passing started own =>
      cases found
      exact ⟨rfl, started, rfl⟩
  | idle | deciding | sleeping | ended => cases found

theorem passes_of_current (orderly : session.Orderly)
    (found : session.current = some (.caller id, pass)) :
    session.passes = [(id, pass)] ∧ session.watcher.lifecycle = .ready ∧ session.loop = .idle := by
  rcases orderly.alone with alone | ⟨other, own, passes, ready⟩
  · rw [current_of_alone alone] at found
    cases (flight_eq_some found).1
  · rw [current_of_passes passes] at found
    cases found
    exact ⟨passes, ready, idle_of_suits orderly.suits (.inr ready)⟩

theorem loop_of_current (orderly : session.Orderly)
    (found : session.current = some (.loop, pass)) :
    session.passes = [] ∧ ∃ started, session.loop = .passing started pass := by
  rcases orderly.alone with alone | ⟨other, own, passes, ready⟩
  · rw [current_of_alone alone] at found
    exact ⟨alone, (flight_eq_some found).2⟩
  · rw [current_of_passes passes] at found
    cases found

theorem current_of_passOf? (orderly : session.Orderly) (found : session.passOf? owner = some pass) :
    session.current = some (owner, pass) := by
  rcases orderly.alone with alone | ⟨id, own, passes, ready⟩
  · cases owner with
    | caller id =>
        simp only [passOf?, alone, List.lookup_nil] at found
        cases found
    | loop =>
        obtain ⟨started, passing⟩ := passing_of_passOf?_loop found
        rw [current_of_alone alone, passing, Loop.flight]
  · rw [current_of_passes passes]
    cases owner with
    | caller other =>
        simp only [passOf?, passes, List.lookup_cons, List.lookup_nil] at found
        split at found <;> cases found
        rename_i same
        rw [beq_iff_eq.mp same]
    | loop =>
        obtain ⟨started, passing⟩ := passing_of_passOf?_loop found
        cases passing.symm.trans (idle_of_suits orderly.suits (.inr ready))

variable {after : Watcher} {result : Except PassError (List Event)}

theorem follows_keepPass (orderly : session.Orderly)
    (found : session.current = some (owner, pass)) (frame : Watcher.Frame session.watcher after)
    (change : Scene.Change ⟨session.watcher, some (owner, pass)⟩ [] compared
      ⟨after, some (owner, next)⟩) :
    session.Follows [] compared ((session.withWatcher after).keepPass owner next) := by
  have suits : Suits after.lifecycle session.loop := frame.lifecycle ▸ orderly.suits
  cases owner with
  | caller id =>
      obtain ⟨passes, ready, _⟩ := passes_of_current orderly found
      have follows : session.Follows [] compared
          { session with watcher := after, passes := [(id, next)] } := by
        refine ⟨⟨suits, .inr ⟨id, next, rfl, frame.lifecycle.trans ready⟩⟩, ?_⟩
        rw [scene, found]
        exact change
      apply follows.of_core
      simp only [core, keepPass, withWatcher, passes, List.map_cons, List.map_nil, if_true]
  | loop =>
      obtain ⟨alone, started, passing⟩ := loop_of_current orderly found
      rw [passing] at suits
      have running : after.lifecycle = .running := running_of_suits suits (by simp) (by simp)
      have passes : Suits after.lifecycle (.passing started next) := by
        rw [running]
        exact .passing started next
      simp only [keepPass, withWatcher, passing]
      exact follows_alone alone passing passes change

theorem follows_endPass (orderly : session.Orderly)
    (found : session.current = some (owner, pass))
    (stepped : session.watcher.step owner session.fileSystem pass = (after, .ended result)) :
    session.Follows [] (Scene.comparison session.watcher.tracked pass)
      ((session.withWatcher after).endPass owner result) := by
  have suits : Suits after.lifecycle session.loop :=
    (Watcher.frame_of_step stepped).lifecycle ▸ orderly.suits
  cases owner with
  | caller id =>
      obtain ⟨passes, _, idle⟩ := passes_of_current orderly found
      have follows : session.Follows [] (Scene.comparison session.watcher.tracked pass)
          { session with watcher := after, passes := [] } := by
        refine ⟨⟨suits, .inl rfl⟩, ?_⟩
        rw [scene, found, scene]
        simp only [current, idle]
        exact .step stepped
      apply follows.of_core
      simp [core, endPass, withWatcher, reply, passes]
  | loop =>
      obtain ⟨alone, started, passing⟩ := loop_of_current orderly found
      rw [passing] at suits
      have running : after.lifecycle = .running := running_of_suits suits (by simp) (by simp)
      have decides : Suits after.lifecycle (.deciding started) := by
        rw [running]
        exact .deciding started
      cases result with
      | ok events =>
          simp only [endPass, withWatcher, passing]
          exact (follows_alone alone passing decides (.step stepped)).of_core rfl
      | error error =>
          have follows : session.Follows [] (Scene.comparison session.watcher.tracked pass)
              { session with watcher := after.shutdown.1, loop := .ended } :=
            follows_alone alone passing .ended (.broken stepped)
          simp only [endPass, withWatcher, passing]
          exact follows.of_core rfl

theorem follows_stepPass (orderly : session.Orderly)
    (found : session.current = some (owner, pass)) :
    session.Follows [] (Scene.comparison session.watcher.tracked pass)
      (session.stepPass owner pass) := by
  unfold stepPass
  split <;> rename_i stepped
  · have kept := follows_keepPass orderly found (Watcher.frame_of_step stepped) (.step stepped)
    exact kept.of_core rfl
  · exact follows_keepPass orderly found (Watcher.frame_of_step stepped) (.step stepped)
  · exact follows_endPass orderly found stepped

theorem follows_resumeLoop (orderly : session.Orderly) (still : session.passOf? .loop = none) :
    session.Follows [] [] session.resumeLoop := by
  have rests : session.Follows [] [] session := follows_rest orderly
  have suits := orderly.suits
  unfold resumeLoop
  cases loop : session.loop with
  | idle => exact rests
  | ended => exact rests
  | passing started pass =>
      simp only [passOf?, loop] at still
      cases still
  | sleeping started wake =>
      rw [loop] at suits
      have running : session.watcher.lifecycle = .running :=
        running_of_suits suits (by simp) (by simp)
      have alone : session.passes = [] := alone_of_not_ready orderly (by simp [running])
      have decides : Suits session.watcher.lifecycle (.deciding started) := by
        rw [running]
        exact .deciding started
      exact (follows_alone alone loop decides .rest).of_core rfl
  | deciding started =>
      rw [loop] at suits
      have running : session.watcher.lifecycle = .running :=
        running_of_suits suits (by simp) (by simp)
      have alone : session.passes = [] := alone_of_not_ready orderly (by simp [running])
      dsimp only
      split
      · exact (follows_alone alone loop .ended (.shutdown _)).of_core rfl
      · have passes : Suits session.watcher.lifecycle (.passing session.clock .begin) := by
          rw [running]
          exact .passing session.clock .begin
        exact (follows_alone alone loop passes (.begin .loop (.inr running))).of_core rfl
      · rename_i duration _
        have sleeps :
            Suits session.watcher.lifecycle (.sleeping started (session.clock + duration)) := by
          rw [running]
          exact .sleeping started _
        exact follows_alone alone loop sleeps .rest

theorem follows_stepOwner (orderly : session.Orderly) :
    session.Follows [] (session.compared (.resume owner)) (session.stepOwner owner) := by
  cases found : session.passOf? owner with
  | some pass =>
      simp only [stepOwner, Session.compared, found]
      exact follows_stepPass orderly (current_of_passOf? orderly found)
  | none =>
      simp only [stepOwner, Session.compared, found]
      cases owner with
      | caller id =>
          have found : session.passes.lookup id = none := found
          simp only [resume, resumeCaller, found]
          exact follows_rest orderly
      | loop => exact follows_resumeLoop orderly found

/-- Every move that is in order is one of the changes, and leaves a session in order. -/
theorem follows_move (orderly : session.Orderly) {move : Move}
    (permitted : session.Permits move) :
    session.Follows (session.handed move) (session.compared move) (session.move move) := by
  cases move with
  | call id command => exact follows_call orderly id permitted
  | take outlet => exact follows_take orderly outlet
  | resume owner =>
      have popped : Orderly { session with ready := session.ready.erase owner } :=
        ⟨orderly.suits, orderly.alone⟩
      exact follows_stepOwner popped
  | answer replies => exact (follows_rest orderly).of_core rfl

theorem orderly_ofWatcher {watcher : Watcher} (fresh : watcher.Fresh) (fileSystem : FileSystem) :
    (ofWatcher watcher fileSystem).Orderly where
  suits := by
    simp only [ofWatcher, fresh.uninitialized]
    exact .uninitialized
  alone := .inl rfl

theorem tidy_ofWatcher {watcher : Watcher} (fresh : watcher.Fresh) (fileSystem : FileSystem) :
    (ofWatcher watcher fileSystem).scene.Tidy where
  awake present := absurd rfl present
  eventsClosed := by simp [scene, ofWatcher, fresh.uninitialized, fresh.eventsOpen]
  errorsClosed := by simp [scene, ofWatcher, fresh.uninitialized, fresh.errorsOpen]
  blank _ := fresh.blank

end

def files (names : List String) : FileSystem where
  walk _ := ⟨names.map fun name => ⟨name, false, none⟩, none⟩
  timeOf _ := .ok 1

theorem created_narrow : Watcher.create (.text "*") (.double 1) 1 = .ok Watcher.narrow := rfl

end Session

end TreeWatch
