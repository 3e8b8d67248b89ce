import TreeWatch.Proofs.Watcher.Conduct

/-!
What has been found, what has been published, and what readers have been handed.

A pass replaces the tracked times as soon as it has compared them, and puts the events of the
comparison on the channel one by one afterwards, waiting for room as often as it must. As long as
all moves are in order nothing comes between: readers are handed the events of all comparisons,
one comparison after another, and when the channels are closed no event is missing.
-/

namespace TreeWatch

open Relation (ReflTransGen)

def Pass.unpublished : Pass → List Event
  | begin => []
  | look _ _ => []
  | complain _ next => next.unpublished
  | publish left _ => left

def Pass.uncounted : Pass → List Event
  | begin => []
  | look _ _ => []
  | complain _ next => next.uncounted
  | publish _ events => events

namespace Scene

/-- The events in the channel, and behind them those that are still to be put there. -/
def trail (scene : Scene) : List Event :=
  scene.watcher.events.items ++
    match scene.current with
    | some (_, pass) => pass.unpublished
    | none => []

def total (scene : Scene) : Nat :=
  scene.watcher.stats.emitted +
    match scene.current with
    | some (_, pass) => pass.uncounted.length
    | none => 0

/-- The events of all comparisons, one comparison after another, have been handed out, lie in the
channel or are about to be put there; they have been counted or will be. -/
structure Published (delivered : List Event) (batches : List (List Event)) (scene : Scene) :
    Prop where
  events : delivered ++ scene.trail = batches.flatten
  counted : scene.total = batches.flatten.length

variable {before after : Scene} {delivered handed : List Event}
  {batches compared : List (List Event)}

theorem Published.of_same (published : Published delivered batches before)
    (trail : after.trail = before.trail) (total : after.total = before.total) :
    Published delivered (batches ++ []) after := by
  rw [List.append_nil]
  constructor
  · rw [trail]
    exact published.events
  · rw [total]
    exact published.counted

theorem Published.compare {watcher : Watcher} {owner : Owner} {seen : Observation}
    (published : Published delivered batches ⟨watcher, some (owner, .look [] seen)⟩) :
    let revision := Changes.between watcher.tracked seen
    Published delivered (batches ++ [revision.events])
      ⟨{ watcher with tracked := revision.times },
        some (owner, .publish revision.events revision.events)⟩ := by
  intro revision
  have events := published.events
  have counted := published.counted
  simp only [trail, total, Pass.unpublished, Pass.uncounted, List.append_nil, List.length_nil]
    at events counted
  constructor
  · simp only [trail, Pass.unpublished, List.flatten_append, List.flatten_singleton, ← events,
      List.append_assoc]
  · simp only [total, Pass.uncounted, List.flatten_append, List.flatten_singleton,
      List.length_append, ← counted, Nat.add_zero]

/-- A step of a pass publishes what it has found in its order, as long as the channels are open. -/
theorem published_of_step {watcher later : Watcher} {owner : Owner} {fileSystem : FileSystem}
    {pass : Pass} {progress : Pass.Progress}
    (published : Published delivered batches ⟨watcher, some (owner, pass)⟩)
    (eventsOpen : watcher.events.closed = false) (errorsOpen : watcher.errors.closed = false)
    (stepped : watcher.step owner fileSystem pass = (later, progress)) :
    Published delivered (batches ++ comparison watcher.tracked pass)
      ⟨later, (progress.rest pass).map fun rest => (owner, rest)⟩ := by
  cases pass with
  | begin =>
      simp only [Watcher.step, Watcher.beginPass] at stepped
      split at stepped
      · cases stepped
        exact published.of_same rfl rfl
      · split at stepped <;> cases stepped <;> exact published.of_same rfl rfl
  | look left seen =>
      cases left with
      | nil =>
          cases stepped
          exact published.compare
      | cons name others =>
          simp only [Watcher.step, Watcher.lookStep] at stepped
          split at stepped
          · cases stepped
            exact published.of_same rfl rfl
          · split at stepped <;> cases stepped <;> exact published.of_same rfl rfl
  | complain failure next =>
      simp only [Watcher.step, Watcher.complainStep] at stepped
      split at stepped
      · rename_i refused
        cases errorsOpen.symm.trans (Channel.closed_of_refused refused)
      · cases stepped
        exact published.of_same rfl rfl
      · cases stepped
        exact published.of_same rfl rfl
  | publish left events =>
      cases left with
      | nil =>
          cases stepped
          exact published.of_same rfl rfl
      | cons event others =>
          simp only [Watcher.step, Watcher.publishStep] at stepped
          split at stepped
          · rename_i refused
            cases eventsOpen.symm.trans (Channel.closed_of_refused refused)
          · cases stepped
            exact published.of_same rfl rfl
          · rename_i stored
            cases stepped
            apply published.of_same
            · simp only [trail, Channel.items_of_stored stored, Pass.unpublished,
                Pass.Progress.rest, Option.map_some, List.append_assoc, List.singleton_append]
            · rfl

theorem Published.take {watcher : Watcher} {current : Option (Owner × Pass)} {event : Event}
    {channel : Channel Owner Event} {woken : Option Owner}
    (published : Published delivered batches ⟨watcher, current⟩)
    (taken : watcher.events.take = .taken event channel woken) :
    Published (delivered ++ [event]) batches ⟨{ watcher with events := channel }, current⟩ where
  events := by
    rw [← published.events]
    simp only [trail, Channel.items_of_taken taken, List.append_assoc, List.cons_append,
      List.nil_append]
  counted := published.counted

/-- While the channels are open, and with nothing in flight also when they are closed, every change
keeps account of the events. -/
theorem published_of_change (published : Published delivered batches before) (tidy : before.Tidy)
    (change : before.Change handed compared after) :
    Published (delivered ++ handed) (batches ++ compared) after := by
  cases change with
  | takeEvent taken =>
      rw [List.append_nil]
      exact published.take taken
  | step stepped =>
      obtain ⟨eventsOpen, errorsOpen⟩ := tidy.isOpen nofun
      rw [List.append_nil]
      exact published_of_step published eventsOpen errorsOpen stepped
  | broken stepped =>
      obtain ⟨eventsOpen, errorsOpen⟩ := tidy.isOpen nofun
      have ended := published_of_step published eventsOpen errorsOpen stepped
      rw [List.append_nil, ← List.append_nil (batches ++ _)]
      exact ended.of_same rfl rfl
  | prepare prepared =>
      obtain ⟨_, times, rfl⟩ := Watcher.lifecycle_of_prepare prepared
      rw [List.append_nil]
      exact published.of_same rfl rfl
  | start started =>
      obtain ⟨_, times, rfl⟩ := Watcher.lifecycle_of_start started
      rw [List.append_nil]
      exact published.of_same rfl rfl
  | rest | requestStop | shutdown | takeFailure | begin =>
      rw [List.append_nil]
      exact published.of_same rfl rfl

end Scene

namespace Session

/-- A session with all that has been found and handed out on the way to it. -/
structure Chronicle where
  session : Session
  /-- The events that readers have been handed. -/
  delivered : List Event
  /-- The events of each comparison that a pass has made. -/
  batches : List (List Event)

namespace Chronicle

def ofSession (session : Session) : Chronicle := ⟨session, [], []⟩

def move (chronicle : Chronicle) (move : Move) : Chronicle where
  session := chronicle.session.move move
  delivered := chronicle.delivered ++ chronicle.session.handed move
  batches := chronicle.batches ++ chronicle.session.compared move

def published (chronicle : Chronicle) : List Event :=
  chronicle.delivered ++ chronicle.session.watcher.events.items

inductive Step (allowed : Session → Move → Prop) : Chronicle → Chronicle → Prop
  | move {chronicle : Chronicle} (move : Move) (permitted : allowed chronicle.session move) :
      Step allowed chronicle (chronicle.move move)

def Leads (allowed : Session → Move → Prop) : Chronicle → Chronicle → Prop :=
  ReflTransGen (Step allowed)

def moves (chronicle : Chronicle) (moves : List Move) : Chronicle := moves.foldl move chronicle

def Allows (allowed : Session → Move → Prop) : Chronicle → List Move → Prop
  | _, [] => True
  | chronicle, move :: later =>
      allowed chronicle.session move ∧ (chronicle.move move).Allows allowed later

theorem leads_of_allows {allowed : Session → Move → Prop} {chronicle : Chronicle}
    {moves : List Move} (allows : chronicle.Allows allowed moves) :
    Leads allowed chronicle (chronicle.moves moves) := by
  induction moves generalizing chronicle with
  | nil => exact .refl
  | cons move later inductionHypothesis =>
      obtain ⟨first, rest⟩ := allows
      exact .head (.move move first) (inductionHypothesis rest)

/-- What is known of a watcher as long as all moves are in order. -/
structure Kept (chronicle : Chronicle) : Prop where
  orderly : chronicle.session.Orderly
  tidy : chronicle.session.scene.Tidy
  published : chronicle.session.scene.Published chronicle.delivered chronicle.batches

variable {watcher : Watcher} {chronicle after : Chronicle}

theorem kept_ofSession (fresh : watcher.Fresh) (fileSystem : FileSystem) :
    (ofSession (ofWatcher watcher fileSystem)).Kept where
  orderly := orderly_ofWatcher fresh fileSystem
  tidy := tidy_ofWatcher fresh fileSystem
  published := by
    constructor
    · simp [ofSession, ofWatcher, scene, current, Loop.flight, Scene.trail, fresh.unpublished]
    · simp [ofSession, ofWatcher, scene, current, Loop.flight, Scene.total, fresh.uncounted]

theorem kept_of_step (kept : chronicle.Kept) (step : Step Permits chronicle after) :
    after.Kept := by
  obtain ⟨move, permitted⟩ := step
  obtain ⟨orderly, change⟩ := follows_move kept.orderly permitted
  exact {
    orderly
    tidy := Scene.tidy_of_change kept.tidy change
    published := Scene.published_of_change kept.published kept.tidy change }

theorem kept_of_leads (leads : Leads Permits chronicle after) (kept : chronicle.Kept) :
    after.Kept := by
  induction leads with
  | refl => exact kept
  | tail _ step inductionHypothesis => exact kept_of_step inductionHypothesis step

theorem Kept.complete (kept : chronicle.Kept) (quiet : chronicle.session.current = none) :
    chronicle.published = chronicle.batches.flatten ∧
      chronicle.session.watcher.stats.emitted = chronicle.batches.flatten.length := by
  have events := kept.published.events
  have counted := kept.published.counted
  simp only [scene, Scene.trail, Scene.total, quiet, List.append_nil, Nat.add_zero]
    at events counted
  exact ⟨events, counted⟩

theorem Kept.quiet_of_closed (kept : chronicle.Kept)
    (closed : chronicle.session.watcher.lifecycle = .closed) :
    chronicle.session.current = none := by
  by_contra present
  rcases kept.tidy.awake present with ready | running
  · cases closed.symm.trans ready
  · cases closed.symm.trans running

theorem Kept.in_order (kept : chronicle.Kept) :
    chronicle.published <+: chronicle.batches.flatten := by
  rw [← kept.published.events, Scene.trail, ← List.append_assoc]
  exact List.prefix_append _ _

theorem exists_leads_of_session {session : Session}
    (leads : ReflTransGen OrderlyStep chronicle.session session) :
    ∃ later, Leads Permits chronicle later ∧ later.session = session := by
  induction leads with
  | refl => exact ⟨chronicle, .refl, rfl⟩
  | tail _ step inductionHypothesis =>
      obtain ⟨later, leads, rfl⟩ := inductionHypothesis
      cases step with
      | move move permitted => exact ⟨later.move move, leads.tail ⟨move, permitted⟩, rfl⟩

/-- As long as all moves are in order, what has been handed out and lies in the channel is at every
moment the beginning of all that the passes have found, pass after pass. Once the watcher's life
is over nothing is missing and all is counted, and whoever has read the channel to its end has been
handed every event once, in order. A transcript of commands in order makes such moves. -/
theorem published_in_order {source : Watcher.PatternSource} {interval : Number} {bufferSize : Int}
    {fileSystem : FileSystem} (created : Watcher.create source interval bufferSize = .ok watcher)
    (leads : Leads Permits (ofSession (ofWatcher watcher fileSystem)) chronicle) :
    chronicle.published <+: chronicle.batches.flatten ∧
      (chronicle.session.watcher.lifecycle = .closed →
        chronicle.published = chronicle.batches.flatten ∧
          chronicle.session.watcher.stats.emitted = chronicle.batches.flatten.length) ∧
      (chronicle.session.watcher.events.take = .drained →
        chronicle.delivered = chronicle.batches.flatten) ∧
      (∀ id commands, chronicle.session.InOrder id commands →
        ∃ later, Leads Permits chronicle later ∧
          later.session = (chronicle.session.transcript id commands).2) := by
  have fresh : watcher.Fresh := Watcher.fresh_of_create created
  have kept : chronicle.Kept := kept_of_leads leads (kept_ofSession fresh fileSystem)
  refine ⟨kept.in_order, ?_, ?_, ?_⟩
  · intro closed
    exact kept.complete (kept.quiet_of_closed closed)
  · intro drained
    obtain ⟨closed, items⟩ := Channel.closed_of_drained drained
    have isOver : chronicle.session.watcher.lifecycle = .closed :=
      kept.tidy.eventsClosed.mp closed
    obtain ⟨complete, _⟩ := kept.complete (kept.quiet_of_closed isOver)
    rw [← complete, published, items, List.append_nil]
  · intro id commands inOrder
    exact exists_leads_of_session (leads_transcript inOrder)

def empty : Chronicle := ofSession (ofWatcher Watcher.narrow (files []))

def begun (chronicle : Chronicle) (owner : Owner) (names : List String) : Chronicle where
  session :=
    (({ chronicle.session with ready := chronicle.session.ready.erase owner }.withWatcher
      chronicle.session.watcher.countTick).keepPass owner (.look names .empty)).goOn owner
  delivered := chronicle.delivered
  batches := chronicle.batches

theorem move_begin {owner : Owner} {names : List String}
    (found : chronicle.session.passOf? owner = some .begin)
    (listed : chronicle.session.watcher.pattern.glob chronicle.session.fileSystem Watcher.root =
      .ok names) :
    chronicle.move (.resume owner) = chronicle.begun owner names := by
  have popped :
      passOf? { chronicle.session with ready := chronicle.session.ready.erase owner } owner =
        some .begin := found
  simp only [move, begun, handed, compared, found, Scene.comparison, List.append_nil, Session.move,
    stepOwner, popped, stepPass, Watcher.step, Watcher.beginPass, listed]

theorem step_begun {allowed : Session → Move → Prop} {owner : Owner} {names : List String}
    (found : chronicle.session.passOf? owner = some .begin)
    (listed : chronicle.session.watcher.pattern.glob chronicle.session.fileSystem Watcher.root =
      .ok names) (permitted : allowed chronicle.session (.resume owner)) :
    Step allowed chronicle (chronicle.begun owner names) := by
  rw [← move_begin found listed]
  exact .move (.resume owner) permitted

def looping : Chronicle :=
  empty.moves [.call 0 .prepare, .call 1 (.replaceFiles (files ["a", "b"])), .call 2 (.start false),
    .resume .loop, .call 3 (.advance 1), .resume .loop, .resume .loop]

def waiting : Chronicle :=
  (looping.begun .loop ["a", "b"]).moves (List.replicate 5 (.resume .loop))

theorem leads_waiting : Leads Permits empty waiting := by
  have start : Leads Permits empty looping := by
    apply leads_of_allows
    exact ⟨⟨id, fun _ => rfl⟩, ⟨id, fun _ => rfl⟩, ⟨id, fun _ => rfl⟩, trivial,
      ⟨id, fun _ => rfl⟩, trivial, trivial, trivial⟩
  have listed : Watcher.narrow.pattern.glob (files ["a", "b"]) Watcher.root =
      .ok ["a", "b"] := by cbv
  have begins : Step Permits looping (looping.begun .loop ["a", "b"]) :=
    step_begun rfl listed trivial
  have waits : Leads Permits (looping.begun .loop ["a", "b"]) waiting := by
    apply leads_of_allows
    exact ⟨trivial, trivial, trivial, trivial, trivial, trivial⟩
  exact (start.tail begins).trans waits

set_option maxRecDepth 4000 in
/-- The loop is asked to stop while a pass waits, and comes to its end. -/
theorem published_in_order_waiting :
    ∃ watcher chronicle, Watcher.create (.text "*") (.double 1) 1 = .ok watcher ∧
      Leads Permits (ofSession (ofWatcher watcher (files []))) chronicle ∧
      chronicle.session.watcher.events.take = .drained ∧
      chronicle.delivered = chronicle.batches.flatten ∧
      chronicle.delivered = [⟨.created, "a"⟩, ⟨.created, "b"⟩] := by
  let ending : List Move := [.call 4 (.close false), .take .events, .resume .loop, .resume .loop,
    .resume .loop, .take .events]
  have ends : Leads Permits waiting (waiting.moves ending) := by
    apply leads_of_allows
    exact ⟨⟨id, fun _ => rfl⟩, trivial, trivial, trivial, trivial, trivial, trivial⟩
  have leads := leads_waiting.trans ends
  refine ⟨Watcher.narrow, waiting.moves ending, created_narrow, leads, ?_, ?_, ?_⟩
  · rfl
  · exact (published_in_order created_narrow leads).2.2.1 rfl
  · rfl

def ticking : Chronicle :=
  empty.moves [.call 0 .prepare, .call 1 (.replaceFiles (files ["a", "b", "c"])), .call 2 .tick]

def held : Chronicle :=
  (ticking.begun (.caller 2) ["a", "b", "c"]).moves (List.replicate 6 (.resume (.caller 2)))

theorem leads_held : Leads Permits empty held := by
  have start : Leads Permits empty ticking := by
    apply leads_of_allows
    exact ⟨⟨id, fun _ => rfl⟩, ⟨id, fun _ => rfl⟩, ⟨id, fun _ => rfl⟩, trivial⟩
  have listed : Watcher.narrow.pattern.glob (files ["a", "b", "c"]) Watcher.root =
      .ok ["a", "b", "c"] := by cbv
  have begins : Step Permits ticking (ticking.begun (.caller 2) ["a", "b", "c"]) :=
    step_begun rfl listed trivial
  have waits : Leads Permits (ticking.begun (.caller 2) ["a", "b", "c"]) held := by
    apply leads_of_allows
    exact ⟨trivial, trivial, trivial, trivial, trivial, trivial, trivial⟩
  exact (start.tail begins).trans waits

theorem leads_single (leads : Leads Permits chronicle after) :
    Leads (fun _ => Move.Single) chronicle after := by
  have single (before later : Chronicle) (step : Step Permits before later) :
      Step (fun _ => Move.Single) before later := by
    obtain ⟨move, permitted⟩ := step
    exact .move move (single_of_permits permitted)
  exact ReflTransGen.mono single _ _ leads

def doubled : Chronicle :=
  held.moves [.call 3 (.replaceFiles (files ["a", "b", "c", "d"])), .call 4 .tick]

def shuffled : Chronicle :=
  (doubled.begun (.caller 4) ["a", "b", "c", "d"]).moves
    (List.replicate 6 (.resume (.caller 4)) ++
      [.take .events, .resume (.caller 2), .resume (.caller 2), .take .events, .resume (.caller 4),
        .resume (.caller 4), .take .events, .resume (.caller 2), .resume (.caller 2)])

set_option maxRecDepth 4000 in
/-- When callers make two passes at once their events are mixed, although nothing is in flight when
the loop is started. -/
theorem published_out_of_order :
    ∃ watcher before, Watcher.create (.text "*") (.double 1) 1 = .ok watcher ∧
      Leads (fun _ => Move.Single) (ofSession (ofWatcher watcher (files []))) before ∧
      before.session.passes = [] ∧
      (before.move (.call 5 (.start false))).session.watcher.lifecycle = .running ∧
      ¬(before.move (.call 5 (.start false))).published <+:
        (before.move (.call 5 (.start false))).batches.flatten := by
  have doubles : Leads (fun _ => Move.Single) held doubled := by
    apply leads_of_allows
    exact ⟨id, id, trivial⟩
  have listed : Watcher.narrow.pattern.glob (files ["a", "b", "c", "d"]) Watcher.root =
      .ok ["a", "b", "c", "d"] := by cbv
  have begins : Step (fun _ => Move.Single) doubled
      (doubled.begun (.caller 4) ["a", "b", "c", "d"]) :=
    step_begun rfl listed trivial
  have ends : Leads (fun _ => Move.Single) (doubled.begun (.caller 4) ["a", "b", "c", "d"])
      shuffled := by
    apply leads_of_allows
    exact ⟨trivial, trivial, trivial, trivial, trivial, trivial, trivial, trivial, trivial, trivial,
      trivial, trivial, trivial, trivial, trivial, trivial⟩
  have mixed : (shuffled.move (.call 5 (.start false))).published =
      [⟨.created, "a"⟩, ⟨.created, "b"⟩, ⟨.created, "d"⟩, ⟨.created, "c"⟩] := rfl
  have found : (shuffled.move (.call 5 (.start false))).batches.flatten =
      [⟨.created, "a"⟩, ⟨.created, "b"⟩, ⟨.created, "c"⟩, ⟨.created, "d"⟩] := rfl
  refine ⟨Watcher.narrow, shuffled, created_narrow, ?_, rfl, rfl, ?_⟩
  · exact (((leads_single leads_held).trans doubles).tail begins).trans ends
  · rw [mixed, found]
    decide

end Chronicle

end Session

end TreeWatch
