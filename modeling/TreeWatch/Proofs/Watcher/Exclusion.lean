import TreeWatch.Proofs.Watcher.Publication

/-!
Passes one at a time.

A pass that waits for room is still in flight. As long as all moves are in order no other pass
begins meanwhile, and neither channel is closed. The state of a watcher's life does not record the
pass of a caller, so whoever ticks, starts or closes while a caller makes a pass overtakes it.
-/

namespace TreeWatch.Session

/-- All passes that are in flight, those that wait for room among them, with their owners. -/
def flights (session : Session) : List (Owner × Pass) :=
  session.passes.map (fun entry => (.caller entry.1, entry.2)) ++ session.loop.flight.toList

theorem flights_eq {session : Session} (orderly : session.Orderly) :
    session.flights = session.current.toList := by
  rcases orderly.alone with alone | ⟨id, pass, passes, ready⟩
  · rw [flights, current_of_alone alone, alone, List.map_nil, List.nil_append]
  · have idle : session.loop = .idle := idle_of_suits orderly.suits (.inr ready)
    rw [current_of_passes passes, flights, passes, idle]
    rfl

namespace Chronicle

variable {watcher : Watcher} {chronicle : Chronicle}

theorem Kept.complete_of_compared (kept : chronicle.Kept) {move : Move}
    (compares : chronicle.session.compared move ≠ []) :
    chronicle.published = chronicle.batches.flatten := by
  cases move with
  | call id command => exact absurd rfl compares
  | take outlet => exact absurd rfl compares
  | answer replies => exact absurd rfl compares
  | resume owner =>
      cases found : chronicle.session.passOf? owner with
      | none => simp [compared, found] at compares
      | some pass =>
          have current := current_of_passOf? kept.orderly found
          have events := kept.published.events
          simp only [compared, found] at compares
          cases pass with
          | look left seen =>
              simp only [Scene.trail, scene, current, Pass.unpublished, List.append_nil] at events
              exact events
          | begin | complain | publish => exact absurd rfl compares

/-- As long as all moves are in order, one pass at most is in flight, and both channels are open
while one is. All events of a comparison are on the channel before the next comparison is made,
and before a channel is closed. -/
theorem flights_exclusive {source : Watcher.PatternSource} {interval : Number} {bufferSize : Int}
    {fileSystem : FileSystem} (created : Watcher.create source interval bufferSize = .ok watcher)
    (leads : Leads Permits (ofSession (ofWatcher watcher fileSystem)) chronicle) :
    chronicle.session.flights.length ≤ 1 ∧
      (chronicle.session.flights ≠ [] → chronicle.session.watcher.events.closed = false ∧
        chronicle.session.watcher.errors.closed = false) ∧
      (∀ move, chronicle.session.compared move ≠ [] →
        chronicle.published = chronicle.batches.flatten) ∧
      (chronicle.session.watcher.events.closed = true ∨
          chronicle.session.watcher.errors.closed = true →
        chronicle.published = chronicle.batches.flatten) := by
  have kept : chronicle.Kept :=
    kept_of_leads leads (kept_ofSession (Watcher.fresh_of_create created) fileSystem)
  rw [flights_eq kept.orderly]
  refine ⟨?_, ?_, ?_, ?_⟩
  · exact Option.length_toList_le
  · intro present
    apply kept.tidy.isOpen
    simpa [scene] using present
  · intro move
    exact kept.complete_of_compared
  · intro closed
    have isOver : chronicle.session.watcher.lifecycle = .closed :=
      closed.elim kept.tidy.eventsClosed.mp kept.tidy.errorsClosed.mp
    exact (kept.complete (kept.quiet_of_closed isOver)).1

set_option maxRecDepth 4000 in
/-- While a pass of the loop waits for room, nothing else is in flight. -/
theorem flights_exclusive_waiting :
    ∃ watcher chronicle, Watcher.create (.text "*") (.double 1) 1 = .ok watcher ∧
      Leads Permits (ofSession (ofWatcher watcher (files []))) chronicle ∧
      chronicle.session.flights.length = 1 ∧
      chronicle.session.watcher.events.closed = false ∧
      chronicle.session.watcher.errors.closed = false := by
  have present : waiting.session.flights ≠ [] := nofun
  obtain ⟨_, isOpen, _⟩ := flights_exclusive created_narrow leads_waiting
  exact ⟨Watcher.narrow, waiting, created_narrow, leads_waiting, rfl, isOpen present⟩

/-- Closing a watcher while a pass of a caller waits closes both channels at once, and an event
that has been found is never published. -/
theorem close_overtakes_pass :
    ∃ watcher chronicle, Watcher.create (.text "*") (.double 1) 1 = .ok watcher ∧
      Leads (fun _ => Move.Single) (ofSession (ofWatcher watcher (files []))) chronicle ∧
      chronicle.session.flights ≠ [] ∧
      chronicle.session.watcher.events.closed = true ∧
      chronicle.session.watcher.errors.closed = true ∧
      chronicle.published ≠ chronicle.batches.flatten := by
  have closes : Leads (fun _ => Move.Single) held (held.moves [.call 3 (.close false)]) := by
    apply leads_of_allows
    exact ⟨id, trivial⟩
  have published : (held.moves [.call 3 (.close false)]).published = [⟨.created, "a"⟩] := rfl
  have found : (held.moves [.call 3 (.close false)]).batches.flatten =
      [⟨.created, "a"⟩, ⟨.created, "b"⟩, ⟨.created, "c"⟩] := rfl
  refine ⟨Watcher.narrow, held.moves [.call 3 (.close false)], created_narrow,
    (leads_single leads_held).trans closes, nofun, rfl, rfl, ?_⟩
  rw [published, found]
  decide

end Chronicle

end TreeWatch.Session
