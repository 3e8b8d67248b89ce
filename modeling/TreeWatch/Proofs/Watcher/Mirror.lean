import TreeWatch.Proofs.Watcher.Passes

/-!
Readers of the events know which paths are tracked.

Whatever a pass meets, it either leaves the tracked times alone and yields nothing, or it replaces
them by those of a comparison and yields the events of that comparison. From the first look at the
files on, the events of all passes therefore lead a reader from the paths tracked then to the
paths tracked now.
-/

namespace TreeWatch

/-- What a pass that starts from known times may yield and leave behind. -/
inductive Pass.Effect (pattern : Pattern) (known : Times) : List Event → Times → Prop where
  | unchanged : Effect pattern known [] known
  | revised {seen : Observation} : (∀ name ∈ seen.keys, pattern.matches name = true) →
      Effect pattern known (Changes.between known seen).events (Changes.between known seen).times

/-- What holds at each point of a pass that started from known times. -/
def Pass.Sound (pattern : Pattern) (known tracked : Times) : Pass → Prop
  | begin => tracked = known
  | look left seen => tracked = known ∧ (∀ name ∈ left, pattern.matches name = true) ∧
      ∀ name ∈ seen.keys, pattern.matches name = true
  | complain _ next => next.Sound pattern known tracked
  | publish _ events => Pass.Effect pattern known events tracked

namespace Pass.Effect

variable {pattern : Pattern} {known tracked : Times} {events : List Event}

theorem consistent (effect : Effect pattern known events tracked) :
    Consistent known.keys.toFinset events := by
  cases effect with
  | unchanged => trivial
  | revised =>
      apply consistent_of_nodup Changes.nodup_paths_between
      intro event member
      exact Changes.admissible_of_mem_between member

theorem nodup_paths (effect : Effect pattern known events tracked) :
    (events.map Event.path).Nodup := by
  cases effect with
  | unchanged => exact List.nodup_nil
  | revised => exact Changes.nodup_paths_between

theorem replay_eq (effect : Effect pattern known events tracked) :
    replay known.keys.toFinset events = tracked.keys.toFinset := by
  cases effect with
  | unchanged => rfl
  | revised => exact Changes.replay_between

theorem matches_tracked (effect : Effect pattern known events tracked)
    (knownMatch : ∀ path ∈ known.keys, pattern.matches path = true) :
    ∀ path ∈ tracked.keys, pattern.matches path = true := by
  cases effect with
  | unchanged => exact knownMatch
  | revised seenMatch =>
      intro path member
      rcases Changes.mem_keys_between.mp member with ⟨isKnown, _⟩ | ⟨_, time, observed⟩
      · exact knownMatch path isKnown
      · exact seenMatch path (List.mem_map.mpr ⟨_, observed, rfl⟩)

end Pass.Effect

namespace Watcher

open Pass (Effect)

section Step

variable {watcher after : Watcher} {owner : Owner} {fileSystem : FileSystem} {known : Times}
  {pass : Pass}

theorem matches_insert {pattern : Pattern} {seen : Observation} {name : String}
    {time : Option Seconds} (seenMatch : ∀ path ∈ seen.keys, pattern.matches path = true)
    (fits : pattern.matches name = true) :
    ∀ path ∈ (seen.insert name time).keys, pattern.matches path = true := by
  intro path member
  rcases PathMap.mem_keys_insert.mp member with before | rfl
  · exact seenMatch path before
  · exact fits

theorem sound_of_onward {next : Pass} (sound : pass.Sound watcher.pattern known watcher.tracked)
    (stepped : watcher.step owner fileSystem pass = (after, .onward next)) :
    next.Sound watcher.pattern known after.tracked := by
  cases pass with
  | begin =>
      simp only [step, beginPass] at stepped
      split at stepped
      · rename_i listed
        cases stepped
        exact ⟨sound, Pattern.matches_of_mem_glob listed, by simp [PathMap.keys, PathMap.empty]⟩
      · split at stepped
        · cases stepped
          cases (show watcher.tracked = known from sound)
          exact .unchanged
        · cases stepped
  | look left seen =>
      obtain ⟨same, leftMatch, seenMatch⟩ := sound
      cases left with
      | nil =>
          cases stepped
          cases same
          exact .revised seenMatch
      | cons name later =>
          have laterMatch : ∀ name ∈ later, watcher.pattern.matches name = true :=
            fun other member => leftMatch other (List.mem_cons_of_mem _ member)
          have grown : ∀ time, ∀ path ∈ (seen.insert name time).keys,
              watcher.pattern.matches path = true :=
            fun time => matches_insert seenMatch (leftMatch name List.mem_cons_self)
          simp only [step, lookStep] at stepped
          split at stepped
          · cases stepped
            exact ⟨same, laterMatch, grown _⟩
          · split at stepped
            · cases stepped
              exact ⟨same, laterMatch, grown _⟩
            · cases stepped
  | complain failure following =>
      simp only [step, complainStep] at stepped
      split at stepped <;> cases stepped
      exact sound
  | publish left events =>
      cases left with
      | nil => cases stepped
      | cons event later =>
          simp only [step, publishStep] at stepped
          split at stepped <;> cases stepped
          exact sound

theorem tracked_of_waits (stepped : watcher.step owner fileSystem pass = (after, .waits)) :
    after.tracked = watcher.tracked := by
  cases pass with
  | begin =>
      simp only [step, beginPass] at stepped
      split at stepped
      · cases stepped
      · split at stepped <;> cases stepped
  | look left seen =>
      cases left with
      | nil => cases stepped
      | cons name later =>
          simp only [step, lookStep] at stepped
          split at stepped
          · cases stepped
          · split at stepped <;> cases stepped
  | complain failure following =>
      simp only [step, complainStep] at stepped
      split at stepped <;> cases stepped
      rfl
  | publish left events =>
      cases left with
      | nil => cases stepped
      | cons event later =>
          simp only [step, publishStep] at stepped
          split at stepped <;> cases stepped
          rfl

theorem effect_of_ended {result : Except PassError (List Event)}
    (sound : pass.Sound watcher.pattern known watcher.tracked)
    (eventsOpen : watcher.events.closed = false) (errorsOpen : watcher.errors.closed = false)
    (stepped : watcher.step owner fileSystem pass = (after, .ended result)) :
    Effect watcher.pattern known (eventsOf result) after.tracked := by
  cases pass with
  | begin =>
      simp only [step, beginPass] at stepped
      split at stepped
      · cases stepped
      · split at stepped
        · cases stepped
        · cases stepped
          cases (show watcher.tracked = known from sound)
          exact .unchanged
  | look left seen =>
      obtain ⟨same, _⟩ := sound
      cases left with
      | nil => cases stepped
      | cons name later =>
          simp only [step, lookStep] at stepped
          split at stepped
          · cases stepped
          · split at stepped
            · cases stepped
            · cases stepped
              cases same
              exact .unchanged
  | complain failure following =>
      simp only [step, complainStep] at stepped
      split at stepped
      · rename_i refused
        cases errorsOpen.symm.trans (Channel.closed_of_refused refused)
      · cases stepped
      · cases stepped
  | publish left events =>
      cases left with
      | nil =>
          cases stepped
          exact sound
      | cons event later =>
          simp only [step, publishStep] at stepped
          split at stepped
          · rename_i refused
            cases eventsOpen.symm.trans (Channel.closed_of_refused refused)
          · cases stepped
          · cases stepped

end Step

/-- A pass that comes to its end leaves its whole effect, however it was held up. -/
theorem effect_of_finishes {owner : Owner} {watcher final : Watcher} {pass : Pass}
    {result : Except PassError (List Event)} {known : Times}
    (finishes : Finishes owner watcher pass result final)
    (sound : pass.Sound watcher.pattern known watcher.tracked)
    (eventsOpen : watcher.events.closed = false) (errorsOpen : watcher.errors.closed = false) :
    Effect watcher.pattern known (eventsOf result) final.tracked ∧ Frame watcher final := by
  induction finishes with
  | read reads _ inductionHypothesis =>
      obtain ⟨frame, sameTracked⟩ := frame_of_reads reads
      rw [frame.pattern, sameTracked] at inductionHypothesis
      obtain ⟨effect, rest⟩ := inductionHypothesis sound (frame.eventsClosed.trans eventsOpen)
        (frame.errorsClosed.trans errorsOpen)
      exact ⟨effect, frame.trans rest⟩
  | onward fileSystem stepped _ inductionHypothesis =>
      have frame := frame_of_step stepped
      have nextSound := sound_of_onward sound stepped
      rw [frame.pattern] at inductionHypothesis
      obtain ⟨effect, rest⟩ := inductionHypothesis nextSound
        (frame.eventsClosed.trans eventsOpen) (frame.errorsClosed.trans errorsOpen)
      exact ⟨effect, frame.trans rest⟩
  | waits fileSystem stepped _ inductionHypothesis =>
      have frame := frame_of_step stepped
      rw [frame.pattern, tracked_of_waits stepped] at inductionHypothesis
      obtain ⟨effect, rest⟩ := inductionHypothesis sound
        (frame.eventsClosed.trans eventsOpen) (frame.errorsClosed.trans errorsOpen)
      exact ⟨effect, frame.trans rest⟩
  | ended fileSystem stepped =>
      exact ⟨effect_of_ended sound eventsOpen errorsOpen stepped, frame_of_step stepped⟩

/-- What holds of a watcher after passes have yielded lists of events, the paths tracked at first
and its pattern being known. -/
structure Mirrored (pattern : Pattern) (first : Finset String) (batches : List (List Event))
    (watcher : Watcher) : Prop where
  samePattern : watcher.pattern = pattern
  prepared : watcher.lifecycle ≠ .uninitialized
  eventsOpen : watcher.events.closed = false
  errorsOpen : watcher.errors.closed = false
  consistent : Consistent first batches.flatten
  distinct : ∀ batch ∈ batches, (batch.map Event.path).Nodup
  replayed : replay first batches.flatten = watcher.tracked.keys.toFinset
  trackedMatch : ∀ path ∈ watcher.tracked.keys, pattern.matches path = true

theorem Mirrored.of_frame {pattern : Pattern} {first : Finset String}
    {batches : List (List Event)} {watcher after : Watcher}
    (mirrored : Mirrored pattern first batches watcher) (frame : Frame watcher after)
    (sameTracked : after.tracked = watcher.tracked) : Mirrored pattern first batches after where
  samePattern := frame.pattern.trans mirrored.samePattern
  prepared := frame.lifecycle ▸ mirrored.prepared
  eventsOpen := frame.eventsClosed.trans mirrored.eventsOpen
  errorsOpen := frame.errorsClosed.trans mirrored.errorsOpen
  consistent := mirrored.consistent
  distinct := mirrored.distinct
  replayed := sameTracked ▸ mirrored.replayed
  trackedMatch := sameTracked ▸ mirrored.trackedMatch

theorem Mirrored.of_effect {pattern : Pattern} {first : Finset String}
    {batches : List (List Event)} {watcher after : Watcher} {events : List Event}
    (mirrored : Mirrored pattern first batches watcher) (frame : Frame watcher after)
    (effect : Effect pattern watcher.tracked events after.tracked) :
    Mirrored pattern first (batches ++ [events]) after where
  samePattern := frame.pattern.trans mirrored.samePattern
  prepared := frame.lifecycle ▸ mirrored.prepared
  eventsOpen := frame.eventsClosed.trans mirrored.eventsOpen
  errorsOpen := frame.errorsClosed.trans mirrored.errorsOpen
  consistent := by
    rw [List.flatten_append, List.flatten_singleton, consistent_append, mirrored.replayed]
    exact ⟨mirrored.consistent, effect.consistent⟩
  distinct batch member := by
    rcases List.mem_append.mp member with before | last
    · exact mirrored.distinct batch before
    · exact List.mem_singleton.mp last ▸ effect.nodup_paths
  replayed := by
    rw [List.flatten_append, List.flatten_singleton, replay_append, mirrored.replayed,
      effect.replay_eq]
  trackedMatch := effect.matches_tracked mirrored.trackedMatch

theorem eq_of_start {τ : Type} {watcher started : Watcher τ} {fileSystem : FileSystem}
    (prepared : watcher.lifecycle ≠ .uninitialized)
    (succeeded : watcher.start fileSystem = .ok started) :
    started = { watcher with lifecycle := .running } := by
  simp only [start, if_neg prepared, bind, Except.bind] at succeeded
  split at succeeded
  · cases succeeded
    rfl
  · cases succeeded

theorem mirrored_of_passes {pattern : Pattern} {watcher final : Watcher}
    {batches : List (List Event)} (passes : Passes watcher batches final)
    (atFirst : Mirrored pattern watcher.tracked.keys.toFinset [] watcher) :
    Mirrored pattern watcher.tracked.keys.toFinset batches final := by
  induction passes with
  | none => exact atFirst
  | read _ reads mirrored =>
      obtain ⟨frame, sameTracked⟩ := frame_of_reads reads
      exact mirrored.of_frame frame sameTracked
  | started fileSystem _ succeeded mirrored =>
      cases eq_of_start mirrored.prepared succeeded
      exact { mirrored with prepared := by simp }
  | @pass batches later owner result final _ finishes mirrored =>
      have sound : Pass.begin.Sound later.pattern later.tracked later.tracked := rfl
      obtain ⟨effect, frame⟩ :=
        effect_of_finishes finishes sound mirrored.eventsOpen mirrored.errorsOpen
      rw [mirrored.samePattern] at effect
      exact mirrored.of_effect frame effect

theorem mem_keys_of_timesOf {fileSystem : FileSystem} {found times : Times} {names : List String}
    (read : timesOf fileSystem found names = .ok times) :
    ∀ path ∈ times.keys, path ∈ found.keys ∨ path ∈ names := by
  induction names generalizing found with
  | nil =>
      cases read
      intro path member
      exact .inl member
  | cons name names inductionHypothesis =>
      unfold timesOf at read
      split at read
      · intro path member
        rcases inductionHypothesis read path member with before | later
        · rcases PathMap.mem_keys_insert.mp before with earlier | rfl
          · exact .inl earlier
          · exact .inr List.mem_cons_self
        · exact .inr (List.mem_cons_of_mem _ later)
      · cases read

theorem matches_of_seed {pattern : Pattern} {fileSystem : FileSystem} {times : Times}
    (seeded : seed pattern fileSystem = .ok times) :
    ∀ path ∈ times.keys, pattern.matches path = true := by
  unfold seed at seeded
  split at seeded
  · rename_i names listed
    intro path member
    rcases mem_keys_of_timesOf seeded path member with before | listedPath
    · cases before
    · exact Pattern.matches_of_mem_glob listed path listedPath
  · cases seeded

/-- A watcher can be created if its interval is not known to be zero or less, there is room for an
event, the pattern is one, and a double is near the interval. -/
theorem create_eq_ok_iff {source : PatternSource} {interval : Number} {bufferSize : Int}
    {watcher : Watcher} : create source interval bufferSize = .ok watcher ↔
      interval.isNonPositive = false ∧ ∃ positive : 0 < bufferSize, ∃ pattern seconds,
        source.compile = .ok pattern ∧ interval.toFloat? = some seconds ∧
        watcher =
          { pattern
            interval := seconds
            events := ⟨bufferSize.toNat, Int.lt_toNat.mpr positive, [], false, [], []⟩
            errors := ⟨bufferSize.toNat, Int.lt_toNat.mpr positive, [], false, [], []⟩
            lifecycle := .uninitialized
            tracked := .empty
            stats := ⟨0, 0, 0⟩
            stopRequested := false } := by
  constructor
  · intro created
    unfold create at created
    split at created
    · cases created
    · rename_i notNonPositive
      split at created
      · rename_i events errors eventsNew errorsNew
        obtain ⟨positive, rfl⟩ := Channel.eq_of_new? eventsNew
        obtain ⟨_, rfl⟩ := Channel.eq_of_new? errorsNew
        split at created
        · cases created
        · rename_i pattern compiled
          split at created
          · cases created
          · rename_i seconds converted
            cases created
            exact ⟨Bool.eq_false_iff.mpr notNonPositive, positive, pattern, seconds, compiled,
              converted, rfl⟩
      · cases created
  · rintro ⟨notNonPositive, positive, pattern, seconds, compiled, converted, rfl⟩
    simp [create, notNonPositive, Channel.new?, positive, compiled, converted]

theorem eq_of_create {source : PatternSource} {interval : Number} {bufferSize : Int}
    {watcher : Watcher} (created : create source interval bufferSize = .ok watcher) :
    source.compile = .ok watcher.pattern ∧ ∃ positive : 0 < bufferSize, ∃ seconds,
      watcher =
        { pattern := watcher.pattern
          interval := seconds
          events := ⟨bufferSize.toNat, Int.lt_toNat.mpr positive, [], false, [], []⟩
          errors := ⟨bufferSize.toNat, Int.lt_toNat.mpr positive, [], false, [], []⟩
          lifecycle := .uninitialized
          tracked := .empty
          stats := ⟨0, 0, 0⟩
          stopRequested := false } := by
  obtain ⟨_, positive, pattern, seconds, compiled, _, rfl⟩ := create_eq_ok_iff.mp created
  exact ⟨compiled, positive, seconds, rfl⟩

theorem open_of_create {source : PatternSource} {interval : Number} {bufferSize : Int}
    {watcher : Watcher} (created : create source interval bufferSize = .ok watcher) :
    watcher.events.closed = false ∧ watcher.errors.closed = false := by
  obtain ⟨_, _, _, same⟩ := eq_of_create created
  rw [same]
  exact ⟨rfl, rfl⟩

theorem eq_of_prepare {τ : Type} {watcher ready : Watcher τ} {fileSystem : FileSystem}
    (prepared : watcher.prepare fileSystem = .ok ready) :
    watcher.lifecycle = .uninitialized ∧ ∃ times, seed watcher.pattern fileSystem = .ok times ∧
      ready = { watcher with tracked := times, lifecycle := .ready } := by
  unfold prepare at prepared
  split at prepared
  · rename_i uninitialized
    split at prepared
    · rename_i times seeded
      cases prepared
      exact ⟨uninitialized, times, seeded, rfl⟩
    · cases prepared
  · cases prepared

theorem mirrored_of_prepare {watcher ready : Watcher} {fileSystem : FileSystem}
    (eventsOpen : watcher.events.closed = false) (errorsOpen : watcher.errors.closed = false)
    (prepared : watcher.prepare fileSystem = .ok ready) :
    Mirrored watcher.pattern ready.tracked.keys.toFinset [] ready := by
  obtain ⟨_, times, seeded, rfl⟩ := eq_of_prepare prepared
  exact ⟨rfl, by simp, eventsOpen, errorsOpen, trivial, by simp, rfl, matches_of_seed seeded⟩

/-- The events of all passes since the first look at the files are consistent, none of the passes
says two things about one path, and together they lead a reader from the paths tracked at first to
those tracked now, which all match the pattern. Whoever runs a pass, in one go or with a wait for
room, makes one more. -/
theorem replay_passes {source : PatternSource} {interval : Number} {bufferSize : Int}
    {watcher ready final : Watcher} {fileSystem : FileSystem} {batches : List (List Event)}
    (created : create source interval bufferSize = .ok watcher)
    (prepared : watcher.prepare fileSystem = .ok ready) (passes : Passes ready batches final) :
    Consistent ready.tracked.keys.toFinset batches.flatten ∧
      (∀ batch ∈ batches, (batch.map Event.path).Nodup) ∧
      replay ready.tracked.keys.toFinset batches.flatten = final.tracked.keys.toFinset ∧
      (∀ path ∈ final.tracked.keys, watcher.pattern.matches path = true) ∧
      (∀ owner fileSystem after result,
        final.run owner fileSystem .begin = (after, .ended result) →
        Passes ready (batches ++ [eventsOf result]) after) ∧
      (∀ owner fileSystem after rest result last,
        final.run owner fileSystem .begin = (after, .suspended rest) →
        Finishes owner after rest result last →
        Passes ready (batches ++ [eventsOf result]) last) := by
  obtain ⟨eventsOpen, errorsOpen⟩ := open_of_create created
  have mirrored :=
    mirrored_of_passes passes (mirrored_of_prepare eventsOpen errorsOpen prepared)
  refine ⟨mirrored.consistent, mirrored.distinct, mirrored.replayed, mirrored.trackedMatch, ?_, ?_⟩
  · intro owner fileSystem after result ran
    exact .pass passes (finishes_of_run ran)
  · intro owner fileSystem after rest result last ran finishes
    exact .pass passes (finishes_of_suspended ran finishes)

def withFile (path : String) (time : Seconds) : FileSystem where
  walk _ := ⟨[⟨path, false, none⟩], none⟩
  timeOf _ := .ok time

/-- A watcher of the files in the root directory whose channels have room for one item. -/
def narrow : Watcher where
  pattern := ⟨"*", [.any], rfl⟩
  interval := 1
  events := ⟨1, by decide, [], false, [], []⟩
  errors := ⟨1, by decide, [], false, [], []⟩
  lifecycle := .uninitialized
  tracked := .empty
  stats := ⟨0, 0, 0⟩
  stopRequested := false

/-- One file takes the place of another, and the pass waits for room for its second event. -/
theorem replay_passes_narrow :
    ∃ watcher ready final, create (.text "*") (.double 1) 1 = .ok watcher ∧
      watcher.prepare (withFile "a" 1) = .ok ready ∧
      Passes ready [[⟨.created, "b"⟩, ⟨.deleted, "a"⟩]] final ∧
      replay ready.tracked.keys.toFinset [⟨.created, "b"⟩, ⟨.deleted, "a"⟩] =
        final.tracked.keys.toFinset ∧ final.tracked.keys = ["b"] := by
  let ready : Watcher := { narrow with tracked := PathMap.empty.insert "a" 1, lifecycle := .ready }
  have created : create (.text "*") (.double 1) 1 = .ok narrow := rfl
  have prepared : narrow.prepare (withFile "a" 1) = .ok ready := by cbv
  have listed : narrow.pattern.glob (withFile "b" 1) root = .ok ["b"] := by cbv
  have begins : step ready (.caller 0) (withFile "b" 1) .begin =
      (countTick ready, .onward (.look ["b"] .empty)) := by
    simp only [step, beginPass, ready, listed]
  have finishes := Finishes.onward _ begins <| .onward (withFile "b" 1) rfl <|
    .onward (withFile "b" 1) rfl <| .onward (withFile "b" 1) rfl <|
    .waits (withFile "b" 1) rfl <| .read (.event rfl) <|
    .onward (withFile "b" 1) rfl <| .ended (withFile "b" 1) rfl
  have passes := Passes.pass .none finishes
  exact ⟨narrow, ready, _, created, prepared, passes,
    (replay_passes created prepared passes).2.2.1, rfl⟩

end Watcher

end TreeWatch
