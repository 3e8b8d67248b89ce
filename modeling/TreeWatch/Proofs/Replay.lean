import Mathlib.Data.Finset.Basic
import TreeWatch.Proofs.Changes

/-!
Events as instructions to whoever mirrors the tracked paths.

A reader of the events adds a path when it is created and drops it when it is deleted. Events are
consistent if each of them makes sense to that reader when its turn comes. The events of one
comparison are, and they leave the reader with the paths that are known afterwards.
-/

namespace TreeWatch

namespace Event

/-- Whether an event can happen while these paths are tracked. -/
def Admissible (tracked : Finset String) (event : Event) : Prop :=
  match event.change with
  | .created => event.path ∉ tracked
  | .modified => event.path ∈ tracked
  | .deleted => event.path ∈ tracked

/-- The paths that are tracked after an event. -/
def replay (tracked : Finset String) (event : Event) : Finset String :=
  match event.change with
  | .created => insert event.path tracked
  | .modified => tracked
  | .deleted => tracked.erase event.path

theorem mem_replay_of_ne {tracked : Finset String} {event : Event} {path : String}
    (different : path ≠ event.path) : path ∈ event.replay tracked ↔ path ∈ tracked := by
  obtain ⟨_ | _ | _, other⟩ := event <;> simp [replay, different]

theorem admissible_replay_of_ne {tracked : Finset String} {event other : Event}
    (different : event.path ≠ other.path) :
    event.Admissible (other.replay tracked) ↔ event.Admissible tracked := by
  obtain ⟨_ | _ | _, path⟩ := event <;> simp only [Admissible, mem_replay_of_ne different]

end Event

def replay (tracked : Finset String) (events : List Event) : Finset String :=
  events.foldl Event.replay tracked

/-- Whether every event can happen when its turn comes. -/
def Consistent : (tracked : Finset String) → List Event → Prop
  | _, [] => True
  | tracked, event :: later => event.Admissible tracked ∧ Consistent (event.replay tracked) later

theorem replay_append (tracked : Finset String) (events more : List Event) :
    replay tracked (events ++ more) = replay (replay tracked events) more :=
  List.foldl_append

theorem consistent_append {tracked : Finset String} {events more : List Event} :
    Consistent tracked (events ++ more) ↔
      Consistent tracked events ∧ Consistent (replay tracked events) more := by
  induction events generalizing tracked with
  | nil => simp [Consistent, replay]
  | cons event events inductionHypothesis =>
      rw [List.cons_append, Consistent, inductionHypothesis, Consistent, and_assoc]
      rfl

section Distinct

variable {tracked : Finset String} {events : List Event}

theorem consistent_of_nodup (distinct : (events.map Event.path).Nodup)
    (admissible : ∀ event ∈ events, event.Admissible tracked) : Consistent tracked events := by
  induction events generalizing tracked with
  | nil => trivial
  | cons event events inductionHypothesis =>
      obtain ⟨fresh, distinctRest⟩ := List.nodup_cons.mp distinct
      refine ⟨admissible event List.mem_cons_self, inductionHypothesis distinctRest ?_⟩
      intro other member
      have different : other.path ≠ event.path := by
        intro same
        apply fresh
        exact same ▸ List.mem_map_of_mem member
      exact (Event.admissible_replay_of_ne different).mpr
        (admissible other (List.mem_cons_of_mem _ member))

theorem mem_replay_of_nodup (distinct : (events.map Event.path).Nodup) {path : String} :
    path ∈ replay tracked events ↔
      ⟨.created, path⟩ ∈ events ∨ path ∈ tracked ∧ ⟨.deleted, path⟩ ∉ events := by
  induction events generalizing tracked with
  | nil => simp [replay]
  | cons event events inductionHypothesis =>
      obtain ⟨fresh, distinctRest⟩ := List.nodup_cons.mp distinct
      change path ∈ replay (event.replay tracked) events ↔ _
      rw [inductionHypothesis distinctRest]
      by_cases same : path = event.path
      · have unmentioned : ∀ change, (⟨change, path⟩ : Event) ∉ events := by
          intro change member
          apply fresh
          exact same ▸ List.mem_map_of_mem member
        subst same
        obtain ⟨_ | _ | _, path⟩ := event <;> simp [unmentioned, Event.replay]
      · have different : ∀ change, (⟨change, path⟩ : Event) ≠ event := by
          intro change equal
          apply same
          exact congrArg Event.path equal
        simp [Event.mem_replay_of_ne same, different]

end Distinct

namespace Changes

variable {known : Times} {observed : Observation}

theorem arrival?_eq_some_iff {entry : String × Option Seconds} {event : Event} :
    arrival? known entry = some event ↔
      ∃ time, entry = (event.path, some time) ∧
        (event.change = .created ∧ event.path ∉ known.keys ∨
          event.change = .modified ∧
            ∃ previous, known.get? event.path = some previous ∧ previous < time) := by
  obtain ⟨path, observedTime⟩ := entry
  obtain ⟨change, eventPath⟩ := event
  cases observedTime with
  | none => simp [arrival?]
  | some time =>
      simp only [arrival?]
      cases found : known.get? path with
      | none =>
          have notKnown := PathMap.get?_eq_none_iff.mp found
          constructor
          · intro same
            cases same
            exact ⟨time, rfl, .inl ⟨rfl, notKnown⟩⟩
          · rintro ⟨_, same, ⟨rfl, _⟩ | ⟨_, previous, knownBefore, _⟩⟩
            · cases same
              rfl
            · cases same
              cases found.symm.trans knownBefore
      | some previous =>
          have isKnown : path ∈ known.keys :=
            PathMap.contains_iff.mp (by rw [PathMap.contains, found]; rfl)
          simp only
          constructor
          · intro same
            split at same
            · rename_i later
              cases same
              exact ⟨time, rfl, .inr ⟨rfl, previous, found, later⟩⟩
            · cases same
          · rintro ⟨_, same, ⟨_, notKnown⟩ | ⟨rfl, older, knownBefore, later⟩⟩
            · cases same
              exact absurd isKnown notKnown
            · cases same
              cases found.symm.trans knownBefore
              rw [if_pos later]

theorem mem_departed {path : String} :
    path ∈ departed known observed ↔ path ∈ known.keys ∧ path ∉ observed.keys := by
  rw [departed, List.mem_filter, Bool.not_eq_true', Bool.eq_false_iff, ne_eq, PathMap.contains_iff]

theorem mem_events_between {event : Event} :
    event ∈ (between known observed).events ↔
      (∃ time, (event.path, some time) ∈ observed.entries ∧
        (event.change = .created ∧ event.path ∉ known.keys ∨
          event.change = .modified ∧
            ∃ previous, known.get? event.path = some previous ∧ previous < time)) ∨
      event.change = .deleted ∧ event.path ∈ known.keys ∧ event.path ∉ observed.keys := by
  rw [events_between, List.mem_append, List.mem_filterMap, List.mem_map]
  apply or_congr
  · simp only [arrival?_eq_some_iff]
    constructor
    · rintro ⟨_, member, time, rfl, cause⟩
      exact ⟨time, member, cause⟩
    · rintro ⟨time, member, cause⟩
      exact ⟨_, member, time, rfl, cause⟩
  · obtain ⟨change, path⟩ := event
    simp only [mem_departed, Event.mk.injEq]
    constructor
    · rintro ⟨_, gone, rfl, rfl⟩
      exact ⟨rfl, gone⟩
    · rintro ⟨rfl, gone⟩
      exact ⟨path, gone, rfl, rfl⟩

theorem created_mem_events_between {path : String} :
    ⟨.created, path⟩ ∈ (between known observed).events ↔
      path ∉ known.keys ∧ ∃ time, (path, some time) ∈ observed.entries := by
  rw [mem_events_between]
  simp [and_comm]

theorem deleted_mem_events_between {path : String} :
    ⟨.deleted, path⟩ ∈ (between known observed).events ↔
      path ∈ known.keys ∧ path ∉ observed.keys := by
  rw [mem_events_between]
  simp

theorem sublist_paths_arrivals (known : Times) (entries : List (String × Option Seconds)) :
    ((entries.filterMap (arrival? known)).map Event.path).Sublist (entries.map Prod.fst) := by
  induction entries with
  | nil => exact .slnil
  | cons entry entries inductionHypothesis =>
      rw [List.filterMap_cons]
      cases arrived : arrival? known entry with
      | none => exact inductionHypothesis.cons entry.1
      | some event =>
          obtain ⟨_, rfl, _⟩ := arrival?_eq_some_iff.mp arrived
          exact inductionHypothesis.cons_cons event.path

theorem nodup_paths_between :
    ((between known observed).events.map Event.path).Nodup := by
  have arrivals := sublist_paths_arrivals known observed.entries
  rw [events_between, List.map_append, List.nodup_append]
  refine ⟨arrivals.nodup observed.nodup_keys, ?_, ?_⟩
  · rw [List.map_map]
    exact (known.nodup_keys.filter _).map (fun _ _ same => same)
  · rintro path arrived _ left rfl
    rw [List.map_map] at left
    obtain ⟨_, gone, rfl⟩ := List.mem_map.mp left
    exact (mem_departed.mp gone).2 (arrivals.subset arrived)

theorem admissible_of_mem_between {event : Event}
    (member : event ∈ (between known observed).events) :
    event.Admissible known.keys.toFinset := by
  obtain ⟨change, path⟩ := event
  rcases mem_events_between.mp member with
    ⟨_, _, ⟨rfl, notKnown⟩ | ⟨rfl, previous, knownBefore, _⟩⟩ | ⟨rfl, isKnown, _⟩
  · simpa [Event.Admissible] using notKnown
  · have isKnown : path ∈ known.keys :=
      PathMap.contains_iff.mp (by rw [PathMap.contains, knownBefore]; rfl)
    simpa [Event.Admissible] using isKnown
  · simpa [Event.Admissible] using isKnown

theorem mem_keys_between {path : String} :
    path ∈ (between known observed).times.keys ↔
      path ∈ known.keys ∧ path ∈ observed.keys ∨
        path ∉ known.keys ∧ ∃ time, (path, some time) ∈ observed.entries := by
  rw [PathMap.keys, entries_between, List.map_append, List.mem_append]
  apply or_congr
  · have paths : ((revised known observed.entries).filter fun entry =>
        observed.contains entry.1).map Prod.fst = known.keys.filter (observed.contains ·) := by
      rw [← map_fst_revised known observed.entries, List.filter_map]
      rfl
    rw [paths, List.mem_filter, PathMap.contains_iff]
  · simp only [List.mem_map, List.mem_filterMap]
    constructor
    · rintro ⟨⟨key, time⟩, ⟨entry, member, arrived⟩, rfl⟩
      obtain ⟨rfl, notKnown⟩ := newcomer?_eq_some_iff.mp arrived
      exact ⟨notKnown, time, member⟩
    · rintro ⟨notKnown, time, member⟩
      exact ⟨_, ⟨_, member, newcomer?_eq_some_iff.mpr ⟨rfl, notKnown⟩⟩, rfl⟩

/-- The events of a comparison lead from the paths known before to those known after it. -/
theorem replay_between :
    replay known.keys.toFinset (between known observed).events =
      (between known observed).times.keys.toFinset := by
  ext path
  rw [mem_replay_of_nodup nodup_paths_between, created_mem_events_between,
    deleted_mem_events_between, List.mem_toFinset, List.mem_toFinset, mem_keys_between]
  by_cases isKnown : path ∈ known.keys <;> simp [isKnown]

end Changes

end TreeWatch
