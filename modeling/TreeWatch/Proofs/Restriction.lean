import TreeWatch.Proofs.Changes

/-!
Looking at some of the paths only.

A comparison judges every path by itself. What it finds of some of the paths is therefore what a
comparison finds that knows and observes nothing but these, in the same order.
-/

namespace TreeWatch

namespace PathMap

variable {α : Type*} {keep : String → Bool} {path : String}

theorem ext_entries {map other : PathMap α} (same : map.entries = other.entries) : map = other := by
  obtain ⟨entries, _⟩ := map
  cases same
  rfl

def restrict (keep : String → Bool) (map : PathMap α) : PathMap α where
  entries := map.entries.filter fun entry => keep entry.1
  distinct := by
    rw [keys_filter]
    exact map.distinct.filter keep

theorem entries_restrict (keep : String → Bool) (map : PathMap α) :
    (map.restrict keep).entries = map.entries.filter fun entry => keep entry.1 := rfl

theorem keys_restrict (keep : String → Bool) (map : PathMap α) :
    (map.restrict keep).keys = map.keys.filter keep :=
  keys_filter keep map.entries

theorem lookup_filter_of_kept (kept : keep path = true) (entries : List (String × α)) :
    lookup path (entries.filter fun entry => keep entry.1) = lookup path entries := by
  induction entries with
  | nil => rfl
  | cons entry entries inductionHypothesis =>
      obtain ⟨key, value⟩ := entry
      by_cases same : key = path
      · simp [same, kept, lookup]
      · by_cases keptToo : keep key = true <;> simp [lookup, same, keptToo, inductionHypothesis]

theorem get?_restrict_of_kept (kept : keep path = true) (map : PathMap α) :
    (map.restrict keep).get? path = map.get? path :=
  lookup_filter_of_kept kept map.entries

theorem contains_restrict_of_kept (kept : keep path = true) (map : PathMap α) :
    (map.restrict keep).contains path = map.contains path := by
  rw [contains, contains, get?_restrict_of_kept kept]

theorem filter_insertEntry_of_kept (kept : keep path = true) (value : α)
    (entries : List (String × α)) :
    (insertEntry path value entries).filter (fun entry => keep entry.1) =
      insertEntry path value (entries.filter fun entry => keep entry.1) := by
  induction entries with
  | nil => simp [insertEntry, kept]
  | cons entry entries inductionHypothesis =>
      obtain ⟨key, old⟩ := entry
      by_cases same : key = path
      · simp [insertEntry, same, kept]
      · by_cases keptToo : keep key = true <;>
          simp [insertEntry, same, keptToo, inductionHypothesis]

theorem filter_insertEntry_of_dropped (dropped : keep path = false) (value : α)
    (entries : List (String × α)) :
    (insertEntry path value entries).filter (fun entry => keep entry.1) =
      entries.filter fun entry => keep entry.1 := by
  induction entries with
  | nil => simp [insertEntry, dropped]
  | cons entry entries inductionHypothesis =>
      obtain ⟨key, old⟩ := entry
      by_cases same : key = path
      · simp [insertEntry, same, dropped]
      · by_cases keptToo : keep key = true <;>
          simp [insertEntry, same, keptToo, inductionHypothesis]

theorem restrict_insert_of_kept (kept : keep path = true) (map : PathMap α) (value : α) :
    (map.insert path value).restrict keep = (map.restrict keep).insert path value :=
  ext_entries (filter_insertEntry_of_kept kept value map.entries)

theorem restrict_insert_of_dropped (dropped : keep path = false) (map : PathMap α) (value : α) :
    (map.insert path value).restrict keep = map.restrict keep :=
  ext_entries (filter_insertEntry_of_dropped dropped value map.entries)

theorem restrict_foldl_insert (keep : String → Bool) (value : String → α) (map : PathMap α)
    (paths : List String) :
    (paths.foldl (fun map path => map.insert path (value path)) map).restrict keep =
      (paths.filter keep).foldl (fun map path => map.insert path (value path))
        (map.restrict keep) := by
  induction paths generalizing map with
  | nil => rfl
  | cons path paths inductionHypothesis =>
      rw [List.foldl_cons, inductionHypothesis, List.filter_cons]
      by_cases kept : keep path = true
      · rw [if_pos kept, List.foldl_cons, restrict_insert_of_kept kept]
      · rw [if_neg kept, restrict_insert_of_dropped (Bool.eq_false_iff.mpr kept)]

end PathMap

namespace Changes

def Revision.restrict (keep : String → Bool) (revision : Revision) : Revision :=
  ⟨revision.events.filter fun event => keep event.path, revision.times.restrict keep⟩

section Paths

variable {keep : String → Bool}

theorem filter_arrival? (known : Times) (entry : String × Option Seconds) :
    (arrival? known entry).filter (fun event => keep event.path) =
      if keep entry.1 then arrival? (known.restrict keep) entry else none := by
  obtain ⟨path, none | time⟩ := entry
  · simp [arrival?]
  · by_cases kept : keep path = true
    · rw [if_pos kept, arrival?, arrival?, PathMap.get?_restrict_of_kept kept]
      cases known.get? path with
      | none => simp [kept]
      | some previous =>
          simp only
          split <;> simp [kept]
    · rw [if_neg kept, arrival?]
      cases known.get? path with
      | none => simp [kept]
      | some previous =>
          simp only
          split <;> simp [kept]

theorem departed_restrict (keep : String → Bool) (known : Times) (observed : Observation) :
    departed (known.restrict keep) (observed.restrict keep) =
      (departed known observed).filter keep := by
  rw [departed, departed, PathMap.keys_restrict, List.filter_filter, List.filter_filter]
  apply List.filter_congr
  intro path _
  by_cases kept : keep path = true
  · simp [kept, PathMap.contains_restrict_of_kept kept]
  · simp [kept]

theorem events_restrict (keep : String → Bool) (known : Times) (observed : Observation) :
    (between (known.restrict keep) (observed.restrict keep)).events =
      (between known observed).events.filter fun event => keep event.path := by
  have arrivals : (observed.restrict keep).entries.filterMap (arrival? (known.restrict keep)) =
      (observed.entries.filterMap (arrival? known)).filter fun event => keep event.path := by
    rw [List.filter_filterMap, PathMap.entries_restrict, List.filterMap_filter]
    simp only [filter_arrival?]
  have gone : ((departed known observed).map (⟨.deleted, ·⟩ : String → Event)).filter
      (fun event => keep event.path) =
      ((departed known observed).filter keep).map (⟨.deleted, ·⟩) := by
    rw [List.filter_map]
    rfl
  rw [events_between, events_between, List.filter_append, arrivals, gone, departed_restrict]

theorem newcomer?_restrict (known : Times) (entry : String × Option Seconds) :
    (newcomer? known entry).filter (fun entry => keep entry.1) =
      if keep entry.1 then newcomer? (known.restrict keep) entry else none := by
  obtain ⟨path, time⟩ := entry
  by_cases kept : keep path = true
  · rw [if_pos kept, newcomer?, newcomer?, PathMap.contains_restrict_of_kept kept]
    split
    · rfl
    · cases time <;> simp [kept]
  · rw [if_neg kept, newcomer?]
    split
    · rfl
    · cases time <;> simp [kept]

theorem revised_restrict (keep : String → Bool) (known : Times) (observed : Observation) :
    revised (known.restrict keep) (observed.restrict keep).entries =
      (revised known observed.entries).filter fun entry => keep entry.1 := by
  rw [revised, revised, List.filter_map]
  apply List.map_congr_left
  intro entry member
  have kept : keep entry.1 = true := (List.mem_filter.mp member).2
  rw [PathMap.entries_restrict, PathMap.lookup_filter_of_kept kept]

theorem times_restrict (keep : String → Bool) (known : Times) (observed : Observation) :
    (between (known.restrict keep) (observed.restrict keep)).times =
      (between known observed).times.restrict keep := by
  apply PathMap.ext_entries
  have newcomers : (observed.restrict keep).entries.filterMap (newcomer? (known.restrict keep)) =
      (observed.entries.filterMap (newcomer? known)).filter fun entry => keep entry.1 := by
    rw [List.filter_filterMap, PathMap.entries_restrict, List.filterMap_filter]
    simp only [newcomer?_restrict]
  rw [entries_between, newcomers, revised_restrict, PathMap.entries_restrict, entries_between,
    List.filter_append, List.filter_filter, List.filter_filter]
  congr 1
  apply List.filter_congr
  intro entry _
  by_cases kept : keep entry.1 = true
  · simp [kept, PathMap.contains_restrict_of_kept kept]
  · simp [kept]

/-- A comparison of some of the paths finds what a comparison of all paths finds of them. -/
theorem between_restrict (keep : String → Bool) (known : Times) (observed : Observation) :
    between (known.restrict keep) (observed.restrict keep) =
      (between known observed).restrict keep :=
  congrArg₂ Revision.mk (events_restrict keep known observed) (times_restrict keep known observed)

end Paths

end Changes

end TreeWatch
