import Mathlib.Data.List.Induction
import TreeWatch.Changes

/-!
What a comparison finds, in closed form.

The events are those of the observed paths, in the order of the observation, followed by those of
the paths that are gone, in the order in which they are known. The times are those of the known
paths that are still there, in their old order, followed by those of the new paths.
-/

namespace TreeWatch

namespace PathMap

variable {α : Type*}

theorem lookup_eq_none_iff {path : String} {entries : List (String × α)} :
    lookup path entries = none ↔ path ∉ entries.map Prod.fst := by
  rw [← lookup_isSome, Option.not_isSome_iff_eq_none]

theorem lookup_append (path : String) (entries more : List (String × α)) :
    lookup path (entries ++ more) = (lookup path entries).or (lookup path more) := by
  induction entries with
  | nil => simp [lookup]
  | cons entry entries inductionHypothesis =>
      obtain ⟨key, value⟩ := entry
      rw [List.cons_append, lookup, lookup]
      split
      · rfl
      · exact inductionHypothesis

theorem lookup_concat_of_ne {path key : String} (different : key ≠ path)
    (entries : List (String × α)) (value : α) :
    lookup key (entries ++ [(path, value)]) = lookup key entries := by
  rw [lookup_append, lookup, if_neg (Ne.symm different), lookup, Option.or_none]

theorem lookup_concat_self {path : String} {entries : List (String × α)}
    (fresh : path ∉ entries.map Prod.fst) (value : α) :
    lookup path (entries ++ [(path, value)]) = some value := by
  rw [lookup_append, lookup_eq_none_iff.mpr fresh, lookup, if_pos rfl, Option.none_or]

theorem lookup_eq_some_iff {path : String} {value : α} {entries : List (String × α)}
    (distinct : (entries.map Prod.fst).Nodup) :
    lookup path entries = some value ↔ (path, value) ∈ entries := by
  induction entries with
  | nil => simp [lookup]
  | cons entry entries inductionHypothesis =>
      obtain ⟨key, old⟩ := entry
      obtain ⟨fresh, distinctRest⟩ := List.nodup_cons.mp distinct
      rw [lookup, List.mem_cons, Prod.mk.injEq]
      split
      · rename_i same
        subst same
        have absent : (key, value) ∉ entries := by
          intro member
          apply fresh
          apply List.mem_map.mpr
          exact ⟨_, member, rfl⟩
        simp [absent, eq_comm]
      · rename_i different
        rw [inductionHypothesis distinctRest]
        simp [Ne.symm different]

theorem get?_eq_some_iff {map : PathMap α} {path : String} {value : α} :
    map.get? path = some value ↔ (path, value) ∈ map.entries :=
  lookup_eq_some_iff map.distinct

theorem get?_eq_none_iff {map : PathMap α} {path : String} :
    map.get? path = none ↔ path ∉ map.keys :=
  lookup_eq_none_iff

theorem insertEntry_of_not_mem {path : String} {value : α} {entries : List (String × α)}
    (absent : path ∉ entries.map Prod.fst) :
    insertEntry path value entries = entries ++ [(path, value)] := by
  induction entries with
  | nil => rfl
  | cons entry entries inductionHypothesis =>
      obtain ⟨key, old⟩ := entry
      obtain ⟨different, absentRest⟩ := not_or.mp (List.mem_cons.not.mp absent)
      rw [insertEntry, if_neg (Ne.symm different), inductionHypothesis absentRest]
      rfl

theorem insertEntry_append_of_mem {path : String} {value : α} {entries more : List (String × α)}
    (distinct : (entries.map Prod.fst).Nodup) (member : path ∈ entries.map Prod.fst) :
    insertEntry path value (entries ++ more) =
      entries.map (fun entry => if entry.1 = path then (entry.1, value) else entry) ++ more := by
  induction entries with
  | nil => cases member
  | cons entry entries inductionHypothesis =>
      obtain ⟨key, old⟩ := entry
      obtain ⟨fresh, distinctRest⟩ := List.nodup_cons.mp distinct
      rw [List.cons_append, insertEntry, List.map_cons, List.cons_append]
      split
      · rename_i same
        subst same
        have unchanged : entries.map (fun entry =>
            if entry.1 = key then (entry.1, value) else entry) = entries := by
          refine (List.map_congr_left fun entry present => ?_).trans (List.map_id entries)
          rw [if_neg, id]
          rintro rfl
          exact fresh (List.mem_map.mpr ⟨entry, present, rfl⟩)
        rw [unchanged]
      · rename_i different
        rcases List.mem_cons.mp member with same | later
        · exact absurd same.symm different
        · rw [inductionHypothesis distinctRest later]

theorem lookup_insertEntry (path key : String) (value : α) (entries : List (String × α)) :
    lookup key (insertEntry path value entries) =
      if key = path then some value else lookup key entries := by
  induction entries with
  | nil => simp [insertEntry, lookup, eq_comm]
  | cons entry entries inductionHypothesis =>
      obtain ⟨other, old⟩ := entry
      by_cases same : other = path
      · subst same
        by_cases isKey : key = other
        · simp [insertEntry, lookup, isKey]
        · simp [insertEntry, lookup, isKey, Ne.symm isKey]
      · by_cases isKey : other = key
        · subst isKey
          simp [insertEntry, lookup, same]
        · simp [insertEntry, lookup, same, isKey, inductionHypothesis]

theorem get?_insert (map : PathMap α) (path key : String) (value : α) :
    (map.insert path value).get? key = if key = path then some value else map.get? key :=
  lookup_insertEntry path key value map.entries

end PathMap

namespace Changes

open PathMap (lookup)

def arrival? (known : Times) : String × Option Seconds → Option Event
  | (_, none) => none
  | (path, some time) =>
      match known.get? path with
      | none => some ⟨.created, path⟩
      | some previous => if previous < time then some ⟨.modified, path⟩ else none

/-- The time of a known path in the light of what was observed of it. -/
def latest (previous : Seconds) : Option (Option Seconds) → Seconds
  | some (some time) => if previous < time then time else previous
  | _ => previous

/-- The time of an observed path that was not known. -/
def newcomer? (known : Times) : String × Option Seconds → Option (String × Seconds)
  | (path, time) => if known.contains path then none else time.map (path, ·)

def departed (known : Times) (observed : Observation) : List String :=
  known.keys.filter fun path => !observed.contains path

theorem events_foldl_observe (known : Times) (revision : Revision)
    (entries : List (String × Option Seconds)) :
    (entries.foldl (Revision.observe known) revision).events =
      revision.events ++ entries.filterMap (arrival? known) := by
  induction entries generalizing revision with
  | nil => simp
  | cons entry entries inductionHypothesis =>
      rw [List.foldl_cons, inductionHypothesis, List.filterMap_cons]
      obtain ⟨path, none | time⟩ := entry
      · rfl
      · simp only [Revision.observe, arrival?]
        cases known.get? path with
        | none => simp [Revision.record]
        | some previous =>
            simp only
            split <;> simp [Revision.record]

theorem events_foldl_retain (observed : Observation) (revision : Revision) (paths : List String) :
    (paths.foldl (Revision.retain observed) revision).events =
      revision.events ++
        (paths.filter fun path => !observed.contains path).map (⟨.deleted, ·⟩) := by
  induction paths generalizing revision with
  | nil => simp
  | cons path paths inductionHypothesis =>
      rw [List.foldl_cons, inductionHypothesis, Revision.retain, List.filter_cons]
      by_cases present : observed.contains path = true <;> simp [present]

theorem events_between (known : Times) (observed : Observation) :
    (between known observed).events =
      observed.entries.filterMap (arrival? known) ++
        (departed known observed).map (⟨.deleted, ·⟩) := by
  rw [between, events_foldl_retain, events_foldl_observe, List.nil_append]
  rfl

theorem newcomer?_eq_some_iff {known : Times} {entry : String × Option Seconds} {path : String}
    {time : Seconds} :
    newcomer? known entry = some (path, time) ↔ entry = (path, some time) ∧ path ∉ known.keys := by
  obtain ⟨observedPath, observed⟩ := entry
  rw [newcomer?]
  split
  · rename_i present
    have member := PathMap.contains_iff.mp present
    simp only [reduceCtorEq, Prod.mk.injEq, false_iff, not_and, not_not, and_imp]
    rintro rfl _
    exact member
  · rename_i absent
    have notMember := PathMap.contains_iff.not.mp absent
    cases observed with
    | none => simp
    | some time =>
        simp only [Option.map_some, Option.some.injEq, Prod.mk.injEq]
        constructor
        · rintro ⟨rfl, rfl⟩
          exact ⟨⟨rfl, rfl⟩, notMember⟩
        · rintro ⟨same, _⟩
          exact same

/-- The known times as they are revised by observed entries. -/
def revised (known : Times) (entries : List (String × Option Seconds)) : List (String × Seconds) :=
  known.entries.map fun entry => (entry.1, latest entry.2 (lookup entry.1 entries))

theorem map_fst_revised (known : Times) (entries : List (String × Option Seconds)) :
    (revised known entries).map Prod.fst = known.keys := by
  rw [revised, List.map_map]
  rfl

section Concat

variable {known : Times} {entries : List (String × Option Seconds)} {path : String}

theorem mem_revised_of_fresh {previous time : Seconds}
    (knownBefore : known.get? path = some previous)
    (fresh : path ∉ entries.map Prod.fst) (member : (path, time) ∈ revised known entries) :
    time = previous := by
  obtain ⟨⟨key, old⟩, present, same⟩ := List.mem_map.mp member
  obtain ⟨rfl, rfl⟩ := Prod.mk.inj same
  have found := PathMap.get?_eq_some_iff.mpr present
  cases found.symm.trans knownBefore
  rw [PathMap.lookup_eq_none_iff.mpr fresh]
  rfl

theorem revised_concat (fresh : path ∉ entries.map Prod.fst) (observed : Option Seconds) :
    revised known (entries ++ [(path, observed)]) =
      (revised known entries).map fun entry =>
        if entry.1 = path then (entry.1, latest entry.2 (some observed)) else entry := by
  rw [revised, revised, List.map_map]
  apply List.map_congr_left
  intro entry _
  by_cases same : entry.1 = path
  · have unknown : lookup entry.1 entries = none := PathMap.lookup_eq_none_iff.mpr (same ▸ fresh)
    simp only [Function.comp_apply, if_pos same]
    rw [unknown, same, PathMap.lookup_concat_self fresh]
    rfl
  · simp only [Function.comp_apply, if_neg same]
    rw [PathMap.lookup_concat_of_ne same]

theorem revised_concat_eq_self (fresh : path ∉ entries.map Prod.fst) {observed : Option Seconds}
    (stands : ∀ time, (path, time) ∈ revised known entries →
      latest time (some observed) = time) :
    revised known (entries ++ [(path, observed)]) = revised known entries := by
  rw [revised_concat fresh]
  refine (List.map_congr_left fun entry member => ?_).trans (List.map_id _)
  split
  · rename_i same
    subst same
    rw [stands entry.2 member, id]
  · rfl

theorem revised_concat_later {previous time : Seconds} (fresh : path ∉ entries.map Prod.fst)
    (knownBefore : known.get? path = some previous) (later : previous < time) :
    revised known (entries ++ [(path, some time)]) =
      (revised known entries).map fun entry =>
        if entry.1 = path then (entry.1, time) else entry := by
  rw [revised_concat fresh]
  apply List.map_congr_left
  intro entry member
  split
  · rename_i same
    subst same
    rw [mem_revised_of_fresh knownBefore fresh member, latest, if_pos later]
  · rfl

end Concat

theorem times_observe {known : Times} {revision : Revision}
    {entries : List (String × Option Seconds)} {path : String} (observed : Option Seconds)
    (fresh : path ∉ entries.map Prod.fst)
    (before : revision.times.entries =
      revised known entries ++ entries.filterMap (newcomer? known)) :
    (revision.observe known (path, observed)).times.entries =
      revised known (entries ++ [(path, observed)]) ++
        (entries ++ [(path, observed)]).filterMap (newcomer? known) := by
  rw [List.filterMap_append]
  cases observed with
  | none =>
      rw [revised_concat_eq_self fresh fun time _ => rfl]
      simpa [Revision.observe, newcomer?] using before
  | some time =>
      cases knownBefore : known.get? path with
      | none =>
          have notKnown : path ∉ known.keys := PathMap.get?_eq_none_iff.mp knownBefore
          have arrives : newcomer? known (path, some time) = some (path, time) :=
            newcomer?_eq_some_iff.mpr ⟨rfl, notKnown⟩
          have absent : path ∉
              (revised known entries ++ entries.filterMap (newcomer? known)).map Prod.fst := by
            rw [List.map_append, map_fst_revised, List.mem_append, not_or]
            refine ⟨notKnown, fun member => ?_⟩
            obtain ⟨⟨key, value⟩, present, rfl⟩ := List.mem_map.mp member
            obtain ⟨entry, entryPresent, arrived⟩ := List.mem_filterMap.mp present
            obtain ⟨rfl, _⟩ := newcomer?_eq_some_iff.mp arrived
            exact fresh (List.mem_map_of_mem entryPresent)
          have stands : revised known (entries ++ [(path, some time)]) = revised known entries :=
            revised_concat_eq_self fresh fun time member => absurd
              (map_fst_revised known entries ▸ List.mem_map_of_mem member) notKnown
          simp only [Revision.observe, knownBefore, Revision.record, PathMap.insert, before, stands,
            PathMap.insertEntry_of_not_mem absent, List.filterMap_cons, arrives,
            List.filterMap_nil, List.append_assoc]
      | some previous =>
          have isKnown : path ∈ (revised known entries).map Prod.fst := by
            rw [map_fst_revised]
            exact PathMap.lookup_isSome.mp (by rw [← PathMap.get?, knownBefore]; rfl)
          have distinct : ((revised known entries).map Prod.fst).Nodup := by
            rw [map_fst_revised]
            exact known.nodup_keys
          have staysAway : newcomer? known (path, some time) = none := by
            rw [newcomer?, PathMap.contains, knownBefore]
            rfl
          simp only [Revision.observe, knownBefore, List.filterMap_cons, staysAway,
            List.filterMap_nil, List.append_nil]
          split
          · rename_i later
            simp only [Revision.record, PathMap.insert, before,
              PathMap.insertEntry_append_of_mem distinct isKnown,
              revised_concat_later fresh knownBefore later]
          · rename_i notLater
            have stands : revised known (entries ++ [(path, some time)]) = revised known entries :=
              revised_concat_eq_self fresh fun old member => by
                rw [mem_revised_of_fresh knownBefore fresh member, latest, if_neg notLater]
            rw [stands, before]

theorem times_foldl_observe (known : Times) {entries : List (String × Option Seconds)}
    (distinct : (entries.map Prod.fst).Nodup) :
    (entries.foldl (Revision.observe known) ⟨[], known⟩).times.entries =
      revised known entries ++ entries.filterMap (newcomer? known) := by
  induction entries using List.reverseRecOn with
  | nil => simp [revised, lookup, latest]
  | append_singleton entries entry inductionHypothesis =>
      obtain ⟨path, observed⟩ := entry
      rw [List.map_append, List.nodup_append] at distinct
      obtain ⟨distinctBefore, _, apart⟩ := distinct
      have fresh : path ∉ entries.map Prod.fst := fun member => apart path member path (by simp) rfl
      rw [List.foldl_append]
      exact times_observe observed fresh (inductionHypothesis distinctBefore)

theorem times_foldl_retain (observed : Observation) (revision : Revision) (paths : List String) :
    (paths.foldl (Revision.retain observed) revision).times.entries =
      revision.times.entries.filter fun entry =>
        !(decide (entry.1 ∈ paths) && !observed.contains entry.1) := by
  induction paths generalizing revision with
  | nil => exact (List.filter_eq_self.mpr (by simp)).symm
  | cons path paths inductionHypothesis =>
      rw [List.foldl_cons, inductionHypothesis, Revision.retain]
      by_cases present : observed.contains path = true
      · rw [if_pos present]
        apply List.filter_congr
        intro entry _
        by_cases same : entry.1 = path <;> simp [same, present]
      · rw [if_neg present]
        simp only [PathMap.erase, List.filter_filter]
        apply List.filter_congr
        intro entry _
        by_cases same : entry.1 = path <;> simp [same, present]

theorem entries_between (known : Times) (observed : Observation) :
    (between known observed).times.entries =
      ((revised known observed.entries).filter fun entry => observed.contains entry.1) ++
        observed.entries.filterMap (newcomer? known) := by
  rw [between, times_foldl_retain, times_foldl_observe known observed.distinct, List.filter_append]
  congr 1
  · apply List.filter_congr
    intro entry member
    have isKnown : entry.1 ∈ known.keys :=
      map_fst_revised known observed.entries ▸ List.mem_map_of_mem member
    simp [isKnown]
  · apply List.filter_eq_self.mpr
    intro entry member
    obtain ⟨original, present, arrived⟩ := List.mem_filterMap.mp member
    obtain ⟨_, notKnown⟩ := newcomer?_eq_some_iff.mp arrived
    simp [notKnown]

/-- All that a comparison finds, in order. The events are about the new and the later ones among
the observed paths, then about those of the known paths that are gone; the times are those of the
known paths that are left, each the later one if there are two, then those of the new paths. Every
observed time is held against the times known before, which the comparison only reads. -/
theorem between_in_order (known : Times) (observed : Observation) :
    (between known observed).events =
        (observed.entries.filterMap fun entry =>
          match entry.2, known.get? entry.1 with
          | none, _ => none
          | some _, none => some ⟨.created, entry.1⟩
          | some time, some previous =>
              if previous < time then some ⟨.modified, entry.1⟩ else none) ++
        ((known.keys.filter (· ∉ observed.keys)).map fun path => ⟨.deleted, path⟩) ∧
      (between known observed).times.entries =
        ((known.entries.filter (·.1 ∈ observed.keys)).map fun entry =>
          match observed.get? entry.1 with
          | some (some time) => (entry.1, if entry.2 < time then time else entry.2)
          | _ => entry) ++
        (observed.entries.filterMap fun entry =>
          if entry.1 ∈ known.keys then none else entry.2.map fun time => (entry.1, time)) := by
  have isGone (path : String) : (!observed.contains path) = decide (path ∉ observed.keys) := by
    simp [← PathMap.contains_iff]
  have isThere (path : String) : observed.contains path = decide (path ∈ observed.keys) := by
    simp [← PathMap.contains_iff]
  constructor
  · have arrivals : arrival? known = fun entry =>
        match entry.2, known.get? entry.1 with
        | none, _ => none
        | some _, none => some ⟨.created, entry.1⟩
        | some time, some previous =>
            if previous < time then some ⟨.modified, entry.1⟩ else none := by
      funext ⟨path, time⟩
      cases time with
      | none => rfl
      | some time =>
          simp only [arrival?]
          cases known.get? path <;> rfl
    rw [events_between, departed, arrivals]
    simp only [isGone]
  · have newcomers : newcomer? known = fun entry =>
        if entry.1 ∈ known.keys then none else entry.2.map fun time => (entry.1, time) := by
      funext ⟨path, time⟩
      simp only [newcomer?, PathMap.contains_iff]
    rw [entries_between, revised, List.filter_map, newcomers]
    simp only [Function.comp_def, isThere]
    congr 1
    apply List.map_congr_left
    rintro ⟨path, previous⟩ _
    change (path, latest previous (observed.get? path)) = _
    cases observed.get? path with
    | none => rfl
    | some time => cases time <;> rfl

/-- A file in the place of an older one, a file that cannot be read, one that is new and one that is
gone. -/
example :
    let known : Times := .ofList [("a", 1), ("b", 1), ("c", 1)]
    let observed : Observation := .ofList [("d", some 1), ("b", none), ("a", some 2)]
    (between known observed).events = [⟨.created, "d"⟩, ⟨.modified, "a"⟩, ⟨.deleted, "c"⟩] := by
  decide

end Changes

end TreeWatch
