/-!
Maps from paths that keep their entries in the order in which the paths were first put in.

Putting a value under a known path keeps the path's place. The keys of the result of each
operation are given beside it.
-/

namespace TreeWatch

universe u

structure PathMap (α : Type u) where
  entries : List (String × α)
  distinct : (entries.map Prod.fst).Nodup

namespace PathMap

variable {α : Type u}

def keys (map : PathMap α) : List String := map.entries.map Prod.fst

theorem nodup_keys (map : PathMap α) : map.keys.Nodup := map.distinct

def empty : PathMap α := ⟨[], List.nodup_nil⟩

instance : Inhabited (PathMap α) := ⟨empty⟩

def lookup (path : String) : List (String × α) → Option α
  | [] => none
  | (key, value) :: rest => if key = path then some value else lookup path rest

def get? (map : PathMap α) (path : String) : Option α := lookup path map.entries

def contains (map : PathMap α) (path : String) : Bool := (map.get? path).isSome

theorem lookup_isSome {path : String} {entries : List (String × α)} :
    (lookup path entries).isSome = true ↔ path ∈ entries.map Prod.fst := by
  induction entries with
  | nil => simp [lookup]
  | cons entry rest inductionHypothesis =>
      obtain ⟨key, value⟩ := entry
      by_cases same : key = path
      · simp [lookup, same]
      · simp only [lookup, if_neg same, inductionHypothesis, List.map_cons, List.mem_cons,
          Ne.symm same, false_or]

theorem contains_iff {map : PathMap α} {path : String} :
    map.contains path = true ↔ path ∈ map.keys := lookup_isSome

/-- Puts a value in the path's place, or at the end. -/
def insertEntry (path : String) (value : α) : List (String × α) → List (String × α)
  | [] => [(path, value)]
  | (key, old) :: rest =>
      if key = path then (key, value) :: rest else (key, old) :: insertEntry path value rest

theorem keys_insertEntry (path : String) (value : α) (entries : List (String × α)) :
    (insertEntry path value entries).map Prod.fst =
      if path ∈ entries.map Prod.fst then entries.map Prod.fst
      else entries.map Prod.fst ++ [path] := by
  induction entries with
  | nil => simp [insertEntry]
  | cons entry rest inductionHypothesis =>
      obtain ⟨key, old⟩ := entry
      by_cases same : key = path
      · simp [insertEntry, same]
      · simp only [insertEntry, if_neg same, List.map_cons, inductionHypothesis, List.mem_cons,
          Ne.symm same, false_or, List.cons_append]
        split <;> rfl

def insert (map : PathMap α) (path : String) (value : α) : PathMap α where
  entries := insertEntry path value map.entries
  distinct := by
    rw [keys_insertEntry]
    split
    · exact map.distinct
    · rename_i absent
      exact List.nodup_append.mpr ⟨map.distinct, by simp, fun a member b singleton same =>
        absent (by rw [List.mem_singleton.mp singleton] at same; exact same ▸ member)⟩

theorem keys_insert (map : PathMap α) (path : String) (value : α) :
    (map.insert path value).keys =
      if path ∈ map.keys then map.keys else map.keys ++ [path] :=
  keys_insertEntry path value map.entries

theorem keys_filter (keep : String → Bool) (entries : List (String × α)) :
    (entries.filter fun entry => keep entry.1).map Prod.fst =
      (entries.map Prod.fst).filter keep := by
  rw [List.filter_map]
  rfl

def erase (map : PathMap α) (path : String) : PathMap α where
  entries := map.entries.filter fun entry => entry.1 != path
  distinct := by
    rw [keys_filter (· != path)]
    exact map.distinct.filter _

/-- The map of a list of entries, the last value of a path being kept. -/
def ofList (entries : List (String × α)) : PathMap α :=
  entries.foldl (fun map (path, value) => map.insert path value) empty

end PathMap

end TreeWatch
