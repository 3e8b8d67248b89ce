import TreeWatch.Proofs.Replay
import TreeWatch.Proofs.Restriction

/-!
Comparing once more with the same observation.

A comparison leaves times with which the observation is settled: every known path was observed, and
no time that was observed is later than the known time of its path. Settled times stay as they are,
so whoever observes the same again finds nothing.
-/

namespace TreeWatch

theorem UnpackedFloat.compare_self_ne_lt (value : Float.Model.UnpackedFloat) :
    value.compare value ≠ some .lt := by
  cases value with
  | infinity sign => cases sign <;> decide
  | notANumber => decide
  | zero sign =>
      change some Ordering.eq ≠ some .lt
      decide
  | finite sign mantissa exponent positive =>
      have same : (compare exponent exponent).then (compare mantissa mantissa) = .eq := by simp
      cases sign with
      | positive =>
          change some ((compare exponent exponent).then (compare mantissa mantissa)) ≠ some .lt
          rw [same]
          decide
      | negative =>
          change some ((compare exponent exponent).then (compare mantissa mantissa)).swap ≠ some .lt
          rw [same]
          decide

/-- No time is later than itself, whether it is a number or not. -/
theorem Seconds.lt_irrefl (time : Seconds) : ¬time < time := by
  intro later
  have compared : (time.toModel.unpack.compare time.toModel.unpack == some .lt) = true :=
    of_decide_eq_true later
  exact UnpackedFloat.compare_self_ne_lt _ (eq_of_beq compared)

namespace Changes

/-- Whether an observation says nothing that is not known already. -/
structure Settled (times : Times) (observed : Observation) : Prop where
  seen : ∀ path ∈ times.keys, path ∈ observed.keys
  upToDate : ∀ path time, (path, some time) ∈ observed.entries →
    ∃ known, times.get? path = some known ∧ ¬known < time

section Settled

variable {times : Times} {observed : Observation}

theorem Settled.events_eq (settled : Settled times observed) :
    (between times observed).events = [] := by
  have noArrivals : observed.entries.filterMap (arrival? times) = [] := by
    apply List.filterMap_eq_nil_iff.mpr
    rintro ⟨path, none | time⟩ member
    · rfl
    · obtain ⟨known, found, notLater⟩ := settled.upToDate path time member
      simp only [arrival?, found, if_neg notLater]
  have noneGone : departed times observed = [] := by
    apply List.filter_eq_nil_iff.mpr
    intro path member
    simpa [PathMap.contains_iff] using settled.seen path member
  rw [events_between, noArrivals, noneGone]
  rfl

theorem Settled.times_eq (settled : Settled times observed) :
    (between times observed).times = times := by
  have unrevised : revised times observed.entries = times.entries := by
    refine (List.map_congr_left fun entry member => ?_).trans (List.map_id _)
    obtain ⟨path, known⟩ := entry
    change (path, latest known (observed.get? path)) = (path, known)
    cases answer : observed.get? path with
    | none => rfl
    | some time =>
        cases time with
        | none => rfl
        | some time =>
            obtain ⟨current, found, notLater⟩ :=
              settled.upToDate path time (PathMap.get?_eq_some_iff.mp answer)
            cases (PathMap.get?_eq_some_iff.mpr member).symm.trans found
            rw [latest, if_neg notLater]
  have allSeen : (times.entries.filter fun entry => observed.contains entry.1) = times.entries := by
    apply List.filter_eq_self.mpr
    intro entry member
    exact PathMap.contains_iff.mpr (settled.seen entry.1 (List.mem_map_of_mem member))
  have noNewcomers : observed.entries.filterMap (newcomer? times) = [] := by
    apply List.filterMap_eq_nil_iff.mpr
    rintro ⟨path, none | time⟩ member
    · simp [newcomer?]
    · obtain ⟨known, found, _⟩ := settled.upToDate path time member
      rw [newcomer?, PathMap.contains, found]
      rfl
  apply PathMap.ext_entries
  rw [entries_between, unrevised, allSeen, noNewcomers, List.append_nil]

theorem between_of_settled (settled : Settled times observed) :
    between times observed = ⟨[], times⟩ :=
  congrArg₂ Revision.mk settled.events_eq settled.times_eq

end Settled

variable (known : Times) (observed : Observation)

theorem get?_between_of_mem {path : String} {time : Seconds}
    (member : (path, some time) ∈ observed.entries) :
    (between known observed).times.get? path =
      some ((known.get? path).elim time fun previous => latest previous (some (some time))) := by
  apply PathMap.get?_eq_some_iff.mpr
  rw [entries_between, List.mem_append]
  cases before : known.get? path with
  | none =>
      apply Or.inr
      apply List.mem_filterMap.mpr
      exact ⟨_, member, newcomer?_eq_some_iff.mpr ⟨rfl, PathMap.get?_eq_none_iff.mp before⟩⟩
  | some previous =>
      apply Or.inl
      have answer : observed.get? path = some (some time) := PathMap.get?_eq_some_iff.mpr member
      have isSeen : observed.contains path = true := by rw [PathMap.contains, answer]; rfl
      refine List.mem_filter.mpr ⟨?_, isSeen⟩
      apply List.mem_map.mpr
      refine ⟨(path, previous), PathMap.get?_eq_some_iff.mp before, ?_⟩
      change (path, latest previous (observed.get? path)) = _
      rw [answer]
      rfl

theorem settled_between : Settled (between known observed).times observed where
  seen path member := by
    rcases mem_keys_between.mp member with ⟨_, isSeen⟩ | ⟨_, time, present⟩
    · exact isSeen
    · exact List.mem_map_of_mem present
  upToDate path time member := by
    refine ⟨_, get?_between_of_mem known observed member, ?_⟩
    cases known.get? path with
    | none => exact Seconds.lt_irrefl time
    | some previous =>
        simp only [Option.elim_some, latest]
        split
        · exact Seconds.lt_irrefl time
        · assumption

/-- Whoever observes the same again finds no changes and keeps all times in their order. -/
theorem between_between :
    between (between known observed).times observed = ⟨[], (between known observed).times⟩ :=
  between_of_settled (settled_between known observed)

end Changes

end TreeWatch
