import TreeWatch.Proofs.Loading
import TreeWatch.Proofs.Signed
import TreeWatch.Watcher.Schedule

/-!
The intervals that are accepted.

A document and a watcher refuse an interval that is zero or less. However an accepted one is
written, it is positive or not a number, which is neither more than zero nor at most zero. A
positive interval is over once it has gone by; one that is not a number is never over.
-/

namespace TreeWatch

namespace Number

def isNaN : Number → Bool
  | .integer _ => false
  | .double value => value.isNaN

variable {number : Number} {float : Float}

theorem isNaN_of_toFloat? (converted : number.toFloat? = some float) :
    float.isNaN = number.isNaN := by
  cases number with
  | double value =>
      cases converted
      rfl
  | integer value =>
      unfold toFloat? at converted
      dsimp only at converted
      split at converted
      · cases converted
      · cases converted
        obtain ⟨sign, signed⟩ := signed_ofInt value
        exact signed.isNaN_eq_false

theorem pos_iff_of_toFloat? (converted : number.toFloat? = some float)
    (notNonPositive : ¬float ≤ 0) : 0 < float ↔ number.isNaN = false := by
  rw [← isNaN_of_toFloat? converted]
  constructor
  · exact isNaN_eq_false_of_pos
  · intro isNumber
    rcases not_le_zero_iff.mp notNonPositive with positive | never
    · exact positive
    · exact absurd never (ne_true_of_eq_false isNumber)

end Number

def Document.isNaN : Document → Bool
  | .double value => value.isNaN
  | .text written => Numeral.read? written = some .notANumber
  | _ => false

namespace Config

/-- The interval that a source asks for, if it asks for one. -/
def Source.interval? (source : Source) : Option Document :=
  source.watch?.bind fun watch => watch.lookup "poll_interval"

variable {resolve : Path → Except Failure Path} {file : Path} {source : Source} {config : Config}

theorem isNaN_of_numberFrom {document : Document} {number : Number}
    (isNumber : numberFrom document = .ok number) : number.isNaN = document.isNaN := by
  cases document with
  | integer value =>
      cases isNumber
      rfl
  | double value =>
      cases isNumber
      rfl
  | text text =>
      rw [numberFrom] at isNumber
      split at isNumber
      · rename_i numeral found
        cases isNumber
        rw [Document.isNaN, Number.isNaN, found, Bool.eq_iff_iff, Numeral.isNaN_toFloat_iff,
          decide_eq_true_iff, Option.some_inj]
      · cases isNumber
  | boolean value => cases isNumber
  | null => cases isNumber
  | list elements => cases isNumber
  | mapping entries => cases isNumber

theorem pos_iff_of_intervalFrom {entry : Option Document} {interval : Seconds}
    (found : intervalFrom entry = .ok interval) :
    0 < interval ↔ entry.any Document.isNaN = false := by
  cases entry with
  | none =>
      cases found
      exact iff_of_true (by decide) rfl
  | some document =>
      rw [intervalFrom] at found
      split at found
      · cases found
      · rename_i number isNumber
        split at found
        · cases found
        · rename_i float converted
          split at found
          · cases found
          · rename_i notNonPositive
            cases found
            rw [Number.pos_iff_of_toFloat? converted notNonPositive, isNaN_of_numberFrom isNumber,
              Option.any_some]

theorem intervalFrom_of_load (loaded : load resolve file source = .ok config) :
    intervalFrom source.interval? = .ok config.interval := by
  cases found : source.watch? with
  | none =>
      have refused : ∃ invalid, load resolve file source = .error (.invalid invalid) :=
        exists_invalid_of_no_watch found
      obtain ⟨invalid, same⟩ := refused
      cases same.symm.trans loaded
  | some watch =>
      rw [load_of_watch found, ofEntries_eq_ok_iff] at loaded
      rw [Source.interval?, found, Option.bind_some]
      exact loaded.2.2.1

theorem load_of_interval {number : Number} {seconds : Seconds}
    (converted : number.toFloat? = some seconds) (notNonPositive : number.isNonPositive = false) :
    load resolve file
        (.document (.mapping [("watch", .mapping [("poll_interval", number.toDocument)])])) =
      .ok ⟨none, defaultPattern, seconds, Watcher.defaultBufferSize⟩ := by
  have intervalFound : intervalFrom (some number.toDocument) = .ok seconds :=
    intervalFrom_toDocument_eq_ok_iff.mpr ⟨converted, notNonPositive⟩
  rw [load_of_watch rfl, ofEntries_eq_ok_iff]
  exact ⟨rfl, rfl, intervalFound, rfl⟩

end Config

theorem Watcher.pos_iff_of_create {source : PatternSource} {interval : Number} {bufferSize : Int}
    {watcher : Watcher} (created : create source interval bufferSize = .ok watcher) :
    0 < watcher.interval ↔ interval.isNaN = false := by
  obtain ⟨notNonPositive, _, pattern, seconds, _, converted, rfl⟩ := create_eq_ok_iff.mp created
  apply Number.pos_iff_of_toFloat? converted
  rw [Number.le_zero_iff_of_toFloat? converted, notNonPositive]
  decide

theorem Watcher.exists_create_star {interval : Number} {seconds : Seconds} {bufferSize : Int}
    (converted : interval.toFloat? = some seconds)
    (notNonPositive : interval.isNonPositive = false) (positive : 0 < bufferSize) :
    ∃ watcher, create (.text "*") interval bufferSize = .ok watcher ∧
      watcher.interval = seconds := by
  have compiled : Pattern.compile "*" = .ok ⟨"*", [.any], rfl⟩ :=
    Pattern.compile_eq_ok_iff.mpr rfl
  exact exists_create compiled converted notNonPositive positive

/-- An interval that is accepted, by a document or by a watcher, is positive exactly if it is a
number. Of a positive one no time is left once a time at least as long has gone by, unless both are
infinite. -/
theorem accepted_intervals (resolve : Path → Except Failure Path) (file : Path)
    (source : Config.Source) (pattern : Watcher.PatternSource) (interval : Number)
    (bufferSize : Int) (started now : Seconds) :
    (∀ config, Config.load resolve file source = .ok config →
      (0 < config.interval ↔ source.interval?.any Document.isNaN = false)) ∧
    ∀ watcher, Watcher.create pattern interval bufferSize = .ok watcher →
      (0 < watcher.interval ↔ interval.isNaN = false) ∧
        (0 < watcher.interval → watcher.interval ≤ now - started →
          (watcher.interval.isInf = false ∨ (now - started).isInf = false) →
          Schedule.remaining watcher.interval started now ≤ 0) := by
  refine ⟨?_, ?_⟩
  · intro config loaded
    exact Config.pos_iff_of_intervalFrom (Config.intervalFrom_of_load loaded)
  · intro watcher created
    refine ⟨Watcher.pos_iff_of_create created, ?_⟩
    intro positive reached bounded
    exact sub_le_zero positive reached bounded

/-- Half a second, given to a document and to a watcher, and over after one second. -/
theorem accepted_intervals_half_second :
    let source : Config.Source :=
      .document (.mapping [("watch", .mapping [("poll_interval", .double 0.5)])])
    ∃ config watcher, Config.load .ok (Path.ofText "watch.yaml") source = .ok config ∧
      0 < config.interval ∧ Watcher.create (.text "*") (.double 0.5) 3 = .ok watcher ∧
      0 < watcher.interval ∧ Schedule.remaining watcher.interval 1 2 ≤ 0 := by
  intro source
  have notNonPositive : (Number.double 0.5).isNonPositive = false := by decide
  have loaded : Config.load .ok (Path.ofText "watch.yaml") source = .ok _ :=
    Config.load_of_interval rfl notNonPositive
  have roomy : (0 : Int) < 3 := by decide
  obtain ⟨watcher, created, sameInterval⟩ := Watcher.exists_create_star rfl notNonPositive roomy
  have accepted := accepted_intervals .ok (Path.ofText "watch.yaml") source (.text "*")
    (.double 0.5) 3 1 2
  have isNumber : (Number.double 0.5).isNaN = false := by decide
  obtain ⟨positiveIff, noneLeft⟩ := accepted.2 watcher created
  have positive := positiveIff.mpr isNumber
  refine ⟨_, watcher, loaded, (accepted.1 _ loaded).mpr isNumber, created, positive, ?_⟩
  apply noneLeft positive
  · rw [sameInterval]
    decide
  · rw [sameInterval]
    exact .inl (by decide)

/-- What is not a number is accepted as an interval, and such an interval is never over. -/
theorem nan_interval_accepted :
    let nan : Seconds := Float.ofBits 0x7FF8000000000000
    let source : Config.Source :=
      .document (.mapping [("watch", .mapping [("poll_interval", .double nan)])])
    (∃ config, Config.load .ok (Path.ofText "/w0/conf/globwatch.yaml") source = .ok config ∧
      ¬0 < config.interval) ∧
    ∃ watcher, Watcher.create (.text "*") (.double nan) 1 = .ok watcher ∧
      ¬0 < watcher.interval ∧
      ∀ started now, ¬Schedule.remaining watcher.interval started now ≤ 0 := by
  intro nan source
  have isNaN : nan.isNaN = true := by decide
  have notPositive : ¬0 < nan := by decide
  have notNonPositive : (Number.double nan).isNonPositive = false := by decide
  obtain ⟨watcher, created, sameInterval⟩ :=
    Watcher.exists_create_star rfl notNonPositive Int.one_pos
  refine ⟨⟨_, Config.load_of_interval rfl notNonPositive, notPositive⟩, watcher, created, ?_⟩
  rw [sameInterval]
  exact ⟨notPositive, fun started now => not_sub_le_zero_of_isNaN isNaN⟩

end TreeWatch
