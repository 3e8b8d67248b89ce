import TreeWatch.Config.Basic
import TreeWatch.Proofs.Sign
import TreeWatch.Proofs.Watcher.Mirror

/-!
The document and the watcher refuse the same values.

A document's interval is converted before it is compared with zero, a watcher's afterwards, and the
two look at their values in different orders. The sign of a number survives the conversion, so a
document with a pattern, an interval and a buffer size loads if a watcher can be created of these,
and a watcher of the loaded configuration is the same one.
-/

namespace TreeWatch

def Number.toDocument : Number → Document
  | .integer value => .integer value
  | .double value => .double value

theorem Watcher.exists_create {text : String} {pattern : Pattern} {interval : Number}
    {seconds : Seconds} {bufferSize : Int} (compiled : Pattern.compile text = .ok pattern)
    (converted : interval.toFloat? = some seconds)
    (notNonPositive : interval.isNonPositive = false) (positive : 0 < bufferSize) :
    ∃ watcher, create (.text text) interval bufferSize = .ok watcher ∧
      watcher.interval = seconds := by
  have sourceCompiled : (PatternSource.text text).compile = .ok pattern := compiled
  exact ⟨_, create_eq_ok_iff.mpr
    ⟨notNonPositive, positive, pattern, seconds, sourceCompiled, converted, rfl⟩, rfl⟩

theorem Watcher.create_double_of_create {source : PatternSource} {interval : Number}
    {bufferSize : Int} {watcher : Watcher}
    (created : create source interval bufferSize = .ok watcher) :
    create source (.double watcher.interval) bufferSize = .ok watcher := by
  obtain ⟨notNonPositive, positive, pattern, seconds, compiled, converted, rfl⟩ :=
    create_eq_ok_iff.mp created
  have sameSign := Number.le_zero_iff_of_toFloat? converted
  rw [notNonPositive] at sameSign
  rw [create_eq_ok_iff]
  refine ⟨decide_eq_false fun nonPositive => ?_, positive, pattern, seconds, compiled, ?_, rfl⟩
  · exact absurd (sameSign.mp nonPositive) (by decide)
  · rw [Number.toFloat?]

namespace Config

section Entry

variable {number : Number} {seconds : Seconds} {text pattern : String} {size bufferSize : Int}

theorem numberFrom_toDocument (number : Number) : numberFrom number.toDocument = .ok number := by
  cases number <;> simp only [Number.toDocument, numberFrom]

theorem intervalFrom_toDocument_eq_ok_iff :
    intervalFrom (some number.toDocument) = .ok seconds ↔
      number.toFloat? = some seconds ∧ number.isNonPositive = false := by
  simp only [intervalFrom, numberFrom_toDocument]
  cases converted : number.toFloat? with
  | none => simp
  | some float =>
      have sameSign := Number.le_zero_iff_of_toFloat? converted
      cases nonPositive : number.isNonPositive with
      | true => simp [sameSign.mpr nonPositive]
      | false =>
          have positive : ¬float ≤ 0 := by
            rw [sameSign, nonPositive]
            decide
          simp [positive]

theorem patternFrom_text_eq_ok_iff :
    patternFrom (some (.text text)) = .ok pattern ↔
      text = pattern ∧ ∃ compiled, Pattern.compile text = .ok compiled := by
  simp only [patternFrom]
  cases Pattern.compile text <;> simp

theorem bufferSizeFrom_integer_eq_ok_iff :
    bufferSizeFrom (some (.integer size)) = .ok bufferSize ↔ size = bufferSize ∧ 0 < size := by
  simp only [bufferSizeFrom]
  split
  · rename_i small
    exact iff_of_false (by simp) (by omega)
  · rename_i large
    have positive : 0 < size := by omega
    simp [positive]

end Entry

section Entries

variable {resolve : Path → Except Failure Path} {file : Path}
  {entries watch : List (String × Document)} {config : Config} {pattern : String}
  {interval : Number} {bufferSize : Int}

theorem bind_eq_ok_iff {Error Value Result : Type} {first : Except Error Value}
    {continuation : Value → Except Error Result} {result : Result} :
    first >>= continuation = .ok result ↔
      ∃ value, first = .ok value ∧ continuation value = .ok result := by
  cases first <;> simp [bind, Except.bind]

theorem bind_eq_error_iff {Error Value Result : Type} {first : Except Error Value}
    {continuation : Value → Except Error Result} {error : Error} :
    first >>= continuation = .error error ↔
      first = .error error ∨ ∃ value, first = .ok value ∧ continuation value = .error error := by
  cases first <;> simp [bind, Except.bind]

theorem ofEntries_eq_ok_iff :
    ofEntries resolve file watch = .ok config ↔
      rootFrom resolve file (watch.lookup "root_path") = .ok config.root ∧
        patternFrom (watch.lookup "pattern") = .ok config.pattern ∧
        intervalFrom (watch.lookup "poll_interval") = .ok config.interval ∧
        bufferSizeFrom (watch.lookup "buffer_size") = .ok config.bufferSize := by
  simp only [ofEntries, bind_eq_ok_iff]
  constructor
  · rintro ⟨root, rootFound, pattern, patternFound, interval, intervalFound, bufferSize, sizeFound,
      same⟩
    cases same
    exact ⟨rootFound, patternFound, intervalFound, sizeFound⟩
  · rintro ⟨rootFound, patternFound, intervalFound, sizeFound⟩
    exact ⟨_, rootFound, _, patternFound, _, intervalFound, _, sizeFound, rfl⟩

section Load

variable (watched : entries.lookup "watch" = some (.mapping watch))
  (patternGiven : watch.lookup "pattern" = some (.text pattern))
  (intervalGiven : watch.lookup "poll_interval" = some interval.toDocument)
  (sizeGiven : watch.lookup "buffer_size" = some (.integer bufferSize))

include watched patternGiven intervalGiven sizeGiven

theorem load_eq_ok_iff :
    load resolve file (.document (.mapping entries)) = .ok config ↔
      rootFrom resolve file (watch.lookup "root_path") = .ok config.root ∧
        (pattern = config.pattern ∧ ∃ compiled, Pattern.compile pattern = .ok compiled) ∧
        (interval.toFloat? = some config.interval ∧ interval.isNonPositive = false) ∧
        bufferSize = config.bufferSize ∧ 0 < bufferSize := by
  simp only [load, Document.entries?, watched, Option.bind_some]
  rw [ofEntries_eq_ok_iff, patternGiven, intervalGiven, sizeGiven, patternFrom_text_eq_ok_iff,
    intervalFrom_toDocument_eq_ok_iff, bufferSizeFrom_integer_eq_ok_iff]

theorem exists_load_of_create {root : Option Path} {watcher : Watcher}
    (rootFound : rootFrom resolve file (watch.lookup "root_path") = .ok root)
    (created : Watcher.create (.text pattern) interval bufferSize = .ok watcher) :
    ∃ config, load resolve file (.document (.mapping entries)) = .ok config := by
  obtain ⟨notNonPositive, positive, compiled, seconds, compiles, converted, _⟩ :=
    Watcher.create_eq_ok_iff.mp created
  refine ⟨⟨root, pattern, seconds, bufferSize⟩, ?_⟩
  rw [load_eq_ok_iff watched patternGiven intervalGiven sizeGiven]
  exact ⟨rootFound, ⟨rfl, compiled, compiles⟩, ⟨converted, notNonPositive⟩, rfl, positive⟩

theorem exists_create_of_load
    (loaded : load resolve file (.document (.mapping entries)) = .ok config) :
    ∃ watcher, Watcher.create (.text pattern) interval bufferSize = .ok watcher ∧
      Watcher.create (.text config.pattern) (.double config.interval) config.bufferSize =
        .ok watcher := by
  obtain ⟨_, ⟨rfl, compiled, compiles⟩, ⟨converted, notNonPositive⟩, rfl, positive⟩ :=
    (load_eq_ok_iff watched patternGiven intervalGiven sizeGiven).mp loaded
  obtain ⟨watcher, created, sameInterval⟩ :=
    Watcher.exists_create compiles converted notNonPositive positive
  have again := Watcher.create_double_of_create created
  rw [sameInterval] at again
  exact ⟨watcher, created, again⟩

/-- A document is refused for its pattern, its interval or its buffer size exactly if no watcher can
be created of the three; what it loads as makes the very watcher that the three make. -/
theorem load_agrees_with_create :
    ((∃ config, load resolve file (.document (.mapping entries)) = .ok config) ↔
      (∃ root, rootFrom resolve file (watch.lookup "root_path") = .ok root) ∧
        ∃ watcher, Watcher.create (.text pattern) interval bufferSize = .ok watcher) ∧
    (watch.lookup "root_path" = none →
      ((∃ config, load resolve file (.document (.mapping entries)) = .ok config) ↔
        ∃ watcher, Watcher.create (.text pattern) interval bufferSize = .ok watcher)) ∧
    ∀ config, load resolve file (.document (.mapping entries)) = .ok config →
      ∃ watcher, Watcher.create (.text pattern) interval bufferSize = .ok watcher ∧
        Watcher.create (.text config.pattern) (.double config.interval) config.bufferSize =
          .ok watcher := by
  have agrees : (∃ config, load resolve file (.document (.mapping entries)) = .ok config) ↔
      (∃ root, rootFrom resolve file (watch.lookup "root_path") = .ok root) ∧
        ∃ watcher, Watcher.create (.text pattern) interval bufferSize = .ok watcher := by
    constructor
    · rintro ⟨config, loaded⟩
      obtain ⟨watcher, created, _⟩ :=
        exists_create_of_load watched patternGiven intervalGiven sizeGiven loaded
      obtain ⟨rootFound, _⟩ :=
        (load_eq_ok_iff watched patternGiven intervalGiven sizeGiven).mp loaded
      exact ⟨⟨config.root, rootFound⟩, watcher, created⟩
    · rintro ⟨⟨root, rootFound⟩, watcher, created⟩
      exact exists_load_of_create watched patternGiven intervalGiven sizeGiven rootFound created
  refine ⟨agrees, ?_, ?_⟩
  · intro noRoot
    have found : ∃ root, rootFrom resolve file (watch.lookup "root_path") = .ok root :=
      ⟨none, by rw [noRoot, rootFrom]⟩
    rw [agrees, and_iff_right found]
  · intro config loaded
    exact exists_create_of_load watched patternGiven intervalGiven sizeGiven loaded

end Load

end Entries

/-- A document that asks for a look every two seconds and for room for three events. -/
theorem load_agrees_with_create_every_two_seconds :
    let watch : List (String × Document) :=
      [("pattern", .text "*"), ("poll_interval", .integer 2), ("buffer_size", .integer 3)]
    let source : Source := .document (.mapping [("watch", .mapping watch)])
    ∃ config watcher, load .ok (Path.ofText "watch.yaml") source = .ok config ∧
      Watcher.create (.text "*") (.integer 2) 3 = .ok watcher ∧
      Watcher.create (.text config.pattern) (.double config.interval) config.bufferSize =
        .ok watcher := by
  intro watch source
  have watched : [("watch", Document.mapping watch)].lookup "watch" = some (.mapping watch) := rfl
  have patternGiven : watch.lookup "pattern" = some (.text "*") := rfl
  have intervalGiven : watch.lookup "poll_interval" = some (Number.integer 2).toDocument := rfl
  have sizeGiven : watch.lookup "buffer_size" = some (.integer 3) := rfl
  have agrees : (∃ config, load .ok (Path.ofText "watch.yaml") source = .ok config) ↔
      ∃ watcher, Watcher.create (.text "*") (.integer 2) 3 = .ok watcher :=
    (load_agrees_with_create watched patternGiven intervalGiven sizeGiven).2.1 rfl
  have compiled : Pattern.compile "*" = .ok ⟨"*", [.any], rfl⟩ :=
    Pattern.compile_eq_ok_iff.mpr rfl
  have inRange : ¬Number.overflowBound ≤ (2 : Int).natAbs := by decide +kernel
  have converted : (Number.integer 2).toFloat? = some (.ofInt 2) := by
    rw [Number.toFloat?, if_neg inRange]
  have roomy : (0 : Int) < 3 := by decide
  obtain ⟨watcher, created, _⟩ := Watcher.exists_create compiled converted rfl roomy
  obtain ⟨config, loaded⟩ := agrees.mpr ⟨watcher, created⟩
  obtain ⟨watcher, created, again⟩ :=
    (load_agrees_with_create watched patternGiven intervalGiven sizeGiven).2.2 config loaded
  exact ⟨config, watcher, loaded, created, again⟩

end Config

end TreeWatch
