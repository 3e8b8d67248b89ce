import TreeWatch.Proofs.Validation
import TreeWatch.Tree.Resolve

/-!
What can come of loading a configuration.

Whatever the document says, it has a configuration or is found to be invalid, with two exceptions:
the interval may be an integer that no double comes near, and the directory to watch may be one that
cannot be looked for. Neither is reported as a fault of the document.
-/

namespace TreeWatch.Config

def Source.watch? : Source → Option (List (String × Document))
  | .document content =>
      content.entries?.bind fun entries => (entries.lookup "watch").bind Document.entries?
  | _ => none

variable {resolve : Path → Except Failure Path} {file : Path} {source : Source}
  {watch : List (String × Document)} {entry : Option Document} {error : LoadError}

theorem load_of_watch (found : source.watch? = some watch) :
    load resolve file source = ofEntries resolve file watch := by
  cases source with
  | missing => cases found
  | unreadable => cases found
  | document content =>
      rw [Source.watch?] at found
      obtain ⟨entries, isMapping, hasSection⟩ := Option.bind_eq_some_iff.mp found
      simp only [load, isMapping, hasSection]

theorem exists_invalid_of_no_watch (absent : source.watch? = none) :
    ∃ invalid, load resolve file source = .error (.invalid invalid) := by
  cases source with
  | missing => exact ⟨_, rfl⟩
  | unreadable => exact ⟨_, rfl⟩
  | document content =>
      rw [Source.watch?] at absent
      cases isMapping : content.entries? with
      | none => exact ⟨.notMapping, by simp only [load, isMapping]⟩
      | some entries =>
          rw [isMapping, Option.bind_some] at absent
          exact ⟨.noWatchSection, by simp only [load, isMapping, absent]⟩

section Entry

theorem rootFrom_error (failed : rootFrom resolve file entry = .error error) :
    (∃ invalid, error = .invalid invalid) ∨
      ∃ text failure, error = .unresolved failure ∧ entry = some (.text text) ∧
        (Path.ofText text).isAbsolute = false ∧
        resolve (file.parent.join (Path.ofText text)) = .error failure := by
  unfold rootFrom at failed
  split at failed
  · cases failed
  · cases failed
  · rename_i text
    dsimp only at failed
    split at failed
    · cases failed
    · rename_i relative
      split at failed
      · cases failed
      · rename_i failure unresolved
        cases failed
        exact .inr ⟨text, failure, rfl, rfl, Bool.eq_false_iff.mpr relative, unresolved⟩
  · cases failed
    exact .inl ⟨_, rfl⟩

theorem rootFrom_of_unresolved {text : String} {failure : Failure}
    (relative : (Path.ofText text).isAbsolute = false)
    (unresolved : resolve (file.parent.join (Path.ofText text)) = .error failure) :
    rootFrom resolve file (some (.text text)) = .error (.unresolved failure) := by
  simp [rootFrom, relative, unresolved]

theorem patternFrom_error (failed : patternFrom entry = .error error) :
    ∃ invalid, error = .invalid invalid := by
  unfold patternFrom at failed
  split at failed
  · cases failed
  · split at failed
    · cases failed
    · cases failed
      exact ⟨_, rfl⟩
  · cases failed
    exact ⟨_, rfl⟩

/-- Text is read as a double, so it is never too large. -/
theorem exists_integer_of_tooLarge {document : Document} {number : Number}
    (isNumber : numberFrom document = .ok number) (tooLarge : number.toFloat? = none) :
    ∃ value, document = .integer value ∧ Number.overflowBound ≤ value.natAbs := by
  cases document with
  | integer value =>
      cases isNumber
      rw [Number.toFloat?] at tooLarge
      split at tooLarge
      · rename_i large
        exact ⟨value, rfl, large⟩
      · cases tooLarge
  | double value =>
      cases isNumber
      cases tooLarge
  | text text =>
      rw [numberFrom] at isNumber
      split at isNumber
      · cases isNumber
        cases tooLarge
      · cases isNumber
  | boolean value => cases isNumber
  | null => cases isNumber
  | list elements => cases isNumber
  | mapping entries => cases isNumber

theorem intervalFrom_error (failed : intervalFrom entry = .error error) :
    (∃ invalid, error = .invalid invalid) ∨
      error = .intervalTooLarge ∧
        ∃ value, entry = some (.integer value) ∧ Number.overflowBound ≤ value.natAbs := by
  cases entry with
  | none => cases failed
  | some document =>
      rw [intervalFrom] at failed
      split at failed
      · cases failed
        exact .inl ⟨_, rfl⟩
      · rename_i number isNumber
        split at failed
        · rename_i tooLarge
          cases failed
          obtain ⟨value, rfl, large⟩ := exists_integer_of_tooLarge isNumber tooLarge
          exact .inr ⟨rfl, value, rfl, large⟩
        · split at failed
          · cases failed
            exact .inl ⟨_, rfl⟩
          · cases failed

theorem intervalFrom_of_large {value : Int} (large : Number.overflowBound ≤ value.natAbs) :
    intervalFrom (some (.integer value)) = .error .intervalTooLarge := by
  simp only [intervalFrom, numberFrom, Number.toFloat?, if_pos large]

theorem bufferSizeFrom_error (failed : bufferSizeFrom entry = .error error) :
    ∃ invalid, error = .invalid invalid := by
  unfold bufferSizeFrom at failed
  split at failed
  · cases failed
  · split at failed
    · cases failed
      exact ⟨_, rfl⟩
    · cases failed
  · cases failed
    exact ⟨_, rfl⟩

end Entry

/-- Why entries have no configuration. -/
inductive Fails (resolve : Path → Except Failure Path) (file : Path)
    (watch : List (String × Document)) : LoadError → Prop where
  | invalid (invalid) : Fails resolve file watch (.invalid invalid)
  | unresolved {text failure} : watch.lookup "root_path" = some (.text text) →
      (Path.ofText text).isAbsolute = false →
      resolve (file.parent.join (Path.ofText text)) = .error failure →
      Fails resolve file watch (.unresolved failure)
  /-- The entries before the interval are looked at first. -/
  | tooLarge {root pattern value} :
      rootFrom resolve file (watch.lookup "root_path") = .ok root →
      patternFrom (watch.lookup "pattern") = .ok pattern →
      watch.lookup "poll_interval" = some (.integer value) →
      Number.overflowBound ≤ value.natAbs → Fails resolve file watch .intervalTooLarge

theorem fails_of_ofEntries (failed : ofEntries resolve file watch = .error error) :
    Fails resolve file watch error := by
  simp only [ofEntries, bind_eq_error_iff] at failed
  rcases failed with rootFailed | ⟨root, rootFound, patternFailed | ⟨pattern, patternFound,
    intervalFailed | ⟨interval, _, sizeFailed | ⟨bufferSize, _, never⟩⟩⟩⟩
  · rcases rootFrom_error rootFailed with ⟨_, rfl⟩ | ⟨_, _, rfl, given, relative, unresolved⟩
    · exact .invalid _
    · exact .unresolved given relative unresolved
  · obtain ⟨_, rfl⟩ := patternFrom_error patternFailed
    exact .invalid _
  · rcases intervalFrom_error intervalFailed with ⟨_, rfl⟩ | ⟨rfl, _, given, large⟩
    · exact .invalid _
    · exact .tooLarge rootFound patternFound given large
  · obtain ⟨_, rfl⟩ := bufferSizeFrom_error sizeFailed
    exact .invalid _
  · cases never

theorem ofEntries_of_unresolved {text : String} {failure : Failure}
    (given : watch.lookup "root_path" = some (.text text))
    (relative : (Path.ofText text).isAbsolute = false)
    (unresolved : resolve (file.parent.join (Path.ofText text)) = .error failure) :
    ofEntries resolve file watch = .error (.unresolved failure) := by
  simp only [ofEntries, bind_eq_error_iff, given]
  exact .inl (rootFrom_of_unresolved relative unresolved)

theorem ofEntries_of_large {root : Option Path} {pattern : String} {value : Int}
    (rootFound : rootFrom resolve file (watch.lookup "root_path") = .ok root)
    (patternFound : patternFrom (watch.lookup "pattern") = .ok pattern)
    (given : watch.lookup "poll_interval" = some (.integer value))
    (large : Number.overflowBound ≤ value.natAbs) :
    ofEntries resolve file watch = .error .intervalTooLarge := by
  simp only [ofEntries, bind_eq_error_iff, given]
  exact .inr ⟨root, rootFound, .inr ⟨pattern, patternFound, .inl (intervalFrom_of_large large)⟩⟩

theorem fails_of_load (failed : load resolve file source = .error error) :
    (∃ invalid, error = .invalid invalid) ∨
      ∃ watch, source.watch? = some watch ∧ Fails resolve file watch error := by
  cases found : source.watch? with
  | none =>
      have refused : ∃ invalid, load resolve file source = .error (.invalid invalid) :=
        exists_invalid_of_no_watch found
      obtain ⟨invalid, same⟩ := refused
      cases same.symm.trans failed
      exact .inl ⟨invalid, rfl⟩
  | some watch =>
      rw [load_of_watch found] at failed
      exact .inr ⟨watch, rfl, fails_of_ofEntries failed⟩

theorem load_eq_tooLarge_iff :
    load resolve file source = .error .intervalTooLarge ↔
      ∃ watch value, source.watch? = some watch ∧
        (∃ root, rootFrom resolve file (watch.lookup "root_path") = .ok root) ∧
        (∃ pattern, patternFrom (watch.lookup "pattern") = .ok pattern) ∧
        watch.lookup "poll_interval" = some (.integer value) ∧
        Number.overflowBound ≤ value.natAbs := by
  constructor
  · intro failed
    rcases fails_of_load failed with ⟨_, never⟩ | ⟨watch, found, fails⟩
    · cases never
    · cases fails with
      | tooLarge rootFound patternFound given large =>
          exact ⟨watch, _, found, ⟨_, rootFound⟩, ⟨_, patternFound⟩, given, large⟩
  · rintro ⟨watch, value, found, ⟨root, rootFound⟩, ⟨pattern, patternFound⟩, given, large⟩
    rw [load_of_watch found]
    exact ofEntries_of_large rootFound patternFound given large

theorem load_eq_unresolved_iff {failure : Failure} :
    load resolve file source = .error (.unresolved failure) ↔
      ∃ watch text, source.watch? = some watch ∧ watch.lookup "root_path" = some (.text text) ∧
        (Path.ofText text).isAbsolute = false ∧
        resolve (file.parent.join (Path.ofText text)) = .error failure := by
  constructor
  · intro failed
    rcases fails_of_load failed with ⟨_, never⟩ | ⟨watch, found, fails⟩
    · cases never
    · cases fails with
      | unresolved given relative unresolved => exact ⟨watch, _, found, given, relative, unresolved⟩
  · rintro ⟨watch, text, found, given, relative, unresolved⟩
    rw [load_of_watch found]
    exact ofEntries_of_unresolved given relative unresolved

theorem exists_config_or_invalid
    (moderate : ∀ watch value, source.watch? = some watch →
      watch.lookup "poll_interval" = some (.integer value) → value.natAbs < Number.overflowBound)
    (findable : ∀ watch text, source.watch? = some watch →
      watch.lookup "root_path" = some (.text text) → (Path.ofText text).isAbsolute = false →
      ∃ root, resolve (file.parent.join (Path.ofText text)) = .ok root) :
    (∃ config, load resolve file source = .ok config) ∨
      ∃ invalid, load resolve file source = .error (.invalid invalid) := by
  cases loaded : load resolve file source with
  | ok config => exact .inl ⟨config, rfl⟩
  | error error =>
      rcases fails_of_load loaded with ⟨invalid, rfl⟩ | ⟨watch, found, fails⟩
      · exact .inr ⟨invalid, rfl⟩
      · cases fails with
        | invalid invalid => exact .inr ⟨invalid, rfl⟩
        | unresolved given relative unresolved =>
            obtain ⟨root, resolved⟩ := findable watch _ found given relative
            cases resolved.symm.trans unresolved
        | tooLarge _ _ given large => exact absurd (moderate watch _ found given) (not_lt.mpr large)

/-- Two things alone keep a document from being loaded or found to be invalid. The first is an
interval that is too large for a double, where the entries before it are in order; the second is a
directory that cannot be looked for. -/
theorem load_valid_or_invalid (resolve : Path → Except Failure Path) (file : Path)
    (source : Source) :
    (load resolve file source = .error .intervalTooLarge ↔
      ∃ watch value, source.watch? = some watch ∧
        (∃ root, rootFrom resolve file (watch.lookup "root_path") = .ok root) ∧
        (∃ pattern, patternFrom (watch.lookup "pattern") = .ok pattern) ∧
        watch.lookup "poll_interval" = some (.integer value) ∧
        Number.overflowBound ≤ value.natAbs) ∧
    (∀ failure, load resolve file source = .error (.unresolved failure) ↔
      ∃ watch text, source.watch? = some watch ∧ watch.lookup "root_path" = some (.text text) ∧
        (Path.ofText text).isAbsolute = false ∧
        resolve (file.parent.join (Path.ofText text)) = .error failure) ∧
    ((∀ watch value, source.watch? = some watch →
        watch.lookup "poll_interval" = some (.integer value) →
        value.natAbs < Number.overflowBound) →
      (∀ watch text, source.watch? = some watch → watch.lookup "root_path" = some (.text text) →
        (Path.ofText text).isAbsolute = false →
        ∃ root, resolve (file.parent.join (Path.ofText text)) = .ok root) →
      (∃ config, load resolve file source = .ok config) ∨
        ∃ invalid, load resolve file source = .error (.invalid invalid)) :=
  ⟨load_eq_tooLarge_iff, fun _ => load_eq_unresolved_iff, exists_config_or_invalid⟩

/-- A document that asks for a look every two seconds below a directory beside it, and has no room
for an event. -/
theorem load_valid_or_invalid_without_room :
    let watch : List (String × Document) :=
      [("root_path", .text "src"), ("poll_interval", .integer 2), ("buffer_size", .integer 0)]
    let source : Source := .document (.mapping [("watch", .mapping watch)])
    (∃ config, load .ok (Path.ofText "watch.yaml") source = .ok config) ∨
      ∃ invalid, load .ok (Path.ofText "watch.yaml") source = .error (.invalid invalid) := by
  intro watch source
  have watched : source.watch? = some watch := rfl
  apply (load_valid_or_invalid .ok (Path.ofText "watch.yaml") source).2.2
  · intro other value found given
    cases watched.symm.trans found
    have isTwo : some (Document.integer 2) = some (.integer value) := given
    cases isTwo
    decide +kernel
  · intro _ text _ _ _
    exact ⟨_, rfl⟩

/-- An interval that is an integer from the bound on is not found to be invalid. -/
theorem huge_interval_breaks :
    let source : Source := .document (.mapping
      [("watch", .mapping [("poll_interval", .integer Number.overflowBound)])])
    ¬((∃ config, load .ok (Path.ofText "/w0/conf/globwatch.yaml") source = .ok config) ∨
      ∃ invalid, load .ok (Path.ofText "/w0/conf/globwatch.yaml") source =
        .error (.invalid invalid)) := by
  intro source
  have tooLarge : load .ok (Path.ofText "/w0/conf/globwatch.yaml") source =
      .error .intervalTooLarge := by
    rw [load_eq_tooLarge_iff]
    exact ⟨_, _, rfl, ⟨none, rfl⟩, ⟨defaultPattern, rfl⟩, rfl,
      (Int.natAbs_natCast _).ge⟩
  rw [tooLarge]
  rintro (⟨config, never⟩ | ⟨invalid, never⟩)
  · cases never
  · cases never

end TreeWatch.Config
