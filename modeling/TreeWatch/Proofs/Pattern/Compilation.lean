import TreeWatch.Proofs.Pattern.Reading

/-!
The scan against the grammar.

A text compiles to tokens exactly when the tokens are well formed and the text spells them. Both
directions go through one token at a time: `readAll_token` reads a written form, and
`exists_token_of_readAll` finds one at the front of any text on which the scan succeeds.
-/

namespace TreeWatch.Pattern.Scan

open PatternError (Fault)
open TreeWatch.Group (Item)

theorem endsBefore_of_spells {token : Token} {later : List Token} {text rest : List Char}
    (spelled : Spells later text) (adjoins : ∀ next ∈ later.head?, Adjoins token next)
    (ends : later = [] → EndsBefore token rest) : EndsBefore token (text ++ rest) := by
  cases spelled with
  | nil => exact ends rfl
  | @cons next later text more written _ =>
      have adjoin := adjoins next rfl
      constructor
      · intro isAny starts
        cases written with
        | any => exact (adjoin.behindAny isAny).2 rfl
        | directories => cases isAny.symm.trans (adjoin.beforeDirectories rfl)
        | @bare c plain =>
            cases starts
            simp at plain
        | _ => cases starts
      · intro isDirectories c starts
        cases adjoin.behindDirectories isDirectories
        cases written
        cases starts
        rfl

theorem fits_of_wellFormed {reversed later : List Token} {token : Token} {text rest : List Char}
    (wellFormed : WellFormed (reversed.reverse ++ token :: later)) (spelled : Spells later text)
    (ends : later = [] → EndsBefore token rest) : Fits reversed token (text ++ rest) := by
  obtain ⟨adjoin, groups⟩ := wellFormed
  obtain ⟨_, behind, across⟩ := List.isChain_append.mp adjoin
  constructor
  · intro previous member
    exact across previous (by rwa [List.getLast?_reverse]) token rfl
  · rintro choice rfl
    exact groups choice (by simp)
  · exact endsBefore_of_spells spelled (List.isChain_cons.mp behind).1 ends

/-- The scan reads whatever spells well-formed tokens, up to where the last of them is over. -/
theorem readAll_append {later : List Token} {text rest : List Char} (spelled : Spells later text)
    (ends : ∀ last ∈ later.getLast?, EndsBefore last rest) (position : Nat) (reversed : List Token)
    (wellFormed : WellFormed (reversed.reverse ++ later)) :
    readAll ⟨position, reversed, .outside⟩ (text ++ rest) =
      readAll ⟨position + text.length, later.reverse ++ reversed, .outside⟩ rest := by
  induction spelled generalizing position reversed with
  | nil => rfl
  | @cons token later text more written spelled inductionHypothesis =>
      have endsAlone : later = [] → EndsBefore token rest := by
        rintro rfl
        exact ends token rfl
      have endsLater : ∀ last ∈ later.getLast?, EndsBefore last rest := by
        intro last member
        apply ends
        rw [List.getLast?_cons, Option.mem_def.mp member]
        rfl
      have moved : WellFormed ((token :: reversed).reverse ++ later) := by simpa using wellFormed
      rw [List.append_assoc,
        readAll_token written (fits_of_wellFormed wellFormed spelled endsAlone),
        inductionHypothesis endsLater _ _ moved]
      simp [Nat.add_assoc]

theorem readAll_of_spells {later : List Token} {text : List Char} (spelled : Spells later text)
    (position : Nat) (reversed : List Token)
    (wellFormed : WellFormed (reversed.reverse ++ later)) :
    readAll ⟨position, reversed, .outside⟩ text = .ok (reversed.reverse ++ later) := by
  have ends : ∀ last ∈ later.getLast?, EndsBefore last [] :=
    fun _ _ => ⟨by simp, fun _ _ member => by cases member⟩
  have reads := readAll_append spelled ends position reversed wellFormed
  rw [List.append_nil] at reads
  rw [reads]
  simp [finish]

@[elab_as_elim]
theorem bodyInduction {motive : List Char → Prop} (nil : motive []) (dangling : motive ['\\'])
    (close : ∀ rest, motive (']' :: rest)) (dash : ∀ rest, motive rest → motive ('-' :: rest))
    (member : ∀ c text rest, MemberText c text → motive rest → motive (text ++ rest))
    (text : List Char) : motive text := by
  induction text using Mark.textInduction with
  | nil => exact nil
  | dangling => exact dangling
  | escaped c rest inductionHypothesis => exact member c _ rest (.escaped c) inductionHypothesis
  | bare c rest notEscape inductionHypothesis =>
      by_cases isClose : c = ']'
      · exact isClose ▸ close rest
      · by_cases isDash : c = '-'
        · exact isDash ▸ dash rest inductionHypothesis
        · exact member c [c] rest (.bare (by simp [isClose, isDash, notEscape])) inductionHypothesis

/-- What the scan of a group holds back, as it was written. -/
inductive HeldText : GroupPart → List Char → Prop where
  | nothing : HeldText (.items none) []
  | member {c text} : MemberText c text → HeldText (.items (some c)) text
  | range {low text} : MemberText low text → HeldText (.range low) (text ++ ['-'])

/-- A group on which the scan succeeds consists of items and a closing bracket. What is held back
begins the first item. -/
theorem exists_items_of_readAll {position start : Nat} {reversed tokens : List Token}
    {choice : Group} {part : GroupPart} {held text : List Char} (heldWritten : HeldText part held)
    (ordered : ∀ range ∈ choice.ranges, range.1 ≤ range.2)
    (succeeded : readAll ⟨position, reversed, .group start choice part⟩ text = .ok tokens) :
    ∃ items body rest next, held ++ text = body ++ ']' :: rest ∧ ItemsText items body ∧
      (items.foldl Group.add choice).WellFormed ∧
      readAll ⟨next, .group (items.foldl Group.add choice) :: reversed, .outside⟩ rest =
        .ok tokens := by
  induction text using bodyInduction generalizing position choice part held with
  | nil => cases succeeded
  | dangling => cases heldWritten <;> cases succeeded
  | close rest =>
      rw [readAll_bare _ (by decide)] at succeeded
      cases heldWritten with
      | nothing =>
          simp only [read, readInGroup, readItem, if_true] at succeeded
          split at succeeded
          · cases succeeded
          · rename_i inhabited
            exact ⟨[], [], rest, _, rfl, .nil,
              ⟨Group.inhabited_iff.mpr (Bool.eq_false_iff.mpr inhabited), ordered⟩, succeeded⟩
      | @member c _ written =>
          simp only [read, readInGroup, readItem, if_true] at succeeded
          split at succeeded
          · cases succeeded
          · rename_i inhabited
            refine ⟨[.member c], held, rest, _, rfl, ?_,
              ⟨Group.inhabited_iff.mpr (Bool.eq_false_iff.mpr inhabited), ordered⟩, succeeded⟩
            simpa using ItemsText.cons (.member written) .nil
      | range written => cases succeeded
  | dash rest inductionHypothesis =>
      rw [readAll_bare _ (by decide)] at succeeded
      cases heldWritten with
      | nothing => cases succeeded
      | member written =>
          obtain ⟨items, body, after, next, same, itemsWritten⟩ :=
            inductionHypothesis (.range written) ordered succeeded
          exact ⟨items, body, after, next, by simpa using same, itemsWritten⟩
      | range written => cases succeeded
  | member c text rest written inductionHypothesis =>
      cases heldWritten with
      | nothing =>
          rw [readAll_member _ _ _ _ _ written] at succeeded
          exact inductionHypothesis (.member written) ordered succeeded
      | @member d _ heldMember =>
          rw [readAll_member _ _ _ _ _ written, settle_some] at succeeded
          have stillOrdered : ∀ range ∈ (choice.add (.member d)).ranges, range.1 ≤ range.2 :=
            ordered
          obtain ⟨items, body, after, next, same, itemsWritten, wellFormed, finished⟩ :=
            inductionHypothesis (.member written) stillOrdered succeeded
          exact ⟨.member d :: items, held ++ body, after, next,
            by rw [same, List.append_assoc], .cons (.member heldMember) itemsWritten,
            wellFormed, finished⟩
      | @range low lowText lowWritten =>
          rw [readAll_rangeEnd _ _ _ _ _ written] at succeeded
          split at succeeded
          · cases succeeded
          · rename_i notEmpty
            have rangesOrdered : ∀ range ∈ (choice.add (.range low c)).ranges,
                range.1 ≤ range.2 := by
              intro range member
              rcases List.mem_append.mp member with before | last
              · exact ordered range before
              · cases List.mem_singleton.mp last
                exact Char.not_lt.mp notEmpty
            obtain ⟨items, body, after, next, same, itemsWritten, wellFormed, finished⟩ :=
              inductionHypothesis .nothing rangesOrdered succeeded
            refine ⟨.range low c :: items, lowText ++ '-' :: text ++ body, after, next, ?_,
              .cons (.range lowWritten written) itemsWritten, wellFormed, finished⟩
            simpa using same

theorem EndsBefore.ne_directories {token : Token} {c : Char} {rest : List Char}
    (ends : EndsBefore token (c :: rest)) (other : c ≠ '/') : token ≠ .directories :=
  fun same => other (ends.directories same c rfl)

theorem adjoins_of_plain {previous token : Token} (notDirectories : previous ≠ .directories)
    (notSeparator : token ≠ .separator) (notSingle : token ≠ .single) (notAny : token ≠ .any)
    (notDirectoriesEither : token ≠ .directories) : Adjoins previous token where
  separators _ := notSeparator
  behindAny _ := ⟨notSingle, notAny⟩
  beforeAny same := absurd same notAny
  behindDirectories same := absurd same notDirectories
  beforeDirectories same := absurd same notDirectoriesEither

theorem separators_of_closeStars {position start : Nat} {reversed : List Token} {phase : Phase}
    {closed : Scan} (succeeded : closeStars ⟨position, reversed, phase⟩ start = .ok closed) :
    ∀ previous ∈ reversed.head?, previous = .separator := by
  intro previous member
  cases reversed with
  | nil => cases member
  | cons head earlier =>
      cases member
      cases previous with
      | separator => rfl
      | _ => cases succeeded

theorem whole_of_readAll_stars {position start : Nat} {reversed tokens : List Token}
    {rest : List Char}
    (succeeded : readAll ⟨position, reversed, .stars start⟩ rest = .ok tokens) :
    (∀ previous ∈ reversed.head?, previous = .separator) ∧ ∀ c ∈ rest.head?, c = '/' := by
  induction rest using Mark.textInduction with
  | nil =>
      simp only [readAll_nil, finish] at succeeded
      cases closed : closeStars ⟨position, reversed, .stars start⟩ start with
      | error fault =>
          rw [closed] at succeeded
          cases succeeded
      | ok scan => exact ⟨separators_of_closeStars closed, fun c member => by cases member⟩
  | dangling => cases succeeded
  | escaped c rest _ => cases succeeded
  | bare c rest plain _ =>
      rw [readAll_bare _ plain] at succeeded
      simp only [read] at succeeded
      split at succeeded
      · rename_i isSeparator
        cases isSeparator
        cases closed : closeStars ⟨position, reversed, .stars start⟩ start with
        | error fault =>
            rw [closed] at succeeded
            cases succeeded
        | ok scan =>
            exact ⟨separators_of_closeStars closed, fun c member => by cases member; rfl⟩
      · cases succeeded

theorem fits_literal {reversed : List Token} {rest : List Char} (c : Char)
    (notDirectories : ∀ previous ∈ reversed.head?, previous ≠ .directories) :
    Fits reversed (.literal c) rest where
  adjoins previous member :=
    adjoins_of_plain (notDirectories previous member) (by simp) (by simp) (by simp) (by simp)
  wellFormed := by simp
  ends := ⟨by simp, by simp⟩

theorem fits_group {reversed : List Token} {choice : Group} {rest : List Char}
    (notDirectories : ∀ previous ∈ reversed.head?, previous ≠ .directories)
    (wellFormed : choice.WellFormed) : Fits reversed (.group choice) rest where
  adjoins previous member :=
    adjoins_of_plain (notDirectories previous member) (by simp) (by simp) (by simp) (by simp)
  wellFormed other same := by
    cases same
    exact wellFormed
  ends := ⟨by simp, by simp⟩

theorem fits_separator {reversed : List Token} {rest : List Char}
    (notDoubled : reversed.head? ≠ some .separator) : Fits reversed .separator rest where
  adjoins previous member := by
    have notSeparator : previous ≠ .separator := fun same => notDoubled (same ▸ member)
    constructor <;> simp [notSeparator]
  wellFormed := by simp
  ends := ⟨by simp, by simp⟩

theorem fits_single {reversed : List Token} {rest : List Char}
    (notBehindAny : reversed.head? ≠ some .any)
    (notDirectories : ∀ previous ∈ reversed.head?, previous ≠ .directories) :
    Fits reversed .single rest where
  adjoins previous member := by
    have notAny : previous ≠ .any := fun same => notBehindAny (same ▸ member)
    constructor <;> simp [notAny, notDirectories previous member]
  wellFormed := by simp
  ends := ⟨by simp, by simp⟩

theorem bodyText_of_items {negated : Bool} {items : List Item} {body : List Char}
    (written : ItemsText items body)
    (wellFormed : (items.foldl Group.add (.bare negated)).WellFormed) :
    BodyText (items.foldl Group.add (.bare negated)) body := by
  refine ⟨items, ?_, Group.lists_iff.mpr (by simp [Group.bare]), written⟩
  rintro rfl
  rcases wellFormed.inhabited with ⟨c, member⟩ | ranges
  · exact CharSet.not_mem_empty c member
  · exact ranges rfl

theorem exists_group_of_readAll {position start : Nat} {reversed tokens : List Token}
    {rest : List Char} (notDirectories : ∀ previous ∈ reversed.head?, previous ≠ .directories)
    (succeeded :
      readAll ⟨position, reversed, .group start (.bare false) .opened⟩ rest = .ok tokens) :
    ∃ token written later next, '[' :: rest = written ++ later ∧ TokenText token written ∧
      Fits reversed token later ∧
      readAll ⟨next, token :: reversed, .outside⟩ later = .ok tokens := by
  by_cases caret : rest.head? = some '^'
  · obtain ⟨body, rfl⟩ : ∃ body, rest = '^' :: body := by
      cases rest with
      | nil => cases caret
      | cons c body =>
          cases caret
          exact ⟨body, rfl⟩
    rw [readAll_caret] at succeeded
    obtain ⟨items, body, later, next, same, written, wellFormed, finished⟩ :=
      exists_items_of_readAll .nothing (by simp [Group.bare]) succeeded
    refine ⟨_, '[' :: '^' :: body ++ [']'], later, next, ?_, .negatedGroup ?_ ?_,
      fits_group notDirectories wellFormed, finished⟩
    · simpa using same
    · simp
    · exact bodyText_of_items written wellFormed
  · rw [readAll_opened _ _ _ _ caret] at succeeded
    obtain ⟨items, body, later, next, same, written, wellFormed, finished⟩ :=
      exists_items_of_readAll .nothing (by simp [Group.bare]) succeeded
    refine ⟨_, '[' :: body ++ [']'], later, next, ?_, .group ?_ ?_ ?_,
      fits_group notDirectories wellFormed, finished⟩
    · simpa using same
    · simp [Group.bare]
    · exact bodyText_of_items written wellFormed
    · intro starts
      cases body with
      | nil => cases starts
      | cons c body =>
          rw [List.nil_append] at same
          exact caret (by rw [same]; exact starts)

theorem exists_wildcard_of_readAll {position start : Nat} {reversed tokens : List Token}
    {rest : List Char} (notBehindSingle : reversed.head? ≠ some .single)
    (ends : ∀ previous ∈ reversed.head?, EndsBefore previous ('*' :: rest))
    (succeeded : readAll ⟨position, reversed, .star start⟩ rest = .ok tokens) :
    ∃ token written later next, '*' :: rest = written ++ later ∧ TokenText token written ∧
      Fits reversed token later ∧
      readAll ⟨next, token :: reversed, .outside⟩ later = .ok tokens := by
  by_cases second : rest.head? = some '*'
  · obtain ⟨later, rfl⟩ : ∃ later, rest = '*' :: later := by
      cases rest with
      | nil => cases second
      | cons c later =>
          cases second
          exact ⟨later, rfl⟩
    rw [readAll_bare _ (by decide)] at succeeded
    obtain ⟨whole, separated⟩ := whole_of_readAll_stars succeeded
    have adjoins : ∀ previous ∈ reversed.head?, Adjoins previous .directories := by
      intro previous member
      cases whole previous member
      constructor <;> simp
    exact ⟨.directories, ['*', '*'], later, _, rfl, .directories,
      ⟨adjoins, fun _ same => (by cases same), ⟨fun same => (by cases same), fun _ => separated⟩⟩,
      (readAll_stars whole separated _ _).symm.trans succeeded⟩
  · have adjoins : ∀ previous ∈ reversed.head?, Adjoins previous .any := by
      intro previous member
      have notAny : previous ≠ .any := fun same => (ends previous member).any same rfl
      have notDirectories := (ends previous member).ne_directories (by decide)
      have notSingle : previous ≠ .single := fun same => notBehindSingle (same ▸ member)
      constructor <;> simp [notAny, notDirectories, notSingle]
    exact ⟨.any, ['*'], rest, _, rfl, .any,
      ⟨adjoins, fun _ same => (by cases same), ⟨fun _ => second, fun same => (by cases same)⟩⟩,
      (readAll_star second _ _ _).symm.trans succeeded⟩

theorem exists_token_of_readAll {position : Nat} {reversed tokens : List Token} {text : List Char}
    (nonempty : text ≠ []) (ends : ∀ previous ∈ reversed.head?, EndsBefore previous text)
    (succeeded : readAll ⟨position, reversed, .outside⟩ text = .ok tokens) :
    ∃ token written rest next, text = written ++ rest ∧ TokenText token written ∧
      Fits reversed token rest ∧
      readAll ⟨next, token :: reversed, .outside⟩ rest = .ok tokens := by
  induction text using Mark.textInduction with
  | nil => exact absurd rfl nonempty
  | dangling => cases succeeded
  | escaped c rest _ =>
      exact ⟨.literal c, ['\\', c], rest, _, rfl, .escaped c,
        fits_literal c fun previous member => (ends previous member).ne_directories (by decide),
        succeeded⟩
  | bare c rest notEscape _ =>
      rw [readAll_bare _ notEscape] at succeeded
      simp only [read, readOutside] at succeeded
      by_cases isSeparator : c = '/'
      · subst isSeparator
        simp only [if_true] at succeeded
        split at succeeded
        · cases succeeded
        · rename_i notDoubled
          exact ⟨.separator, ['/'], rest, _, rfl, .separator, fits_separator notDoubled, succeeded⟩
      have notDirectories : ∀ previous ∈ reversed.head?, previous ≠ .directories :=
        fun previous member => (ends previous member).ne_directories isSeparator
      rw [if_neg isSeparator] at succeeded
      by_cases isSingle : c = '?'
      · subst isSingle
        simp only [if_true] at succeeded
        split at succeeded
        · cases succeeded
        · rename_i notBehindAny
          exact ⟨.single, ['?'], rest, _, rfl, .single, fits_single notBehindAny notDirectories,
            succeeded⟩
      rw [if_neg isSingle] at succeeded
      by_cases isStar : c = '*'
      · subst isStar
        simp only [if_true] at succeeded
        split at succeeded
        · cases succeeded
        · rename_i notBehindSingle
          exact exists_wildcard_of_readAll notBehindSingle ends succeeded
      rw [if_neg isStar] at succeeded
      by_cases isOpen : c = '['
      · subst isOpen
        exact exists_group_of_readAll notDirectories succeeded
      rw [if_neg isOpen] at succeeded
      by_cases isClose : c = ']'
      · subst isClose
        cases succeeded
      · rw [if_neg isClose] at succeeded
        have plain : c ∉ ['/', '?', '*', '\\', '[', ']'] := by
          simp [isSeparator, isSingle, isStar, notEscape, isOpen, isClose]
        exact ⟨.literal c, [c], rest, _, rfl, .bare plain, fits_literal c notDirectories,
          succeeded⟩

theorem wellFormed_of_fits {reversed : List Token} {token : Token} {rest : List Char}
    (wellFormed : WellFormed reversed.reverse) (fits : Fits reversed token rest) :
    WellFormed (token :: reversed).reverse := by
  rw [List.reverse_cons]
  constructor
  · refine List.isChain_append.mpr ⟨wellFormed.adjoin, .singleton _, ?_⟩
    intro previous member next same
    cases same
    exact fits.adjoins previous (by rwa [List.getLast?_reverse] at member)
  · intro choice member
    rcases List.mem_append.mp member with before | last
    · exact wellFormed.groups choice before
    · exact fits.wellFormed choice (List.mem_singleton.mp last).symm

/-- The scan succeeds on texts only that spell well-formed tokens, which it then yields. -/
theorem spells_of_readAll {position : Nat} {reversed tokens : List Token} {text : List Char}
    (wellFormed : WellFormed reversed.reverse)
    (ends : ∀ previous ∈ reversed.head?, EndsBefore previous text)
    (succeeded : readAll ⟨position, reversed, .outside⟩ text = .ok tokens) :
    WellFormed tokens ∧ ∃ later, tokens = reversed.reverse ++ later ∧ Spells later text := by
  by_cases empty : text = []
  · subst empty
    cases succeeded
    exact ⟨wellFormed, [], by simp, .nil⟩
  · obtain ⟨token, written, rest, next, rfl, tokenWritten, fits, finished⟩ :=
      exists_token_of_readAll empty ends succeeded
    -- Every token takes a character at least, so the text that is left gets shorter.
    have shorter : 0 < written.length := List.length_pos_of_ne_nil tokenWritten.ne_nil
    obtain ⟨whole, later, same, spelled⟩ := spells_of_readAll
      (wellFormed_of_fits wellFormed fits)
      (fun previous member => by cases member; exact fits.ends) finished
    exact ⟨whole, token :: later, by simpa using same, .cons tokenWritten spelled⟩
termination_by text.length
decreasing_by
  subst_vars
  rw [List.length_append]
  omega

theorem tokensOf_eq_ok_iff {text : List Char} {tokens : List Token} :
    tokensOf text = .ok tokens ↔ WellFormed tokens ∧ Spells tokens text := by
  rw [tokensOf_eq_readAll]
  constructor
  · intro succeeded
    have nothingRead : WellFormed ([] : List Token).reverse := ⟨.nil, by simp⟩
    obtain ⟨wellFormed, later, rfl, spelled⟩ :=
      spells_of_readAll nothingRead (fun previous member => by cases member) succeeded
    exact ⟨wellFormed, spelled⟩
  · rintro ⟨wellFormed, spelled⟩
    exact readAll_of_spells spelled 0 [] wellFormed

end TreeWatch.Pattern.Scan

namespace TreeWatch.Pattern

theorem wellFormed_tokens (pattern : Pattern) : WellFormed pattern.tokens :=
  (Scan.tokensOf_eq_ok_iff.mp pattern.compiled).1

theorem exists_compile_iff {text : String} {tokens : List Token} :
    (∃ pattern, compile text = .ok pattern ∧ pattern.tokens = tokens) ↔
      tokensOf text.toList = .ok tokens := by
  constructor
  · rintro ⟨pattern, compiled, rfl⟩
    rw [← compile_eq_ok_iff.mp compiled]
    exact pattern.compiled
  · intro succeeded
    exact ⟨⟨text, tokens, succeeded⟩, compile_eq_ok_iff.mpr rfl, rfl⟩

/-- A text compiles to tokens if and only if they are well formed and it spells them. A text that
compiles has one reading only. -/
theorem compiles_iff_spells (text : String) :
    (∀ tokens, (∃ pattern, compile text = .ok pattern ∧ pattern.tokens = tokens) ↔
      WellFormed tokens ∧ Spells tokens text.toList) ∧
    ((∃ pattern, compile text = .ok pattern) ↔
      ∃! tokens, WellFormed tokens ∧ Spells tokens text.toList) := by
  have each : ∀ tokens, (∃ pattern, compile text = .ok pattern ∧ pattern.tokens = tokens) ↔
      WellFormed tokens ∧ Spells tokens text.toList :=
    fun tokens => exists_compile_iff.trans Scan.tokensOf_eq_ok_iff
  refine ⟨each, ?_, ?_⟩
  · rintro ⟨pattern, compiled⟩
    refine ⟨pattern.tokens, (each _).mp ⟨pattern, compiled, rfl⟩, ?_⟩
    intro others reading
    obtain ⟨other, otherCompiled, rfl⟩ := (each others).mpr reading
    cases compiled.symm.trans otherCompiled
    rfl
  · rintro ⟨tokens, reading, _⟩
    obtain ⟨pattern, compiled, _⟩ := (each tokens).mpr reading
    exact ⟨pattern, compiled⟩

end TreeWatch.Pattern
