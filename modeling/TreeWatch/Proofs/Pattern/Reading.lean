import TreeWatch.Proofs.Pattern.Grammar

/-!
Reading a text from any point of a scan.

`readAll` is what the scan makes of the text that is left. Its equations follow the marks of the
text; from them come equations for whole items, groups and tokens, which say that the scan reads
every written form, and their converses, which say that it reads nothing else. Positions matter
to faults only.
-/

namespace TreeWatch

@[elab_as_elim]
theorem Mark.textInduction {motive : List Char → Prop} (nil : motive [])
    (dangling : motive ['\\'])
    (escaped : ∀ c rest, motive rest → motive ('\\' :: c :: rest))
    (bare : ∀ c rest, c ≠ '\\' → motive rest → motive (c :: rest)) (text : List Char) :
    motive text := by
  fun_induction Mark.ofText text with
  | case1 => exact nil
  | case2 c rest inductionHypothesis => exact escaped c rest inductionHypothesis
  | case3 c rest other inductionHypothesis =>
      by_cases same : c = '\\'
      · cases rest with
        | nil => exact same ▸ dangling
        | cons d rest => exact absurd rfl (other d rest same)
      · exact bare c rest same inductionHypothesis

namespace Pattern.Scan

open PatternError (Fault)
open TreeWatch.Group (Item)

/-- The tokens of a text when the scan has already come to some point. -/
def readAll (scan : Scan) (text : List Char) : Except Fault (List Token) :=
  ((Mark.ofText text).foldlM read scan).bind finish

theorem tokensOf_eq_readAll (text : List Char) : tokensOf text = initial.readAll text := rfl

theorem foldlM_read_cons (scan : Scan) (mark : Mark) (marks : List Mark) :
    ((mark :: marks).foldlM read scan).bind finish =
      (scan.read mark).bind fun next => (marks.foldlM read next).bind finish := by
  rw [List.foldlM_cons]
  cases scan.read mark <;> rfl

@[simp]
theorem readAll_nil (scan : Scan) : scan.readAll [] = scan.finish := rfl

theorem readAll_dangling (scan : Scan) :
    scan.readAll ['\\'] = (scan.read .dangling).bind fun next => next.readAll [] :=
  foldlM_read_cons scan _ _

theorem readAll_escaped (scan : Scan) (c : Char) (rest : List Char) :
    scan.readAll ('\\' :: c :: rest) =
      (scan.read (.escaped c)).bind fun next => next.readAll rest :=
  foldlM_read_cons scan _ _

theorem readAll_bare (scan : Scan) {c : Char} (plain : c ≠ '\\') (rest : List Char) :
    scan.readAll (c :: rest) = (scan.read (.bare c)).bind fun next => next.readAll rest := by
  have marks : Mark.ofText (c :: rest) = .bare c :: Mark.ofText rest := by
    rw [Mark.ofText]
    · rw [if_neg plain]
    · intro d others same
      exact absurd same plain
  rw [readAll, marks, foldlM_read_cons]
  rfl

theorem settle_some (choice : Group) (c : Char) : settle choice (some c) = choice.add (.member c) :=
  rfl

section Group

variable (position start : Nat) (reversed : List Token) (choice : Group)

theorem readAll_member (pending : Option Char) {c : Char} {text : List Char}
    (written : MemberText c text) (rest : List Char) :
    readAll ⟨position, reversed, .group start choice (.items pending)⟩ (text ++ rest) =
      readAll ⟨position + text.length, reversed,
        .group start (settle choice pending) (.items c)⟩ rest := by
  cases written with
  | bare plain =>
      simp only [List.mem_cons, List.not_mem_nil, or_false, not_or] at plain
      obtain ⟨notClose, notRange, notEscape⟩ := plain
      rw [List.singleton_append, readAll_bare _ notEscape]
      simp only [read, readInGroup, readItem, if_neg notClose, if_neg notRange]
      rfl
  | escaped => exact readAll_escaped _ _ _

theorem readAll_rangeEnd (low : Char) {high : Char} {text : List Char}
    (written : MemberText high text) (rest : List Char) :
    readAll ⟨position, reversed, .group start choice (.range low)⟩ (text ++ rest) =
      if high < low then fail (position + text.length) (.emptyRange low high)
      else
        readAll ⟨position + text.length, reversed,
          .group start (choice.add (.range low high)) (.items none)⟩ rest := by
  cases written with
  | bare plain =>
      simp only [List.mem_cons, List.not_mem_nil, or_false, not_or] at plain
      obtain ⟨notClose, notRange, notEscape⟩ := plain
      rw [List.singleton_append, readAll_bare _ notEscape]
      simp only [read, readInGroup, readRangeEnd, notClose, notRange, or_self, if_false, closeRange]
      split <;> rfl
  | escaped =>
      change readAll _ ('\\' :: high :: rest) = _
      rw [readAll_escaped]
      simp only [read, readInGroup, readRangeEnd, closeRange]
      split <;> rfl

theorem readAll_range (pending : Option Char) {low high : Char} {text more : List Char}
    (lowWritten : MemberText low text) (highWritten : MemberText high more)
    (ordered : low ≤ high) (rest : List Char) :
    readAll ⟨position, reversed, .group start choice (.items pending)⟩
        (text ++ '-' :: more ++ rest) =
      readAll ⟨position + (text ++ '-' :: more).length, reversed,
        .group start ((settle choice pending).add (.range low high)) (.items none)⟩ rest := by
  have dash : readAll ⟨position + text.length, reversed,
        .group start (settle choice pending) (.items low)⟩ ('-' :: (more ++ rest)) =
      readAll ⟨position + text.length + 1, reversed,
        .group start (settle choice pending) (.range low)⟩ (more ++ rest) :=
    readAll_bare _ (by decide) _
  rw [List.append_assoc, readAll_member position start reversed choice pending lowWritten,
    List.cons_append, dash, readAll_rangeEnd _ start reversed _ low highWritten,
    if_neg (Char.not_lt.mpr ordered), List.length_append, List.length_cons, Nat.add_assoc,
    Nat.add_assoc, Nat.add_comm 1]

theorem readAll_items {items : List Item} {text : List Char} (written : ItemsText items text)
    (ordered : ∀ low high, .range low high ∈ items → low ≤ high) (pending : Option Char) :
    ∃ read last, settle read last = items.foldl Group.add (settle choice pending) ∧
      ∀ rest, readAll ⟨position, reversed, .group start choice (.items pending)⟩ (text ++ rest) =
        readAll ⟨position + text.length, reversed, .group start read (.items last)⟩ rest := by
  induction written generalizing position choice pending with
  | nil => exact ⟨choice, pending, rfl, fun rest => rfl⟩
  | @cons item items text later itemWritten _ inductionHypothesis =>
      have laterOrdered : ∀ low high, .range low high ∈ items → low ≤ high :=
        fun low high member => ordered low high (List.mem_cons_of_mem _ member)
      cases itemWritten with
      | @member c _ memberWritten =>
          obtain ⟨read, last, settled, readsLater⟩ := inductionHypothesis
            (position + text.length) (settle choice pending) laterOrdered (some c)
          refine ⟨read, last, settled, fun rest => ?_⟩
          rw [List.append_assoc, readAll_member position start reversed choice pending
            memberWritten, readsLater, List.length_append, Nat.add_assoc]
      | @range low high lowText highText lowWritten highWritten =>
          obtain ⟨read, last, settled, readsLater⟩ := inductionHypothesis
            (position + (lowText ++ '-' :: highText).length)
            ((settle choice pending).add (.range low high)) laterOrdered none
          refine ⟨read, last, settled, fun rest => ?_⟩
          rw [List.append_assoc, readAll_range position start reversed choice pending lowWritten
            highWritten (ordered low high List.mem_cons_self), readsLater]
          simp only [List.length_append, Nat.add_assoc]

theorem readAll_close (pending : Option Char)
    (inhabited : (∃ c, c ∈ (settle choice pending).members) ∨ (settle choice pending).ranges ≠ [])
    (rest : List Char) :
    readAll ⟨position, reversed, .group start choice (.items pending)⟩ (']' :: rest) =
      readAll ⟨position + 1, .group (settle choice pending) :: reversed, .outside⟩ rest := by
  have notEmpty := Group.inhabited_iff.mp inhabited
  rw [readAll_bare _ (by decide)]
  simp only [read, readInGroup, readItem, if_true, notEmpty, Bool.false_eq_true, if_false]
  rfl

theorem readAll_opened {text : List Char} (noCaret : text.head? ≠ some '^') :
    readAll ⟨position, reversed, .group start choice .opened⟩ text =
      readAll ⟨position, reversed, .group start choice (.items none)⟩ text := by
  induction text using Mark.textInduction with
  | nil => rfl
  | dangling => rfl
  | escaped c rest _ => rfl
  | bare c rest plain _ =>
      have different : Mark.bare c ≠ .bare '^' := fun same => noCaret (by cases same; rfl)
      rw [readAll_bare _ plain, readAll_bare _ plain]
      simp only [read, readInGroup, if_neg different]
      rfl

theorem readAll_caret (text : List Char) :
    readAll ⟨position, reversed, .group start choice .opened⟩ ('^' :: text) =
      readAll ⟨position + 1, reversed,
        .group start { choice with negated := true } (.items none)⟩ text :=
  readAll_bare _ (by decide) text

theorem readAll_body {text : List Char} (written : BodyText choice text)
    (wellFormed : choice.WellFormed) (rest : List Char) :
    readAll ⟨position, reversed, .group start (.bare choice.negated) (.items none)⟩
        (text ++ ']' :: rest) =
      readAll ⟨position + text.length + 1, .group choice :: reversed, .outside⟩ rest := by
  obtain ⟨items, _, lists, itemsWritten⟩ := written
  have ordered : ∀ low high, Item.range low high ∈ items → low ≤ high := by
    intro low high member
    apply wellFormed.ordered (low, high)
    rw [lists.ranges]
    apply List.mem_filterMap.mpr
    exact ⟨_, member, rfl⟩
  obtain ⟨read, last, settled, readsItems⟩ :=
    readAll_items position start reversed (.bare choice.negated) itemsWritten ordered none
  have same : settle read last = choice := settled.trans (Group.lists_iff.mp lists).symm
  rw [readsItems, readAll_close _ start reversed read last (same.symm ▸ wellFormed.inhabited), same]

end Group

/-- Whether a token is over before a text, which must not add to it. -/
structure EndsBefore (token : Token) (rest : List Char) : Prop where
  any : token = .any → rest.head? ≠ some '*'
  directories : token = .directories → ∀ c ∈ rest.head?, c = '/'

/-- Whether a token may stand between the tokens before it and a text. -/
structure Fits (reversed : List Token) (token : Token) (rest : List Char) : Prop where
  adjoins : ∀ previous ∈ reversed.head?, Adjoins previous token
  wellFormed : ∀ choice, token = .group choice → choice.WellFormed
  ends : EndsBefore token rest

theorem readAll_star {rest : List Char} (ends : rest.head? ≠ some '*') (position start : Nat)
    (reversed : List Token) :
    readAll ⟨position, reversed, .star start⟩ rest =
      readAll ⟨position, .any :: reversed, .outside⟩ rest := by
  induction rest using Mark.textInduction with
  | nil => rfl
  | dangling => rfl
  | escaped c rest _ => rfl
  | bare c rest plain _ =>
      have different : Mark.bare c ≠ .bare '*' := fun same => ends (by cases same; rfl)
      rw [readAll_bare _ plain, readAll_bare _ plain]
      simp only [read, if_neg different]

theorem closeStars_eq_ok {reversed : List Token}
    (whole : ∀ previous ∈ reversed.head?, previous = .separator) (position start : Nat)
    (phase : Phase) :
    closeStars ⟨position, reversed, phase⟩ start =
      .ok ⟨position, .directories :: reversed, .outside⟩ := by
  cases reversed with
  | nil => rfl
  | cons previous earlier =>
      cases whole previous rfl
      rfl

theorem readAll_stars {reversed : List Token} {rest : List Char}
    (whole : ∀ previous ∈ reversed.head?, previous = .separator)
    (ends : ∀ c ∈ rest.head?, c = '/') (position start : Nat) :
    readAll ⟨position, reversed, .stars start⟩ rest =
      readAll ⟨position, .directories :: reversed, .outside⟩ rest := by
  cases rest with
  | nil =>
      simp only [readAll_nil, finish, closeStars_eq_ok whole]
      rfl
  | cons c rest =>
      cases ends c rfl
      rw [readAll_bare _ (by decide), readAll_bare _ (by decide)]
      simp only [read, if_true, closeStars_eq_ok whole]
      rfl

theorem readAll_token {token : Token} {text : List Char} (written : TokenText token text)
    {reversed : List Token} {rest : List Char} (fits : Fits reversed token rest) (position : Nat) :
    readAll ⟨position, reversed, .outside⟩ (text ++ rest) =
      readAll ⟨position + text.length, token :: reversed, .outside⟩ rest := by
  cases written with
  | separator =>
      have notDoubled : reversed.head? ≠ some .separator := by
        intro same
        exact (fits.adjoins _ same).separators rfl rfl
      rw [List.singleton_append, readAll_bare _ (by decide)]
      simp only [read, readOutside, if_true, if_neg notDoubled]
      rfl
  | single =>
      have notBehindAny : reversed.head? ≠ some .any := by
        intro same
        exact ((fits.adjoins _ same).behindAny rfl).1 rfl
      rw [List.singleton_append, readAll_bare _ (by decide)]
      simp only [read, readOutside, if_true, if_neg notBehindAny, Char.reduceEq, if_false]
      rfl
  | any =>
      have notBehindSingle : reversed.head? ≠ some .single := by
        intro same
        exact ((fits.adjoins _ same).beforeAny rfl).1 rfl
      rw [List.singleton_append, readAll_bare _ (by decide)]
      simp only [read, readOutside, if_true, if_neg notBehindSingle, Char.reduceEq, if_false]
      exact readAll_star (fits.ends.any rfl) _ _ _
  | directories =>
      have whole : ∀ previous ∈ reversed.head?, previous = .separator := by
        intro previous same
        exact (fits.adjoins _ same).beforeDirectories rfl
      have notBehindSingle : reversed.head? ≠ some .single := fun same => by
        cases whole _ same
      have first : readAll ⟨position, reversed, .outside⟩ (['*', '*'] ++ rest) =
          readAll ⟨position + 1, reversed, .star position⟩ ('*' :: rest) := by
        rw [List.cons_append, readAll_bare _ (by decide)]
        simp only [read, readOutside, if_true, if_neg notBehindSingle, Char.reduceEq, if_false]
        rfl
      rw [first, readAll_bare _ (by decide)]
      exact readAll_stars whole (fits.ends.directories rfl) _ _
  | @bare c plain =>
      simp only [List.mem_cons, List.not_mem_nil, or_false, not_or] at plain
      obtain ⟨notSeparator, notSingle, notStar, notEscape, notOpen, notClose⟩ := plain
      rw [List.singleton_append, readAll_bare _ notEscape]
      simp only [read, readOutside, if_neg notSeparator, if_neg notSingle, if_neg notStar,
        if_neg notOpen, if_neg notClose]
      rfl
  | escaped c => exact readAll_escaped _ _ _
  | @group choice text plain body noCaret =>
      have opened : readAll ⟨position, reversed, .outside⟩ ('[' :: text ++ [']'] ++ rest) =
          readAll ⟨position + 1, reversed, .group position (.bare false) .opened⟩
            (text ++ ']' :: rest) := by
        rw [List.append_assoc]
        exact readAll_bare _ (by decide) _
      have noCaretFollows : (text ++ ']' :: rest).head? ≠ some '^' := by
        cases text with
        | nil => simp
        | cons c text => exact noCaret
      rw [opened, readAll_opened _ position reversed _ noCaretFollows, ← plain,
        readAll_body _ position reversed choice body (fits.wellFormed choice rfl)]
      simp only [List.length_append, List.length_cons, List.length_nil]
      congr 2
      omega
  | @negatedGroup choice text negated body =>
      have opened : readAll ⟨position, reversed, .outside⟩ ('[' :: '^' :: text ++ [']'] ++ rest) =
          readAll ⟨position + 1, reversed, .group position (.bare false) .opened⟩
            ('^' :: (text ++ ']' :: rest)) := by
        rw [List.append_assoc]
        exact readAll_bare _ (by decide) _
      rw [opened, readAll_caret]
      change readAll ⟨_, _, .group _ (.bare true) _⟩ _ = _
      rw [← negated, readAll_body _ position reversed choice body (fits.wellFormed choice rfl)]
      simp only [List.length_append, List.length_cons, List.length_nil]
      congr 2
      omega

end Pattern.Scan

end TreeWatch
