import Mathlib.Data.List.Chain
import TreeWatch.Pattern.Basic

/-!
The grammar of pattern texts, apart from how they are read.

Every token has one or more written forms, and a text spells tokens when it consists of a written
form of each of them in turn. The grammar alone would let one text spell several things, two stars
for instance; tokens are well formed when no neighbours run together and every group holds
something.
-/

namespace TreeWatch

/-- What stands between the brackets of a group. -/
inductive Group.Item
  | member (c : Char)
  | range (low high : Char)
  deriving DecidableEq

namespace Group

open TreeWatch.Group (Item)

def Item.range? : Item → Option (Char × Char)
  | member _ => none
  | range low high => some (low, high)

def add (choice : Group) : Item → Group
  | .member c => { choice with members := choice.members.insert c }
  | .range low high => { choice with ranges := choice.ranges ++ [(low, high)] }

/-- Whether the items are those of the group: the members as a set, the ranges in order. -/
structure Lists (choice : Group) (items : List Item) : Prop where
  members : ∀ c, c ∈ choice.members ↔ .member c ∈ items
  ranges : choice.ranges = items.filterMap Item.range?

structure WellFormed (choice : Group) : Prop where
  inhabited : (∃ c, c ∈ choice.members) ∨ choice.ranges ≠ []
  ordered : ∀ range ∈ choice.ranges, range.1 ≤ range.2

def bare (negated : Bool) : Group := ⟨negated, .empty, []⟩

@[simp]
theorem negated_foldl_add (choice : Group) (items : List Item) :
    (items.foldl add choice).negated = choice.negated := by
  induction items generalizing choice with
  | nil => rfl
  | cons item items inductionHypothesis =>
      rw [List.foldl_cons, inductionHypothesis]
      cases item <;> rfl

theorem mem_members_foldl_add {choice : Group} {items : List Item} {c : Char} :
    c ∈ (items.foldl add choice).members ↔ c ∈ choice.members ∨ .member c ∈ items := by
  induction items generalizing choice with
  | nil => simp
  | cons item items inductionHypothesis =>
      rw [List.foldl_cons, inductionHypothesis]
      cases item with
      | member d =>
          simp only [add, CharSet.mem_insert, List.mem_cons, Item.member.injEq, or_assoc]
          exact or_left_comm
      | range low high => simp [add]

theorem ranges_foldl_add (choice : Group) (items : List Item) :
    (items.foldl add choice).ranges = choice.ranges ++ items.filterMap Item.range? := by
  induction items generalizing choice with
  | nil => simp
  | cons item items inductionHypothesis =>
      rw [List.foldl_cons, inductionHypothesis]
      cases item <;> simp [add, Item.range?, List.filterMap_cons]

theorem lists_iff {choice : Group} {items : List Item} :
    choice.Lists items ↔ choice = items.foldl add (bare choice.negated) := by
  constructor
  · intro lists
    have members : choice.members = (items.foldl add (bare choice.negated)).members := by
      ext c
      rw [lists.members, mem_members_foldl_add]
      simp [bare]
    have ranges : choice.ranges = (items.foldl add (bare choice.negated)).ranges := by
      rw [lists.ranges, ranges_foldl_add]
      rfl
    have negated := negated_foldl_add (bare choice.negated) items
    cases added : items.foldl add (bare choice.negated)
    rw [added] at members ranges negated
    cases choice
    congr
    exact negated.symm
  · intro same
    constructor
    · intro c
      rw [same, mem_members_foldl_add]
      simp [bare]
    · rw [same, ranges_foldl_add]
      rfl

theorem inhabited_iff {choice : Group} :
    ((∃ c, c ∈ choice.members) ∨ choice.ranges ≠ []) ↔
      (choice.members.isEmpty && choice.ranges.isEmpty) = false := by
  have members : (∃ c, c ∈ choice.members) ↔ choice.members.isEmpty = false := by
    change (∃ c, c ∈ choice.members.toList) ↔ choice.members.toList.isEmpty = false
    rw [List.isEmpty_eq_false_iff]
    exact ⟨fun ⟨c, member⟩ => List.ne_nil_of_mem member, List.exists_mem_of_ne_nil _⟩
  rw [members, Bool.and_eq_false_iff, ← List.isEmpty_eq_false_iff]

end Group

namespace Pattern

open TreeWatch.Group (Item)

inductive MemberText : Char → List Char → Prop where
  | bare {c} : c ∉ [']', '-', '\\'] → MemberText c [c]
  | escaped (c) : MemberText c ['\\', c]

inductive ItemText : Item → List Char → Prop where
  | member {c text} : MemberText c text → ItemText (.member c) text
  | range {low high text more} : MemberText low text → MemberText high more →
      ItemText (.range low high) (text ++ '-' :: more)

inductive ItemsText : List Item → List Char → Prop where
  | nil : ItemsText [] []
  | cons {item items text rest} : ItemText item text → ItemsText items rest →
      ItemsText (item :: items) (text ++ rest)

/-- Whether a text may stand between the brackets of a group, a caret that negates left out. -/
def BodyText (choice : Group) (text : List Char) : Prop :=
  ∃ items, items ≠ [] ∧ choice.Lists items ∧ ItemsText items text

inductive TokenText : Token → List Char → Prop where
  | separator : TokenText .separator ['/']
  | single : TokenText .single ['?']
  | any : TokenText .any ['*']
  | directories : TokenText .directories ['*', '*']
  | bare {c} : c ∉ ['/', '?', '*', '\\', '[', ']'] → TokenText (.literal c) [c]
  | escaped (c) : TokenText (.literal c) ['\\', c]
  | group {choice text} : choice.negated = false → BodyText choice text →
      text.head? ≠ some '^' → TokenText (.group choice) ('[' :: text ++ [']'])
  | negatedGroup {choice text} : choice.negated = true → BodyText choice text →
      TokenText (.group choice) ('[' :: '^' :: text ++ [']'])

theorem TokenText.ne_nil {token : Token} {text : List Char} (written : TokenText token text) :
    text ≠ [] := by
  cases written <;> simp

/-- Whether a text consists of written forms of the tokens, one after another. -/
inductive Spells : List Token → List Char → Prop where
  | nil : Spells [] []
  | cons {token later text rest} : TokenText token text → Spells later rest →
      Spells (token :: later) (text ++ rest)

/-- Whether one token may stand right before another. -/
structure Adjoins (first second : Token) : Prop where
  separators : first = .separator → second ≠ .separator
  behindAny : first = .any → second ≠ .single ∧ second ≠ .any
  beforeAny : second = .any → first ≠ .single ∧ first ≠ .any
  behindDirectories : first = .directories → second = .separator
  beforeDirectories : second = .directories → first = .separator

structure WellFormed (tokens : List Token) : Prop where
  adjoin : tokens.IsChain Adjoins
  groups : ∀ choice, .group choice ∈ tokens → choice.WellFormed

theorem WellFormed.of_cons {token : Token} {later : List Token}
    (wellFormed : WellFormed (token :: later)) : WellFormed later :=
  ⟨wellFormed.adjoin.tail, fun choice member =>
    wellFormed.groups choice (List.mem_cons_of_mem _ member)⟩

theorem WellFormed.adjoins {first second : Token} {later : List Token}
    (wellFormed : WellFormed (first :: second :: later)) : Adjoins first second :=
  (List.isChain_cons_cons.mp wellFormed.adjoin).1

end Pattern

end TreeWatch
