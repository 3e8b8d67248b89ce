import TreeWatch.Pattern.Basic

/-!
Deciding whether a path matches, by a search with a stack of cursors.

A cursor stands before the tokens and the characters that are still to be taken. Where a wildcard
leaves a choice, the shorter stretch is tried first and the longer one waits on the stack. The
search may come to one cursor many times, since nothing is recorded; every step replaces a cursor
by at most two smaller ones, which ends it.
-/

namespace TreeWatch

structure Cursor where
  tokens : List Token
  rest : List Char
  deriving DecidableEq

namespace Cursor

inductive Move
  /-- Everything has been taken. -/
  | found
  | stuck
  /-- The search goes on at the first cursor and may come back to the second. -/
  | go (next : Cursor) (other : Option Cursor)
  deriving DecidableEq

def takesNothing : List Token → Bool
  | [] => true
  | [token] => token.isStretch
  | _ => false

def afterSeparator? : List Char → Option (List Char)
  | [] => none
  | c :: rest => if c = separator then some rest else afterSeparator? rest

theorem length_lt_of_afterSeparator? {path rest : List Char}
    (found : afterSeparator? path = some rest) : rest.length < path.length := by
  induction path with
  | nil => cases found
  | cons c path inductionHypothesis =>
      simp only [afterSeparator?] at found
      split at found
      · cases found
        exact Nat.lt_succ_self _
      · exact Nat.lt_succ_of_lt (inductionHypothesis found)

/-- What follows the directory that the path begins with, if that has a name. -/
def afterDirectory? : List Char → Option (List Char)
  | [] => none
  | c :: rest => if c = separator then none else afterSeparator? rest

theorem length_lt_of_afterDirectory? {path rest : List Char}
    (found : afterDirectory? path = some rest) : rest.length < path.length := by
  cases path with
  | nil => cases found
  | cons c path =>
      simp only [afterDirectory?] at found
      split at found
      · cases found
      · exact Nat.lt_succ_of_lt (length_lt_of_afterSeparator? found)

/-- A wildcard for directories takes none of them together with the separator behind it. -/
def step : Cursor → Move
  | ⟨tokens, []⟩ => if takesNothing tokens then .found else .stuck
  | ⟨[], _ :: _⟩ => .stuck
  | ⟨.any :: later, c :: rest⟩ =>
      .go ⟨later, c :: rest⟩ (if c = separator then none else some ⟨.any :: later, rest⟩)
  | ⟨[.directories], _ :: _⟩ => .found
  | ⟨.directories :: skipped :: later, c :: rest⟩ =>
      .go ⟨later, c :: rest⟩
        ((afterDirectory? (c :: rest)).map fun rest => ⟨.directories :: skipped :: later, rest⟩)
  | ⟨token :: later, c :: rest⟩ => if token.accepts c then .go ⟨later, rest⟩ none else .stuck

def size (cursor : Cursor) : Nat := cursor.tokens.length + cursor.rest.length

theorem size_lt_of_step {cursor next : Cursor} {other : Option Cursor}
    (moved : cursor.step = .go next other) :
    next.size < cursor.size ∧ ∀ alternative ∈ other, alternative.size < cursor.size := by
  unfold step at moved
  split at moved
  · split at moved <;> cases moved
  · cases moved
  · cases moved
    refine ⟨by simp only [size, List.length_cons]; omega, ?_⟩
    intro alternative member
    split at member
    · cases member
    · cases member
      simp only [size, List.length_cons]
      omega
  · cases moved
  · cases moved
    refine ⟨by simp only [size, List.length_cons]; omega, ?_⟩
    intro alternative member
    obtain ⟨rest, found, rfl⟩ := Option.map_eq_some_iff.mp member
    have shorter := length_lt_of_afterDirectory? found
    simp only [size, List.length_cons] at shorter ⊢
    omega
  · split at moved
    · cases moved
      refine ⟨by simp only [size, List.length_cons]; omega, ?_⟩
      intro alternative member
      cases member
    · cases moved

def weight (cursor : Cursor) : Nat := Nat.pow 3 cursor.size

theorem weight_pos (cursor : Cursor) : 0 < cursor.weight := Nat.pow_pos (by decide)

theorem three_weight_le_of_size_lt {cursor other : Cursor} (smaller : cursor.size < other.size) :
    3 * cursor.weight ≤ other.weight := by
  have tripled : 3 * cursor.weight = Nat.pow 3 (cursor.size + 1) := Nat.mul_comm 3 cursor.weight
  rw [tripled]
  exact Nat.pow_le_pow_right (by decide) smaller

def totalWeight : List Cursor → Nat
  | [] => 0
  | cursor :: stack => cursor.weight + totalWeight stack

theorem totalWeight_append (cursors stack : List Cursor) :
    totalWeight (cursors ++ stack) = totalWeight cursors + totalWeight stack := by
  induction cursors with
  | nil => exact (Nat.zero_add _).symm
  | cons cursor cursors inductionHypothesis =>
      simp only [List.cons_append, totalWeight, inductionHypothesis, Nat.add_assoc]

theorem weight_lt_of_step {cursor next : Cursor} {other : Option Cursor}
    (moved : cursor.step = .go next other) :
    next.weight + totalWeight other.toList < cursor.weight := by
  obtain ⟨nextSmaller, otherSmaller⟩ := size_lt_of_step moved
  have nextBound := three_weight_le_of_size_lt nextSmaller
  have positive := next.weight_pos
  cases other with
  | none =>
      simp only [Option.toList_none, totalWeight]
      omega
  | some alternative =>
      have otherBound := three_weight_le_of_size_lt (otherSmaller alternative rfl)
      simp only [Option.toList_some, totalWeight]
      omega

end Cursor

/-- Whether the search succeeds from some cursor of the stack. -/
def search : List Cursor → Bool
  | [] => false
  | cursor :: stack =>
      match _moved : cursor.step with
      | .found => true
      | .stuck => search stack
      | .go next other => search (next :: (other.toList ++ stack))
termination_by stack => Cursor.totalWeight stack
decreasing_by
  · exact Nat.lt_add_of_pos_left cursor.weight_pos
  · have smaller := Cursor.weight_lt_of_step _moved
    simp only [Cursor.totalWeight, Cursor.totalWeight_append]
    omega

def tokensMatch (tokens : List Token) (path : List Char) : Bool :=
  search [⟨tokens, path⟩]

def Pattern.matches (pattern : Pattern) (path : String) : Bool :=
  tokensMatch pattern.tokens path.toList

end TreeWatch
