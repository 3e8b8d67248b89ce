import Mathlib.Logic.Function.Iterate
import TreeWatch.Proofs.Pattern.Segments

/-!
The search by numbers.

Here a cursor is given by the numbers of the tokens and of the characters before it, and what it
stands at has to be looked up, which fails where there is nothing. The loop over such positions
never looks outside the tokens or the path, takes the steps of the search one for one, and ends
with its answer. If the tokens are those of a pattern, the loop comes to a wildcard for directories
only where a name can begin, and what it skips there is the wildcard and a separator.
-/

namespace TreeWatch

open Cursor (Move takesNothing afterSeparator? afterDirectory?)
open Pattern (WellFormed Adjoins)

/-- The numbers of the tokens and of the characters before a cursor. -/
structure Position where
  token : Nat
  character : Nat
  deriving DecidableEq

namespace Position

inductive Look
  | found
  | stuck
  | go (next : Position) (other : Option Position)
  /-- There is no such token or no such character. -/
  | outside
  deriving DecidableEq

def separatorFrom? (path : List Char) (start : Nat) : Option Nat :=
  ((path.drop start).idxOf? separator).map (start + ·)

/-- The separator behind the directory that begins at a character, if that has a name. -/
def directoryEnd? (path : List Char) (start : Nat) : Option Nat :=
  (separatorFrom? path start).filter (start < ·)

section

variable (tokens : List Token) (path : List Char)

def meet (position : Position) : Token → Char → Look
  | .any, c =>
      .go ⟨position.token + 1, position.character⟩
        (if c = separator then none else some ⟨position.token, position.character + 1⟩)
  | .directories, _ =>
      if position.token + 1 = tokens.length then .found
      else
        .go ⟨position.token + 2, position.character⟩
          ((directoryEnd? path position.character).map fun boundary =>
            ⟨position.token, boundary + 1⟩)
  | token, c =>
      if token.accepts c then .go ⟨position.token + 1, position.character + 1⟩ none else .stuck

def look (position : Position) : Look :=
  if position.character = path.length then
    if takesNothing (tokens.drop position.token) then .found else .stuck
  else if position.token = tokens.length then .stuck
  else
    match tokens[position.token]?, path[position.character]? with
    | some token, some c => position.meet tokens path token c
    | _, _ => .outside

def cursor (position : Position) : Cursor :=
  ⟨tokens.drop position.token, path.drop position.character⟩

structure Inside (position : Position) : Prop where
  token : position.token ≤ tokens.length
  character : position.character ≤ path.length

/-- Where a look can lead, and what is found before it does. -/
inductive Leads (position : Position) : Position → Prop where
  | behindAny : tokens[position.token]? = some .any → position.character < path.length →
      Leads position ⟨position.token + 1, position.character⟩
  | insideAny {c} : tokens[position.token]? = some .any → path[position.character]? = some c →
      c ≠ separator → Leads position ⟨position.token, position.character + 1⟩
  | behindDirectories : tokens[position.token]? = some .directories →
      position.token + 1 < tokens.length → position.character < path.length →
      Leads position ⟨position.token + 2, position.character⟩
  | behindDirectory {boundary} : tokens[position.token]? = some .directories →
      directoryEnd? path position.character = some boundary →
      Leads position ⟨position.token, boundary + 1⟩
  | accepted {token c} : tokens[position.token]? = some token →
      path[position.character]? = some c → token.accepts c = true →
      Leads position ⟨position.token + 1, position.character + 1⟩

/-- Whether a look says of positions what a step says of cursors. -/
inductive Shows : Look → Move → Prop where
  | found : Shows .found .found
  | stuck : Shows .stuck .stuck
  | go (next other) :
      Shows (.go next other)
        (.go (next.cursor tokens path) (other.map fun position => position.cursor tokens path))

end

section Separator

variable {path : List Char} {start boundary : Nat}

theorem afterSeparator?_eq (path : List Char) :
    afterSeparator? path = (path.idxOf? separator).map fun index => path.drop (index + 1) := by
  induction path with
  | nil => rfl
  | cons c rest inductionHypothesis =>
      rw [afterSeparator?, List.idxOf?_cons]
      by_cases isSeparator : c = separator
      · simp [isSeparator]
      · simp [isSeparator, inductionHypothesis, Function.comp_def]

theorem afterDirectory?_drop (path : List Char) (start : Nat) :
    afterDirectory? (path.drop start) =
      (directoryEnd? path start).map fun boundary => path.drop (boundary + 1) := by
  unfold directoryEnd? separatorFrom?
  cases left : path.drop start with
  | nil => rfl
  | cons c rest =>
      rw [afterDirectory?, List.idxOf?_cons]
      by_cases isSeparator : c = separator
      · simp [isSeparator, Option.filter_some]
      · have behind (index : Nat) :
            path.drop (start + (index + 1) + 1) = rest.drop (index + 1) := by
          have same : path.drop (start + (index + 2)) = (path.drop start).drop (index + 2) :=
            List.drop_drop.symm
          rw [left] at same
          exact same
        rw [afterSeparator?_eq]
        cases rest.idxOf? separator with
        | none => simp [isSeparator]
        | some index => simp [isSeparator, Option.filter_some, behind]

theorem getElem?_of_directoryEnd? (found : directoryEnd? path start = some boundary) :
    path[boundary]? = some separator := by
  obtain ⟨first, _⟩ := Option.filter_eq_some_iff.mp found
  obtain ⟨index, isFirst, rfl⟩ := Option.map_eq_some_iff.mp first
  obtain ⟨inside, isSeparator, _⟩ := List.idxOf?_eq_some_iff.mp isFirst
  rw [← List.getElem?_drop, List.getElem?_eq_getElem inside, isSeparator]

end Separator

section Values

variable {α : Type} {values : List α} {index : Nat} {value : α}

theorem lt_of_getElem? (found : values[index]? = some value) : index < values.length :=
  (List.getElem?_eq_some_iff.mp found).1

theorem drop_of_getElem? (found : values[index]? = some value) :
    values.drop index = value :: values.drop (index + 1) := by
  obtain ⟨inside, rfl⟩ := List.getElem?_eq_some_iff.mp found
  exact List.drop_eq_getElem_cons inside

end Values

variable {tokens : List Token} {path : List Char} {position next later : Position}
  {other : Option Position} {token : Token} {c : Char}

theorem meet_of_plain (plain : token.isStretch = false) (c : Char) :
    position.meet tokens path token c =
      if token.accepts c then .go ⟨position.token + 1, position.character + 1⟩ none
      else .stuck := by
  cases token <;> first | rfl | cases plain

section Leads

theorem exists_meet_of_go (looked : position.look tokens path = .go next other) :
    ∃ token c, tokens[position.token]? = some token ∧ path[position.character]? = some c ∧
      position.meet tokens path token c = .go next other := by
  unfold look at looked
  split at looked
  · split at looked <;> cases looked
  · split at looked
    · cases looked
    · split at looked
      · rename_i token c isToken isCharacter
        exact ⟨token, c, isToken, isCharacter, looked⟩
      · cases looked

theorem next_of_directories (isToken : tokens[position.token]? = some .directories)
    (met : position.meet tokens path .directories c = .go next other) :
    position.token + 1 < tokens.length ∧ next = ⟨position.token + 2, position.character⟩ ∧
      other = (directoryEnd? path position.character).map fun boundary =>
        ⟨position.token, boundary + 1⟩ := by
  rw [meet] at met
  split at met
  · cases met
  · cases met
    have tokenInside := lt_of_getElem? isToken
    exact ⟨by omega, rfl, rfl⟩

theorem leads_of_go (looked : position.look tokens path = .go next other) :
    ∀ later ∈ next :: other.toList, position.Leads tokens path later := by
  obtain ⟨token, c, isToken, isCharacter, met⟩ := exists_meet_of_go looked
  have characterInside := lt_of_getElem? isCharacter
  intro later isLater
  cases token with
  | any =>
      cases met
      rcases List.mem_cons.mp isLater with rfl | isOther
      · exact .behindAny isToken characterInside
      · split at isOther
        · cases isOther
        · rename_i notSeparator
          cases List.mem_singleton.mp isOther
          exact .insideAny isToken isCharacter notSeparator
  | directories =>
      obtain ⟨skipped, rfl, rfl⟩ := next_of_directories isToken met
      simp only [List.mem_cons, Option.mem_toList, Option.map_eq_some_iff] at isLater
      rcases isLater with rfl | ⟨boundary, found, rfl⟩
      · exact .behindDirectories isToken skipped characterInside
      · exact .behindDirectory isToken found
  | literal | separator | single | group =>
      rw [meet_of_plain rfl] at met
      split at met
      · rename_i accepted
        cases met
        cases List.mem_singleton.mp isLater
        exact .accepted isToken isCharacter accepted
      · cases met

theorem Leads.inside (leads : position.Leads tokens path later) : later.Inside tokens path := by
  cases leads with
  | behindAny isToken characterInside => exact ⟨lt_of_getElem? isToken, characterInside.le⟩
  | insideAny isToken isCharacter =>
      exact ⟨(lt_of_getElem? isToken).le, lt_of_getElem? isCharacter⟩
  | behindDirectories isToken skipped characterInside => exact ⟨skipped, characterInside.le⟩
  | behindDirectory isToken found =>
      exact ⟨(lt_of_getElem? isToken).le, lt_of_getElem? (getElem?_of_directoryEnd? found)⟩
  | accepted isToken isCharacter =>
      exact ⟨lt_of_getElem? isToken, lt_of_getElem? isCharacter⟩

end Leads

section Shows

theorem shows_any (isToken : tokens[position.token]? = some .any)
    (isCharacter : path[position.character]? = some c) :
    Shows tokens path (position.meet tokens path .any c) (position.cursor tokens path).step := by
  have moved : (position.cursor tokens path).step =
      .go (cursor tokens path ⟨position.token + 1, position.character⟩)
        ((if c = separator then none
            else some (Position.mk position.token (position.character + 1))).map
          fun later => later.cursor tokens path) := by
    simp only [cursor, drop_of_getElem? isToken, drop_of_getElem? isCharacter, Cursor.step]
    by_cases isSeparator : c = separator <;> simp [isSeparator, drop_of_getElem? isToken]
  rw [moved, meet]
  exact .go _ _

theorem shows_directories (isToken : tokens[position.token]? = some .directories)
    (isCharacter : path[position.character]? = some c) :
    Shows tokens path (position.meet tokens path .directories c)
      (position.cursor tokens path).step := by
  rw [meet]
  split
  · rename_i isLast
    have moved : (position.cursor tokens path).step = .found := by
      rw [cursor, drop_of_getElem? isToken, drop_of_getElem? isCharacter, isLast, List.drop_length,
        Cursor.step]
    rw [moved]
    exact .found
  · rename_i notLast
    have tokenInside := lt_of_getElem? isToken
    have skipped : position.token + 1 < tokens.length := by omega
    have tokensLeft : tokens.drop position.token =
        .directories :: tokens[position.token + 1] :: tokens.drop (position.token + 2) := by
      rw [drop_of_getElem? isToken, List.drop_eq_getElem_cons skipped]
    have moved : (position.cursor tokens path).step =
        .go (cursor tokens path ⟨position.token + 2, position.character⟩)
          (((directoryEnd? path position.character).map fun boundary =>
              Position.mk position.token (boundary + 1)).map
            fun later => later.cursor tokens path) := by
      have directory := afterDirectory?_drop path position.character
      simp only [cursor, tokensLeft, Option.map_map, Function.comp_def]
      rw [drop_of_getElem? isCharacter] at directory ⊢
      rw [Cursor.step, directory, Option.map_map]
      rfl
    rw [moved]
    exact .go _ _

theorem shows_plain (plain : token.isStretch = false)
    (isToken : tokens[position.token]? = some token)
    (isCharacter : path[position.character]? = some c) :
    Shows tokens path (position.meet tokens path token c) (position.cursor tokens path).step := by
  have moved := Cursor.step_of_plain plain (tokens.drop (position.token + 1)) c
    (path.drop (position.character + 1))
  rw [← drop_of_getElem? isToken, ← drop_of_getElem? isCharacter] at moved
  rw [cursor, moved, meet_of_plain plain]
  split
  · exact .go ⟨position.token + 1, position.character + 1⟩ none
  · exact .stuck

theorem Inside.shows (inside : position.Inside tokens path) :
    Shows tokens path (position.look tokens path) (position.cursor tokens path).step := by
  unfold look
  split
  · rename_i atEnd
    rw [cursor, atEnd, List.drop_length, Cursor.step]
    split
    · exact .found
    · exact .stuck
  · rename_i notAtEnd
    have characterInside : position.character < path.length :=
      Nat.lt_of_le_of_ne inside.character notAtEnd
    split
    · rename_i noToken
      rw [cursor, noToken, List.drop_length, List.drop_eq_getElem_cons characterInside, Cursor.step]
      exact .stuck
    · rename_i notBehind
      have tokenInside : position.token < tokens.length :=
        Nat.lt_of_le_of_ne inside.token notBehind
      have isToken := List.getElem?_eq_getElem tokenInside
      have isCharacter := List.getElem?_eq_getElem characterInside
      rw [isToken, isCharacter]
      dsimp only
      generalize tokens[position.token] = token at isToken
      generalize path[position.character] = c at isCharacter
      cases token with
      | any => exact shows_any isToken isCharacter
      | directories => exact shows_directories isToken isCharacter
      | literal | separator | single | group => exact shows_plain rfl isToken isCharacter

end Shows

/-- Whether a name can begin at a character of a path: at the first one, or directly behind a
separator. -/
def BeginsName (path : List Char) (character : Nat) : Prop :=
  character = 0 ∨ ∃ before, character = before + 1 ∧ path[before]? = some separator

/-- Whether a name can begin at a position that is at a wildcard for directories. -/
structure Aligned (tokens : List Token) (path : List Char) (position : Position) : Prop
    extends position.Inside tokens path where
  beginsName : tokens[position.token]? = some .directories → BeginsName path position.character

section Aligned

theorem adjoins_of_getElem? (wellFormed : WellFormed tokens) {index : Nat} {first second : Token}
    (isFirst : tokens[index]? = some first) (isSecond : tokens[index + 1]? = some second) :
    Adjoins first second := by
  obtain ⟨firstInside, rfl⟩ := List.getElem?_eq_some_iff.mp isFirst
  obtain ⟨secondInside, rfl⟩ := List.getElem?_eq_some_iff.mp isSecond
  exact List.isChain_iff_getElem.mp wellFormed.adjoin index secondInside

theorem Leads.aligned (wellFormed : WellFormed tokens) (aligned : position.Aligned tokens path)
    (leads : position.Leads tokens path later) : later.Aligned tokens path := by
  refine ⟨leads.inside, ?_⟩
  intro atDirectories
  cases leads with
  | behindAny isToken =>
      cases (adjoins_of_getElem? wellFormed isToken atDirectories).beforeDirectories rfl
  | insideAny isToken => cases isToken.symm.trans atDirectories
  | behindDirectories isToken => exact aligned.beginsName isToken
  | behindDirectory isToken found => exact .inr ⟨_, rfl, getElem?_of_directoryEnd? found⟩
  | accepted isToken isCharacter accepted =>
      cases (adjoins_of_getElem? wellFormed isToken atDirectories).beforeDirectories rfl
      exact .inr ⟨_, rfl, eq_of_beq accepted ▸ isCharacter⟩

theorem skips_of_go (wellFormed : WellFormed tokens)
    (atDirectories : tokens[position.token]? = some .directories)
    (looked : position.look tokens path = .go next other) :
    next = ⟨position.token + 2, position.character⟩ ∧
      tokens[position.token + 1]? = some .separator := by
  obtain ⟨token, c, isToken, _, met⟩ := exists_meet_of_go looked
  cases isToken.symm.trans atDirectories
  obtain ⟨skipped, same, _⟩ := next_of_directories isToken met
  have isSkipped := List.getElem?_eq_getElem skipped
  have adjoins := adjoins_of_getElem? wellFormed isToken isSkipped
  exact ⟨same, isSkipped.trans (congrArg some (adjoins.behindDirectories rfl))⟩

end Aligned

end Position

/-- How far the loop over positions has got. -/
inductive Headway
  /-- The loop is at the first position; the others are stacked. -/
  | going (positions : List Position)
  | ended (answer : Bool)
  | outside
  deriving DecidableEq

namespace Headway

section

variable (tokens : List Token) (path : List Char)

def turn : Headway → Headway
  | .going [] => .ended false
  | .going (position :: stack) =>
      match position.look tokens path with
      | .found => .ended true
      | .stuck => .going stack
      | .go next other => .going (next :: (other.toList ++ stack))
      | .outside => .outside
  | .ended answer => .ended answer
  | .outside => .outside

def after (turns : Nat) : Headway := (turn tokens path)^[turns] (.going [⟨0, 0⟩])

end

/-- Whether something holds of all positions that are still to be handled. -/
def Keeps (holds : Position → Prop) : Headway → Prop
  | .going positions => ∀ position ∈ positions, holds position
  | .ended _ => True
  | .outside => False

variable {tokens : List Token} {path : List Char}

section Invariant

variable {holds : Position → Prop} {headway : Headway}

/-- What holds of positions inside only and is kept by each look is kept by a turn. -/
theorem Keeps.turn (inside : ∀ position, holds position → position.Inside tokens path)
    (kept : ∀ position later, holds position → position.Leads tokens path later → holds later)
    (keeps : headway.Keeps holds) : (headway.turn tokens path).Keeps holds := by
  cases headway with
  | ended answer => trivial
  | outside => exact keeps.elim
  | going positions =>
      cases positions with
      | nil => trivial
      | cons position stack =>
          obtain ⟨here, stacked⟩ := List.forall_mem_cons.mp keeps
          have shows := (inside position here).shows
          rw [Headway.turn]
          cases looked : position.look tokens path with
          | found => trivial
          | stuck => exact stacked
          | outside =>
              rw [looked] at shows
              cases shows
          | go next other =>
              intro later isLater
              rw [← List.cons_append, List.mem_append] at isLater
              rcases isLater with isNext | isStacked
              · exact kept position later here (Position.leads_of_go looked later isNext)
              · exact stacked later isStacked

theorem keeps_after (inside : ∀ position, holds position → position.Inside tokens path)
    (kept : ∀ position later, holds position → position.Leads tokens path later → holds later)
    (initially : holds ⟨0, 0⟩) (turns : Nat) : (after tokens path turns).Keeps holds := by
  induction turns with
  | zero => simpa [after, Keeps] using initially
  | succ turns inductionHypothesis =>
      rw [after, Function.iterate_succ_apply']
      exact inductionHypothesis.turn inside kept

theorem inside_after (tokens : List Token) (path : List Char) (turns : Nat) :
    (after tokens path turns).Keeps (Position.Inside tokens path) := by
  apply keeps_after
  · exact fun position inside => inside
  · exact fun position later _ leads => leads.inside
  · exact ⟨Nat.zero_le _, Nat.zero_le _⟩

theorem aligned_after (wellFormed : WellFormed tokens) (path : List Char) (turns : Nat) :
    (after tokens path turns).Keeps (Position.Aligned tokens path) := by
  apply keeps_after
  · exact fun position aligned => aligned.toInside
  · exact fun position later aligned leads => leads.aligned wellFormed aligned
  · exact ⟨⟨Nat.zero_le _, Nat.zero_le _⟩, fun _ => .inl rfl⟩

end Invariant

section Search

variable {position : Position} {behind : List Position}

theorem turn_of_found (inside : position.Inside tokens path)
    (found : (position.cursor tokens path).step = .found) :
    turn tokens path (.going (position :: behind)) = .ended true := by
  have shows := inside.shows
  rw [turn]
  rw [found] at shows
  generalize position.look tokens path = look at shows
  cases shows
  rfl

theorem turn_of_stuck (inside : position.Inside tokens path)
    (stuck : (position.cursor tokens path).step = .stuck) :
    turn tokens path (.going (position :: behind)) = .going behind := by
  have shows := inside.shows
  rw [turn]
  rw [stuck] at shows
  generalize position.look tokens path = look at shows
  cases shows
  rfl

theorem turn_of_go {next : Cursor} {other : Option Cursor} (inside : position.Inside tokens path)
    (moved : (position.cursor tokens path).step = .go next other) :
    ∃ replacing : List Position,
      turn tokens path (.going (position :: behind)) = .going (replacing ++ behind) ∧
        next :: other.toList = replacing.map (fun later => later.cursor tokens path) ∧
        ∀ later ∈ replacing, later.Inside tokens path := by
  have shows := inside.shows
  rw [moved] at shows
  cases looked : position.look tokens path with
  | go nextPosition otherPosition =>
      rw [looked] at shows
      cases shows
      refine ⟨nextPosition :: otherPosition.toList, ?_, ?_, ?_⟩
      · rw [turn, looked]
        rfl
      · cases otherPosition <;> rfl
      · exact fun later isLater => (Position.leads_of_go looked later isLater).inside
  | found | stuck | outside =>
      rw [looked] at shows
      cases shows

/-- From positions inside, the loop ends with the answer of the search from their cursors. -/
theorem exists_turns_ended {cursors : List Cursor} {positions : List Position}
    (same : cursors = positions.map fun position => position.cursor tokens path)
    (inside : ∀ position ∈ positions, position.Inside tokens path) :
    ∃ turns ≤ Cursor.totalWeight cursors + 1,
      (turn tokens path)^[turns] (.going positions) = .ended (search cursors) := by
  -- Each turn of the loop is one step of the search, so its induction is that of the search; the
  -- weight of the stack pays for the turns.
  fun_induction search cursors generalizing positions with
  | case1 =>
      cases List.map_eq_nil_iff.mp same.symm
      exact ⟨1, Nat.le_add_left _ _, rfl⟩
  | case2 cursor stack found =>
      obtain ⟨position, behind, rfl, rfl, rfl⟩ := List.map_eq_cons_iff.mp same.symm
      exact ⟨1, Nat.le_add_left _ _, turn_of_found (inside position List.mem_cons_self) found⟩
  | case3 cursor stack stuck inductionHypothesis =>
      obtain ⟨position, behind, rfl, rfl, rfl⟩ := List.map_eq_cons_iff.mp same.symm
      obtain ⟨here, behindInside⟩ := List.forall_mem_cons.mp inside
      obtain ⟨turns, few, ends⟩ := inductionHypothesis rfl behindInside
      have positive := (position.cursor tokens path).weight_pos
      refine ⟨turns + 1, ?_, ?_⟩
      · rw [Cursor.totalWeight]
        omega
      · rw [Function.iterate_succ_apply, turn_of_stuck here stuck, ends]
  | case4 cursor stack next other moved inductionHypothesis =>
      obtain ⟨position, behind, rfl, rfl, rfl⟩ := List.map_eq_cons_iff.mp same.symm
      obtain ⟨here, behindInside⟩ := List.forall_mem_cons.mp inside
      obtain ⟨replacing, turned, replaced, replacingInside⟩ := turn_of_go here moved
      have lighter := Cursor.weight_lt_of_step moved
      have stacked : next :: (other.toList ++ behind.map fun later => later.cursor tokens path) =
          (replacing ++ behind).map fun later => later.cursor tokens path := by
        rw [List.map_append, ← replaced, List.cons_append]
      obtain ⟨turns, few, ends⟩ := inductionHypothesis stacked
        (List.forall_mem_append.mpr ⟨replacingInside, behindInside⟩)
      refine ⟨turns + 1, ?_, ?_⟩
      · simp only [Cursor.totalWeight, Cursor.totalWeight_append] at few ⊢
        omega
      · rw [Function.iterate_succ_apply, turned, ends]

theorem exists_after_eq_ended (tokens : List Token) (path : List Char) :
    ∃ turns ≤ Nat.pow 3 (tokens.length + path.length) + 1,
      after tokens path turns = .ended (tokensMatch tokens path) := by
  have inside : ∀ position ∈ [Position.mk 0 0], position.Inside tokens path := by
    intro position member
    cases List.mem_singleton.mp member
    exact ⟨Nat.zero_le _, Nat.zero_le _⟩
  have start : [Cursor.mk tokens path] =
      [Position.mk 0 0].map fun position => position.cursor tokens path := rfl
  exact exists_turns_ended start inside

end Search

end Headway

/-- The loop over numbers ends, with the answer of the search and within a bound on its steps. It
never looks outside the tokens or the path: each position that it comes to is inside both, and a
look there says what the step of its cursor says. At a wildcard for directories of a pattern a name
can begin, and what is skipped there is the wildcard and a separator. -/
theorem loop_stays_inside (tokens : List Token) (path : List Char) :
    (∃ turns ≤ Nat.pow 3 (tokens.length + path.length) + 1,
      Headway.after tokens path turns = .ended (tokensMatch tokens path)) ∧
    (∀ turns, Headway.after tokens path turns ≠ .outside) ∧
    (∀ turns positions, Headway.after tokens path turns = .going positions →
      ∀ position ∈ positions, position.token ≤ tokens.length ∧ position.character ≤ path.length ∧
        Position.Shows tokens path (position.look tokens path)
          (position.cursor tokens path).step) ∧
    ∀ (pattern : Pattern) turns positions,
      Headway.after pattern.tokens path turns = .going positions →
      ∀ position ∈ positions, pattern.tokens[position.token]? = some .directories →
        Position.BeginsName path position.character ∧
          ∀ next other, position.look pattern.tokens path = .go next other →
            next = ⟨position.token + 2, position.character⟩ ∧
              pattern.tokens[position.token + 1]? = some .separator := by
  refine ⟨Headway.exists_after_eq_ended tokens path, ?_, ?_, ?_⟩
  · intro turns isOutside
    have kept := Headway.inside_after tokens path turns
    rw [isOutside] at kept
    exact kept
  · intro turns positions going position member
    have kept := Headway.inside_after tokens path turns
    rw [going] at kept
    have inside := kept position member
    exact ⟨inside.token, inside.character, inside.shows⟩
  · intro pattern turns positions going position member atDirectories
    have kept := Headway.aligned_after pattern.wellFormed_tokens path turns
    rw [going] at kept
    refine ⟨(kept position member).beginsName atDirectories, ?_⟩
    intro next other looked
    exact Position.skips_of_go pattern.wellFormed_tokens atDirectories looked

/-- The wildcard for directories is come back to behind the first name. -/
theorem loop_stays_inside_sources :
    let path := "lib/src/a.c".toList
    Headway.after Pattern.sources.tokens path 2 = .going [⟨0, 4⟩] ∧
      Pattern.sources.tokens[0]? = some .directories ∧
      Position.look Pattern.sources.tokens path ⟨0, 4⟩ = .go ⟨2, 4⟩ (some ⟨0, 8⟩) ∧
      Position.BeginsName path 4 ∧ Pattern.sources.tokens[1]? = some .separator := by
  intro path
  have going : Headway.after Pattern.sources.tokens path 2 = .going [⟨0, 4⟩] := by decide
  have atDirectories : Pattern.sources.tokens[0]? = some .directories := by decide
  have looked : Position.look Pattern.sources.tokens path ⟨0, 4⟩ =
      .go ⟨2, 4⟩ (some ⟨0, 8⟩) := by decide
  obtain ⟨begins, skips⟩ := (loop_stays_inside Pattern.sources.tokens path).2.2.2 Pattern.sources 2
    [⟨0, 4⟩] going ⟨0, 4⟩ List.mem_cons_self atDirectories
  exact ⟨going, atDirectories, looked, begins, (skips _ _ looked).2⟩

end TreeWatch
