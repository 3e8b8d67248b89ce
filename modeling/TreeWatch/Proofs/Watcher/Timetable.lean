import Mathlib.Tactic.Linarith
import Mathlib.Tactic.Ring
import TreeWatch.Proofs.Watcher.Timer

/-!
When the passes of a loop begin, by an exact clock.

The clock moves while the loop sleeps, and not beyond the end of the sleep, and while it makes a
pass. A pass then begins one interval after the last one, or as soon as the last one has ended if
that is later. Sleeping in slices makes no difference.
-/

namespace TreeWatch.Schedule

universe u

section Times

variable {τ : Type u} [Add τ] [Max τ]

/-- The times at which passes are to begin, from the start of the loop on. -/
def timetable (interval start : τ) (durations : Nat → τ) : Nat → τ
  | 0 => start
  | 1 => start + interval
  | count + 2 =>
      let last := timetable interval start durations (count + 1)
      max (last + interval) (last + durations (count + 1))

def firstTimes (interval start : τ) (durations : Nat → τ) (count : Nat) : List τ :=
  (List.range count).map fun last => timetable interval start durations (last + 1)

theorem firstTimes_succ (interval start : τ) (durations : Nat → τ) (count : Nat) :
    firstTimes interval start durations (count + 1) =
      firstTimes interval start durations count ++
        [timetable interval start durations (count + 1)] := by
  simp only [firstTimes, List.range_succ, List.map_append, List.map_cons, List.map_nil]

/-- Whether passes that began and ended at these times have taken so long, from 1 on. -/
def Took (durations : Nat → τ) (begun ended : List τ) : Prop :=
  ∀ count first last, begun[count]? = some first → ended[count]? = some last →
    last = first + durations (count + 1)

omit [Max τ] in
theorem Took.of_append {durations : Nat → τ} {begun ended moreBegun moreEnded : List τ}
    (took : Took durations (begun ++ moreBegun) (ended ++ moreEnded)) :
    Took durations begun ended := by
  intro count first last began finished
  have inBegun := (List.getElem?_eq_some_iff.mp began).1
  have inEnded := (List.getElem?_eq_some_iff.mp finished).1
  apply took count first last
  · rw [List.getElem?_append_left inBegun, began]
  · rw [List.getElem?_append_left inEnded, finished]

omit [Max τ] in
theorem Took.append {durations : Nat → τ} {begun ended : List τ} (took : Took durations begun ended)
    (even : ended.length = begun.length) (first : τ) :
    Took durations (begun ++ [first]) (ended ++ [first + durations (begun.length + 1)]) := by
  intro count began finished beginning ending
  rcases Nat.lt_trichotomy count begun.length with less | rfl | more
  · rw [List.getElem?_append_left less] at beginning
    rw [List.getElem?_append_left (even ▸ less)] at ending
    exact took count began finished beginning ending
  · rw [List.getElem?_concat_length] at beginning
    rw [← even, List.getElem?_concat_length] at ending
    cases beginning
    cases ending
    rw [even]
  · have outside := (List.getElem?_eq_some_iff.mp beginning).1
    rw [List.length_append, List.length_singleton] at outside
    omega

end Times

/-- A timer, and the times at which its passes have begun and ended. -/
structure Log (τ : Type u) where
  timer : Timer τ
  begun : List τ
  ended : List τ

namespace Log

variable {τ : Type u} {log : Log τ} {later : Timer τ}

def note (log : Log τ) (later : Timer τ) : Log τ where
  timer := later
  begun := log.begun ++
    if !log.timer.phase.isPassing && later.phase.isPassing then [later.clock] else []
  ended := log.ended ++
    if log.timer.phase.isPassing && !later.phase.isPassing then [later.clock] else []

theorem note_still (same : later.phase.isPassing = log.timer.phase.isPassing) :
    log.note later = ⟨later, log.begun, log.ended⟩ := by
  cases passing : log.timer.phase.isPassing <;> simp [note, same, passing]

theorem note_begins (before : log.timer.phase.isPassing = false)
    (after : later.phase.isPassing = true) :
    log.note later = ⟨later, log.begun ++ [later.clock], log.ended⟩ := by
  simp [note, before, after]

theorem note_ends (before : log.timer.phase.isPassing = true)
    (after : later.phase.isPassing = false) :
    log.note later = ⟨later, log.begun, log.ended ++ [later.clock]⟩ := by
  simp [note, before, after]

theorem begun_note (before : later.phase.isPassing = true → log.timer.phase.isPassing = true) :
    (log.note later).begun = log.begun := by
  cases after : later.phase.isPassing with
  | false => simp [note, after]
  | true => simp [note, before after]

end Log

section Exactness

variable {τ : Type u} [CommRing τ] [LinearOrder τ] {interval start last : τ}
  {durations : Nat → τ} {log : Log τ}

/-- What a decision means on an exact clock. -/
inductive Decides (interval : τ) (slice : Option τ) (cancelled stopped : Bool) (started now : τ) :
    Decision τ → Prop
  | stop (ends : stopped = true ∨ cancelled = true) :
      Decides interval slice cancelled stopped started now .stop
  | tick (due : started + interval ≤ now) :
      Decides interval slice cancelled stopped started now .tick
  | sleep {duration : τ} (early : now < started + interval)
      (whole : now + duration = started + interval) :
      Decides interval slice cancelled stopped started now (.sleep duration)
  | slice {duration : τ} (early : now < started + interval) (sliced : slice = some duration)
      (short : now + duration ≤ started + interval) :
      Decides interval slice cancelled stopped started now (.sleep duration)

/-- How long the loop is busy after each of these times: making a pass, but not at its start. -/
def busy (durations : Nat → τ) : Nat → τ
  | 0 => 0
  | count + 1 => durations (count + 1)

/-- Where the loop may be if its last pass began at this time and the clock shows that. -/
inductive Keeps (interval last busy clock : τ) : Phase τ → Prop
  | deciding (ended : last + busy ≤ clock) (early : clock ≤ max (last + interval) (last + busy)) :
      Keeps interval last busy clock (.deciding last)
  | sleeping {wake : τ} (ended : last + busy ≤ clock) (asleep : clock ≤ wake)
      (early : wake ≤ last + interval) : Keeps interval last busy clock (.sleeping last wake)
  | passing : Keeps interval last busy clock (.passing last)
  | ended : Keeps interval last busy clock .ended

/-- What holds of a loop as long as the clock is exact and its passes take these times. -/
structure OnTime (interval start : τ) (durations : Nat → τ) (log : Log τ) : Prop where
  sameInterval : log.timer.interval = interval
  slices : ∀ most, log.timer.slice = some most → 0 < most
  begun : log.begun = firstTimes interval start durations log.begun.length
  counted : log.begun.length = log.ended.length + log.timer.phase.isPassing.toNat
  keeps : Keeps interval (timetable interval start durations log.begun.length)
    (busy durations log.begun.length) log.timer.clock log.timer.phase

/-- Whether an act keeps to an exact clock: time goes by while the loop sleeps, but not beyond the
end of the sleep, and while it makes a pass or is not at work. -/
def Timer.Permits (timer : Timer τ) : Act τ → Prop
  | .elapse duration =>
      0 ≤ duration ∧
        match timer.phase with
        | .deciding _ => duration = 0
        | .sleeping _ wake => timer.clock + duration ≤ wake
        | _ => True
  | _ => True

theorem OnTime.still {later : Timer τ} (onTime : OnTime interval start durations log)
    (sameInterval : later.interval = log.timer.interval) (sameSlice : later.slice = log.timer.slice)
    (same : later.phase.isPassing = log.timer.phase.isPassing)
    (keeps : Keeps interval (timetable interval start durations log.begun.length)
      (busy durations log.begun.length) later.clock later.phase) :
    OnTime interval start durations (log.note later) := by
  rw [Log.note_still same]
  constructor <;> dsimp only
  · exact sameInterval.trans onTime.sameInterval
  · rw [sameSlice]
    exact onTime.slices
  · exact onTime.begun
  · rw [same]
    exact onTime.counted
  · exact keeps

theorem OnTime.unchanged (onTime : OnTime interval start durations log) :
    OnTime interval start durations (log.note log.timer) :=
  onTime.still rfl rfl rfl onTime.keeps

theorem getElem?_firstTimes {count index : Nat} (within : index < count) :
    (firstTimes interval start durations count)[index]? =
      some (timetable interval start durations (index + 1)) := by
  simp [firstTimes, List.getElem?_range within]

theorem OnTime.ending (onTime : OnTime interval start durations log)
    (passing : log.timer.phase.isPassing = true)
    (took : Took durations log.begun (log.ended ++ [log.timer.clock])) :
    log.timer.clock = timetable interval start durations log.begun.length +
      busy durations log.begun.length := by
  have counted : log.begun.length = log.ended.length + 1 := by
    have counted := onTime.counted
    rwa [passing] at counted
  rw [counted, busy]
  apply took log.ended.length
  · rw [onTime.begun, counted]
    exact getElem?_firstTimes (Nat.lt_succ_self _)
  · exact List.getElem?_concat_length

theorem OnTime.ends {phase : Phase τ} (onTime : OnTime interval start durations log)
    (passing : log.timer.phase.isPassing = true) (left : phase.isPassing = false)
    (keeps : Keeps interval (timetable interval start durations log.begun.length)
      (busy durations log.begun.length) log.timer.clock phase) :
    OnTime interval start durations (log.note { log.timer with phase }) := by
  rw [Log.note_ends passing left]
  constructor <;> dsimp only
  · exact onTime.sameInterval
  · exact onTime.slices
  · exact onTime.begun
  · have counted := onTime.counted
    rw [passing] at counted
    rw [left, List.length_append]
    exact counted
  · exact keeps

theorem OnTime.finish (onTime : OnTime interval start durations log)
    (took : Took durations (log.note (log.timer.act .finish)).begun
      (log.note (log.timer.act .finish)).ended) :
    OnTime interval start durations (log.note (log.timer.act .finish)) := by
  cases passing : log.timer.phase.isPassing with
  | false =>
      rw [Timer.act, Phase.finished_eq_self passing]
      exact onTime.unchanged
  | true =>
      obtain ⟨last, phase⟩ := Phase.exists_of_isPassing passing
      have finishes : log.timer.act .finish = { log.timer with phase := .deciding last } := by
        rw [Timer.act, phase, Phase.finished]
      have keeps := onTime.keeps
      rw [phase] at keeps
      rw [finishes] at took ⊢
      rw [Log.note_ends passing rfl] at took
      have due := onTime.ending passing took
      apply onTime.ends passing rfl
      cases keeps with
      | passing => exact .deciding due.ge (le_max_of_le_right due.le)

theorem OnTime.fail (onTime : OnTime interval start durations log) :
    OnTime interval start durations (log.note (log.timer.act .fail)) := by
  cases passing : log.timer.phase.isPassing with
  | false =>
      rw [Timer.act, Phase.failed_eq_self passing]
      exact onTime.unchanged
  | true =>
      obtain ⟨last, phase⟩ := Phase.exists_of_isPassing passing
      rw [Timer.act, phase, Phase.failed]
      exact onTime.ends passing rfl .ended

variable [IsStrictOrderedRing τ]

theorem OnTime.elapse (onTime : OnTime interval start durations log) {duration : τ}
    (permitted : log.timer.Permits (.elapse duration)) :
    OnTime interval start durations (log.note (log.timer.act (.elapse duration))) := by
  have keeps := onTime.keeps
  obtain ⟨forward, within⟩ := permitted
  refine onTime.still rfl rfl rfl ?_
  dsimp only [Timer.act]
  cases phase : log.timer.phase with
  | idle =>
      rw [phase] at keeps
      cases keeps
  | deciding last =>
      rw [phase] at keeps within
      dsimp only at within
      rw [within, add_zero]
      exact keeps
  | sleeping last wake =>
      rw [phase] at keeps within
      cases keeps with
      | sleeping ended asleep early => exact .sleeping (by linarith) within early
  | passing last =>
      rw [phase] at keeps
      cases keeps with
      | passing => exact .passing
  | ended => exact .ended

theorem decides (interval : τ) (slice : Option τ) (cancelled stopped : Bool) (started now : τ) :
    Decides interval slice cancelled stopped started now
      (decide interval slice cancelled stopped started now) := by
  unfold decide remaining
  split
  · exact .stop (.inr ‹_›)
  · split
    · rename_i due
      split
      · exact .stop (.inl ‹_›)
      · exact .tick (by linarith)
    · rename_i notDue
      have early : now < started + interval := by linarith
      split
      · exact .stop (.inl ‹_›)
      · cases slice with
        | none => exact .sleep early (by ring)
        | some slice =>
            dsimp only [earlier]
            split
            · exact .slice early rfl (by linarith)
            · exact .sleep early (by ring)

theorem timetable_succ (positive : 0 < interval) (count : Nat) :
    timetable interval start durations (count + 1) =
      max (timetable interval start durations count + interval)
        (timetable interval start durations count + busy durations count) := by
  cases count with
  | zero =>
      rw [busy, add_zero, timetable, timetable]
      exact (max_eq_left (le_add_of_nonneg_right positive.le)).symm
  | succ count => rw [busy, timetable]

theorem OnTime.alarm_le (onTime : OnTime interval start durations log) (positive : 0 < interval)
    {alarm : τ} (sleeping : log.timer.phase = .sleeping last alarm) :
    alarm ≤ timetable interval start durations (log.begun.length + 1) := by
  have keeps := onTime.keeps
  rw [sleeping] at keeps
  rw [timetable_succ positive]
  cases keeps with
  | sleeping _ _ early => exact le_max_of_le_left early

theorem OnTime.tick (onTime : OnTime interval start durations log) (positive : 0 < interval)
    (deciding : log.timer.phase = .deciding last)
    (due : last + log.timer.interval ≤ log.timer.clock) :
    OnTime interval start durations
      (log.note { log.timer with phase := .passing log.timer.clock }) := by
  have keeps := onTime.keeps
  rw [deciding] at keeps
  rw [onTime.sameInterval] at due
  have next : log.timer.clock = timetable interval start durations (log.begun.length + 1) := by
    rw [timetable_succ positive]
    cases keeps with
    | deciding ended early => exact le_antisymm early (max_le due ended)
  have length : (log.begun ++ [log.timer.clock]).length = log.begun.length + 1 :=
    List.length_append
  rw [Log.note_begins (by rw [deciding]; rfl) rfl]
  constructor <;> dsimp only
  · exact onTime.sameInterval
  · exact onTime.slices
  · rw [length, firstTimes_succ, ← onTime.begun, next]
  · have counted := onTime.counted
    rw [deciding] at counted
    rw [length, counted]
    rfl
  · rw [length, ← next]
    exact .passing

theorem OnTime.look (onTime : OnTime interval start durations log) (positive : 0 < interval)
    (deciding : log.timer.phase = .deciding last) :
    OnTime interval start durations (log.note (log.timer.act .resume)) := by
  have keeps := onTime.keeps
  have still : log.timer.phase.isPassing = false := by rw [deciding]; rfl
  have decided : Decides log.timer.interval log.timer.slice
      (log.timer.slice.isSome && log.timer.cancelled) log.timer.stopped last log.timer.clock
      (log.timer.decision last) :=
    decides _ _ _ _ _ _
  rw [deciding] at keeps
  rw [Timer.act, Timer.nextPhase, deciding]
  dsimp only
  generalize log.timer.decision last = decision at decided ⊢
  cases decided with
  | stop => exact onTime.still rfl rfl still.symm .ended
  | tick due => exact onTime.tick positive deciding due
  | sleep early whole =>
      refine onTime.still rfl rfl still.symm ?_
      have sameInterval := onTime.sameInterval
      cases keeps with
      | deciding ended => exact .sleeping ended (by linarith) (by linarith)
  | slice early sliced short =>
      refine onTime.still rfl rfl still.symm ?_
      have sameInterval := onTime.sameInterval
      have positive := onTime.slices _ sliced
      cases keeps with
      | deciding ended => exact .sleeping ended (by linarith) (by linarith)

theorem OnTime.resume (onTime : OnTime interval start durations log) (positive : 0 < interval) :
    OnTime interval start durations (log.note (log.timer.act .resume)) := by
  have keeps := onTime.keeps
  cases phase : log.timer.phase with
  | deciding last => exact onTime.look positive phase
  | sleeping last wake =>
      rw [Timer.act, Timer.nextPhase, phase]
      have still : log.timer.phase.isPassing = false := by rw [phase]; rfl
      refine onTime.still rfl rfl still.symm ?_
      rw [phase] at keeps
      cases keeps with
      | sleeping ended asleep early =>
          exact .deciding ended (le_max_of_le_left (asleep.trans early))
  | idle | passing | ended =>
      rw [Timer.act, Timer.nextPhase, phase]
      dsimp only
      rw [← phase]
      exact onTime.unchanged

/-- Whatever happens by an exact clock leaves the loop on time. -/
theorem OnTime.act (onTime : OnTime interval start durations log) (positive : 0 < interval)
    {act : Act τ} (permitted : log.timer.Permits act)
    (took : Took durations (log.note (log.timer.act act)).begun
      (log.note (log.timer.act act)).ended) :
    OnTime interval start durations (log.note (log.timer.act act)) := by
  have keeps := onTime.keeps
  cases act with
  | start slice =>
      have begun : log.timer.phase ≠ .idle := by
        intro idle
        rw [idle] at keeps
        cases keeps
      rw [Timer.act_start begun]
      exact onTime.unchanged
  | resume => exact onTime.resume positive
  | finish => exact onTime.finish took
  | fail => exact onTime.fail
  | elapse duration => exact onTime.elapse permitted
  | stop => exact onTime.still rfl rfl rfl keeps
  | cancel => exact onTime.still rfl rfl rfl keeps

end Exactness

end TreeWatch.Schedule
