import TreeWatch.Proofs.Channel.Ledger
import TreeWatch.Proofs.Channel.Wakening

/-!
Puts that take turns.

A put is called only when no put that was woken has yet to resume, and makes its first attempt at
once; puts that were woken resume in the order of their waking. Readers come and go as they like.
Each place that becomes free while puts wait is then kept for the put that was woken for it, so that
no put overtakes another and none that was woken has to wait again.
-/

namespace TreeWatch

universe u

namespace Exchange

variable {α : Type u}

def putsOf (callers : List (Caller α)) : List (Nat × α) :=
  callers.filterMap fun caller =>
    match caller.call with
    | .put item => some (caller.id, item)
    | _ => none

section Callers

variable {callers early late : List (Caller α)} {caller : Caller α} {item : α}

theorem writes_of_put (call : caller.call = .put item) : caller.writes = true := by
  simp only [Caller.writes, call]

theorem exists_put_of_writes (writes : caller.writes = true) : ∃ item, caller.call = .put item := by
  unfold Caller.writes at writes
  split at writes
  · exact ⟨_, ‹_›⟩
  · cases writes

theorem putsOf_append (callers more : List (Caller α)) :
    putsOf (callers ++ more) = putsOf callers ++ putsOf more :=
  List.filterMap_append

theorem putsOf_cons_of_put (call : caller.call = .put item) (callers : List (Caller α)) :
    putsOf (caller :: callers) = (caller.id, item) :: putsOf callers := by
  simp only [putsOf, List.filterMap_cons, call]

theorem putsOf_cons_of_reads (reads : caller.writes = false) (callers : List (Caller α)) :
    putsOf (caller :: callers) = putsOf callers := by
  unfold Caller.writes at reads
  cases call : caller.call with
  | put item => simp [call] at reads
  | get patience => simp only [putsOf, List.filterMap_cons, call]
  | iterate taken => simp only [putsOf, List.filterMap_cons, call]

theorem putsOf_of_reads (reads : ∀ caller ∈ callers, caller.writes = false) :
    putsOf callers = [] := by
  induction callers with
  | nil => rfl
  | cons caller callers inductionHypothesis =>
      rw [putsOf_cons_of_reads (reads caller List.mem_cons_self)]
      exact inductionHypothesis fun other member => reads other (List.mem_cons_of_mem _ member)

theorem putsOf_middle_of_reads (reads : caller.writes = false) (early late : List (Caller α)) :
    putsOf (early ++ caller :: late) = putsOf (early ++ late) := by
  rw [putsOf_append, putsOf_cons_of_reads reads, putsOf_append]

theorem putsOf_concat_of_reads (reads : caller.writes = false) (callers : List (Caller α)) :
    putsOf (callers ++ [caller]) = putsOf callers := by
  rw [putsOf_middle_of_reads reads, List.append_nil]

theorem putsOf_concat_of_put (call : caller.call = .put item) (callers : List (Caller α)) :
    putsOf (callers ++ [caller]) = putsOf callers ++ [(caller.id, item)] := by
  rw [putsOf_append, putsOf_cons_of_put call]
  rfl

theorem putsOf_middle_of_put (call : caller.call = .put item)
    (first : ∀ other ∈ early, other.writes = false) :
    putsOf (early ++ caller :: late) = (caller.id, item) :: putsOf (early ++ late) := by
  rw [putsOf_append, putsOf_cons_of_put call, putsOf_append, putsOf_of_reads first]
  rfl

theorem putsOf_head? (reads : ∀ caller ∈ callers, caller.writes = false) :
    putsOf callers.head?.toList = [] := by
  apply putsOf_of_reads
  intro caller member
  exact reads caller (List.mem_of_mem_head? (Option.mem_toList.mp member))

theorem putsOf_head?_append_tail (callers : List (Caller α)) :
    putsOf callers.head?.toList ++ putsOf callers.tail = putsOf callers := by
  rw [← putsOf_append]
  cases callers <;> rfl

theorem length_putsOf_head? (waiting : callers ≠ [])
    (writers : ∀ caller ∈ callers, caller.writes = true) :
    (putsOf callers.head?.toList).length = 1 := by
  cases callers with
  | nil => exact absurd rfl waiting
  | cons caller callers =>
      obtain ⟨item, call⟩ := exists_put_of_writes (writers caller List.mem_cons_self)
      exact congrArg List.length (putsOf_cons_of_put call [])

end Callers

theorem putsOf_exhausted (callers : List (Caller α)) :
    putsOf (callers.map Caller.exhausted) = [] := by
  apply putsOf_of_reads
  intro caller member
  obtain ⟨reader, _, rfl⟩ := List.mem_map.mp member
  rfl

/-- The puts without an answer, those that were woken before those that wait. -/
def pendingPuts (exchange : Exchange α) : List (Nat × α) :=
  putsOf exchange.ready ++ putsOf exchange.channel.writers

def Reply.answersPut : Reply α → Bool
  | .done => true
  | .refused .putToClosed => true
  | _ => false

def answeredPuts (exchange : Exchange α) : List Nat :=
  (exchange.replies.filter (·.2.answersPut)).map Prod.fst

section Attempt

variable {exchange : Exchange α} {caller : Caller α} {item : α}

theorem attempt_put_of_closed (call : caller.call = .put item)
    (closed : exchange.channel.closed = true) :
    exchange.attempt caller = exchange.finish caller.id (.refused .putToClosed) ∧
      exchange.addition caller = [] := by
  constructor
  · simp only [attempt, call, attemptPut, Channel.put_of_closed closed]
  · simp only [addition, call, Channel.put_of_closed closed]

theorem attempt_put_of_room (call : caller.call = .put item)
    (isOpen : exchange.channel.closed = false)
    (room : exchange.channel.items.length < exchange.channel.capacity) :
    exchange.attempt caller =
      ({ exchange with
          channel := { exchange.channel with
            items := exchange.channel.items ++ [item]
            readers := exchange.channel.readers.tail } }.wake
        exchange.channel.readers.head?.toList).finish caller.id .done ∧
      exchange.addition caller = [(caller.id, item)] := by
  constructor
  · simp only [attempt, call, attemptPut, Channel.put_of_room isOpen room]
  · simp only [addition, call, Channel.put_of_room isOpen room]

theorem attempt_put_of_full (call : caller.call = .put item)
    (isOpen : exchange.channel.closed = false)
    (full : exchange.channel.capacity ≤ exchange.channel.items.length) :
    exchange.attempt caller = { exchange with channel := exchange.channel.awaitRoom caller } ∧
      exchange.addition caller = [] := by
  constructor
  · simp only [attempt, call, attemptPut, Channel.put_of_full isOpen full]
  · simp only [addition, call, Channel.put_of_full isOpen full]

theorem addition_of_reads (reads : caller.writes = false) : exchange.addition caller = [] := by
  unfold Caller.writes at reads
  cases call : caller.call with
  | put item => simp [call] at reads
  | get patience => simp only [addition, call]
  | iterate taken => simp only [addition, call]

theorem Answers.answersPut_of_reads {channel : Channel (Caller α) α} {reply : Reply α}
    (answers : Answers channel caller.call reply) (reads : caller.writes = false) :
    reply.answersPut = false := by
  generalize call : caller.call = called at answers
  cases answers with
  | putToClosed => cases reads.symm.trans (writes_of_put call)
  | _ => rfl

theorem answeredPuts_of_reads (reads : caller.writes = false) :
    (exchange.attempt caller).answeredPuts = exchange.answeredPuts := by
  unfold answeredPuts
  cases exchange.attempted caller with
  | answered answers _ replies =>
      simp [replies, answers.answersPut_of_reads reads]
  | waits _ replies => rw [replies]
  | stores call => cases reads.symm.trans (writes_of_put call)
  | yields _ _ replies => simp [replies, Reply.answersPut]
  | collects _ _ replies => rw [replies]

theorem attempt_of_items (reads : caller.writes = false) {later : List α}
    (items : exchange.channel.items = item :: later) :
    (exchange.attempt caller).channel =
        { exchange.channel with items := later, writers := exchange.channel.writers.tail } ∧
      putsOf (exchange.attempt caller).ready =
        putsOf (exchange.ready ++ exchange.channel.writers.head?.toList) := by
  unfold Caller.writes at reads
  cases call : caller.call with
  | put item => simp [call] at reads
  | get patience =>
      simp only [attempt, call, attemptGet, Channel.take_of_cons items, wake, finish, and_self]
  | iterate taken =>
      simp only [attempt, call, attemptIterate, Channel.take_of_cons items, true_and]
      rw [putsOf_cons_of_reads (by simp only [Caller.writes])]

theorem answeredPuts_finish {reply : Reply α} (answersPut : reply.answersPut = true) (id : Nat) :
    (exchange.finish id reply).answeredPuts = exchange.answeredPuts ++ [id] := by
  simp [answeredPuts, finish, answersPut]

end Attempt

end Exchange

open Exchange

open scoped List

namespace Traffic

variable {α : Type u} {capacity : Int} {traffic later : Traffic α}

/-- Notes a call that makes its first attempt at once. -/
def call (traffic : Traffic α) (caller : Caller α) : Traffic α :=
  { traffic with issued := traffic.issued ++ [caller] }.attempt caller

/-- The steps of traffic in which puts take turns. -/
inductive Turn : Traffic α → Traffic α → Prop
  | put {traffic : Traffic α} {caller : Caller α} (writes : caller.writes = true)
      (fresh : caller.id ∉ traffic.issued.map Caller.id)
      (settled : ∀ other ∈ traffic.exchange.ready, other.writes = false) :
      Turn traffic (traffic.call caller)
  | read {traffic : Traffic α} {caller : Caller α} (opening : caller.call.Opening)
      (reads : caller.writes = false) (fresh : caller.id ∉ traffic.issued.map Caller.id) :
      Turn traffic { traffic with
        exchange := traffic.exchange.issue caller, issued := traffic.issued ++ [caller] }
  | attempt {traffic : Traffic α} {early late : List (Caller α)} {caller : Caller α}
      (due : traffic.exchange.ready = early ++ caller :: late)
      (first : caller.writes = true → ∀ other ∈ early, other.writes = false) :
      Turn traffic ({ traffic with
        exchange := { traffic.exchange with ready := early ++ late } }.attempt caller)
  | close {traffic : Traffic α} : Turn traffic { traffic with exchange := traffic.exchange.close }
  | expire {traffic : Traffic α} (id : Nat) :
      Turn traffic { traffic with exchange := traffic.exchange.expire id }
  | lapse {traffic : Traffic α} {early late : List (Caller α)} {caller : Caller α}
      (due : traffic.exchange.ready = early ++ caller :: late)
      (limited : caller.call = .get .limited) :
      Turn traffic { traffic with
        exchange := { traffic.exchange with ready := early ++ caller.exhausted :: late } }

abbrev Turns : Traffic α → Traffic α → Prop := Relation.ReflTransGen Turn

theorem leads_of_turn (turn : Turn traffic later) : Leads traffic later := by
  cases turn with
  | @put caller writes fresh =>
      obtain ⟨item, call⟩ := exists_put_of_writes writes
      refine .tail (.single (.issue (call ▸ .put item) fresh)) ?_
      have due : (traffic.exchange.issue caller).ready = traffic.exchange.ready ++ caller :: [] :=
        rfl
      have attempt := @Step.attempt _ { traffic with
        exchange := traffic.exchange.issue caller, issued := traffic.issued ++ [caller] }
        _ _ _ due
      rwa [List.append_nil] at attempt
  | read opening _ fresh => exact .single (.issue opening fresh)
  | attempt due => exact .single (.attempt due)
  | close => exact .single .close
  | expire id => exact .single (.expire id)
  | lapse due limited => exact .single (.lapse due limited)

theorem leads_of_turns (turns : Turns traffic later) : Leads traffic later := by
  induction turns with
  | refl => exact .refl
  | tail _ turn inductionHypothesis => exact inductionHypothesis.trans (leads_of_turn turn)

/-- Only puts wait for room, and no put waits for an item. -/
structure Sorted (exchange : Exchange α) : Prop where
  writers : ∀ caller ∈ exchange.channel.writers, caller.writes = true
  readers : ∀ caller ∈ exchange.channel.readers, caller.writes = false

theorem sorted_of_leads {first : Channel (Caller α) α} (made : Channel.new? capacity = some first)
    (leads : Leads (start first) traffic) : Sorted traffic.exchange := by
  obtain ⟨wakening, wakeningLeads, rfl⟩ := Wakening.exists_leads (Wakening.start first) leads
  obtain ⟨_, followed⟩ := Wakening.watched_of_leads wakeningLeads (Wakening.watched_start made)
  exact ⟨followed.waitingWriters, followed.waitingReaders⟩

/-- What holds while puts take turns. -/
structure InTurn (traffic : Traffic α) : Prop where
  answered : traffic.exchange.answeredPuts ++ traffic.exchange.pendingPuts.map Prod.fst =
    (putsOf traffic.issued).map Prod.fst
  stored : traffic.stored <+: putsOf traffic.issued
  /-- On an open channel no put was refused. -/
  unrefused : traffic.exchange.channel.closed = false →
    traffic.stored ++ traffic.exchange.pendingPuts = putsOf traffic.issued
  /-- There is a place for every put that was woken. -/
  room : traffic.exchange.channel.closed = false →
    traffic.exchange.channel.items.length + (putsOf traffic.exchange.ready).length ≤
      traffic.exchange.channel.capacity
  /-- There is no place for any other put while one waits. -/
  full : traffic.exchange.channel.writers ≠ [] → traffic.exchange.channel.capacity ≤
    traffic.exchange.channel.items.length + (putsOf traffic.exchange.ready).length
  closed : traffic.exchange.channel.closed = true → traffic.exchange.channel.writers = []

theorem inTurn_start {first : Channel (Caller α) α} (made : Channel.new? capacity = some first) :
    InTurn (start first) := by
  obtain ⟨positive, rfl⟩ := Channel.eq_of_new? made
  refine ⟨rfl, List.nil_prefix, fun _ => rfl, fun _ => Nat.zero_le _, ?_, fun _ => rfl⟩
  intro waiting
  exact absurd rfl waiting

theorem InTurn.moved (inTurn : InTurn traffic)
    (frame : traffic.exchange.channel.Frame later.exchange.channel)
    (items : later.exchange.channel.items = traffic.exchange.channel.items)
    (writers : later.exchange.channel.writers = traffic.exchange.channel.writers)
    (ready : putsOf later.exchange.ready = putsOf traffic.exchange.ready)
    (answers : later.exchange.answeredPuts = traffic.exchange.answeredPuts)
    (stored : later.stored = traffic.stored)
    (issued : putsOf later.issued = putsOf traffic.issued) :
    InTurn later := by
  have pending : later.exchange.pendingPuts = traffic.exchange.pendingPuts := by
    rw [pendingPuts, ready, writers, pendingPuts]
  constructor
  · rw [answers, pending, issued]
    exact inTurn.answered
  · rw [stored, issued]
    exact inTurn.stored
  · rw [frame.closed, stored, pending, issued]
    exact inTurn.unrefused
  · rw [frame.closed, frame.capacity, items, ready]
    exact inTurn.room
  · rw [frame.capacity, items, ready, writers]
    exact inTurn.full
  · rw [frame.closed, writers]
    exact inTurn.closed

/-- What holds of a put that no queue holds and whose turn it is. -/
structure Due (traffic : Traffic α) (caller : Caller α) (item : α) : Prop where
  answered : traffic.exchange.answeredPuts ++
    caller.id :: traffic.exchange.pendingPuts.map Prod.fst = (putsOf traffic.issued).map Prod.fst
  stored : traffic.stored <+: putsOf traffic.issued
  unrefused : traffic.exchange.channel.closed = false →
    traffic.stored ++ (caller.id, item) :: traffic.exchange.pendingPuts = putsOf traffic.issued
  room : traffic.exchange.channel.closed = false →
    traffic.exchange.channel.items.length + (putsOf traffic.exchange.ready).length <
      traffic.exchange.channel.capacity
  full : traffic.exchange.channel.writers ≠ [] → traffic.exchange.channel.capacity ≤
    traffic.exchange.channel.items.length + (putsOf traffic.exchange.ready).length + 1
  closed : traffic.exchange.channel.closed = true → traffic.exchange.channel.writers = []

section Put

variable {caller : Caller α} {item : α}

def verdict (channel : Channel (Caller α) α) : Reply α :=
  if channel.closed then .refused .putToClosed else .done

theorem Due.replies_attempt (due : Due traffic caller item) (call : caller.call = .put item) :
    (traffic.exchange.attempt caller).replies =
      traffic.exchange.replies ++ [(caller.id, verdict traffic.exchange.channel)] := by
  cases closed : traffic.exchange.channel.closed with
  | true =>
      rw [(attempt_put_of_closed call closed).1, verdict, closed]
      rfl
  | false =>
      have room := (Nat.le_add_right _ _).trans_lt (due.room closed)
      rw [(attempt_put_of_room call closed room).1, verdict, closed]
      rfl

theorem Due.refuse (due : Due traffic caller item) (call : caller.call = .put item)
    (closed : traffic.exchange.channel.closed = true) : InTurn (traffic.attempt caller) := by
  obtain ⟨attempt, addition⟩ := attempt_put_of_closed call closed
  unfold Traffic.attempt
  rw [attempt, addition, List.append_nil]
  have noWriter := due.closed closed
  refine ⟨?_, due.stored, fun isOpen => ?_, fun isOpen => ?_, fun waiting => ?_, due.closed⟩
  · dsimp only
    rw [answeredPuts_finish (by rfl), List.append_assoc]
    exact due.answered
  · cases isOpen.symm.trans closed
  · cases isOpen.symm.trans closed
  · exact absurd noWriter waiting

theorem Due.store (due : Due traffic caller item) (sorted : Sorted traffic.exchange)
    (call : caller.call = .put item) (isOpen : traffic.exchange.channel.closed = false) :
    InTurn (traffic.attempt caller) := by
  have room := (Nat.le_add_right _ _).trans_lt (due.room isOpen)
  obtain ⟨attempt, addition⟩ := attempt_put_of_room call isOpen room
  have ready : putsOf (traffic.exchange.attempt caller).ready = putsOf traffic.exchange.ready := by
    rw [attempt]
    change putsOf (traffic.exchange.ready ++ traffic.exchange.channel.readers.head?.toList) = _
    rw [putsOf_append, putsOf_head? sorted.readers, List.append_nil]
  have pending : (traffic.exchange.attempt caller).pendingPuts = traffic.exchange.pendingPuts := by
    rw [pendingPuts, ready, attempt]
    rfl
  have complete : (traffic.stored ++ [(caller.id, item)]) ++ traffic.exchange.pendingPuts =
      putsOf traffic.issued := by
    rw [List.append_assoc]
    exact due.unrefused isOpen
  have full := due.full
  have room := due.room isOpen
  constructor <;> unfold Traffic.attempt <;> dsimp only
  · rw [pending, attempt, answeredPuts_finish (by rfl), List.append_assoc]
    exact due.answered
  · rw [addition]
    exact ⟨_, complete⟩
  · rw [pending, addition]
    exact fun _ => complete
  · rw [ready, attempt]
    intro _
    simp only [finish, wake, List.length_append, List.length_singleton]
    omega
  · rw [ready, attempt]
    intro waiting
    have occupied := full waiting
    simp only [finish, wake, List.length_append, List.length_singleton]
    omega
  · rw [attempt]
    exact due.closed

theorem Due.attempt (due : Due traffic caller item) (sorted : Sorted traffic.exchange)
    (call : caller.call = .put item) : InTurn (traffic.attempt caller) := by
  cases closed : traffic.exchange.channel.closed with
  | true => exact due.refuse call closed
  | false => exact due.store sorted call closed

theorem InTurn.due (inTurn : InTurn traffic) {early late : List (Caller α)}
    (due : traffic.exchange.ready = early ++ caller :: late) (call : caller.call = .put item)
    (first : ∀ other ∈ early, other.writes = false) :
    Due { traffic with exchange := { traffic.exchange with ready := early ++ late } }
      caller item := by
  have ready : putsOf traffic.exchange.ready = (caller.id, item) :: putsOf (early ++ late) := by
    rw [due, putsOf_middle_of_put call first]
  obtain ⟨answered, stored, unrefused, room, full, closed⟩ := inTurn
  simp only [pendingPuts, ready, List.length_cons] at answered unrefused room full
  exact ⟨answered, stored, unrefused, room, full, closed⟩

theorem InTurn.due_of_new (inTurn : InTurn traffic) (call : caller.call = .put item)
    (settled : ∀ other ∈ traffic.exchange.ready, other.writes = false)
    (noWriter : traffic.exchange.channel.writers = [])
    (room : traffic.exchange.channel.closed = false →
      traffic.exchange.channel.items.length < traffic.exchange.channel.capacity) :
    Due { traffic with issued := traffic.issued ++ [caller] } caller item := by
  have nobody : putsOf traffic.exchange.ready = [] := putsOf_of_reads settled
  have pending : traffic.exchange.pendingPuts = [] := by
    rw [pendingPuts, nobody, noWriter]
    rfl
  have issued := putsOf_concat_of_put call traffic.issued
  obtain ⟨answered, stored, unrefused, _, full, closed⟩ := inTurn
  rw [pending, List.append_nil] at unrefused
  rw [pending, List.map_nil, List.append_nil] at answered
  constructor <;> dsimp only
  · rw [pending, issued, List.map_append, answered]
    rfl
  · rw [issued]
    exact stored.trans (List.prefix_append _ _)
  · intro isOpen
    rw [pending, issued, unrefused isOpen]
  · rw [nobody]
    exact room
  · intro waiting
    exact absurd noWriter waiting
  · exact closed

theorem InTurn.wait (inTurn : InTurn traffic) (call : caller.call = .put item)
    (isOpen : traffic.exchange.channel.closed = false)
    (full : traffic.exchange.channel.capacity ≤ traffic.exchange.channel.items.length) :
    InTurn (traffic.call caller) := by
  obtain ⟨attempt, addition⟩ := attempt_put_of_full call isOpen full
  have issued := putsOf_concat_of_put call traffic.issued
  have pending : (traffic.exchange.attempt caller).pendingPuts =
      traffic.exchange.pendingPuts ++ [(caller.id, item)] := by
    rw [attempt, pendingPuts, pendingPuts, List.append_assoc]
    congr 1
    exact putsOf_concat_of_put call traffic.exchange.channel.writers
  have unrefused : traffic.stored ++ (traffic.exchange.attempt caller).pendingPuts =
      putsOf (traffic.issued ++ [caller]) := by
    rw [pending, issued, ← List.append_assoc, inTurn.unrefused isOpen]
  constructor <;> unfold Traffic.call Traffic.attempt <;> dsimp only
  · rw [pending, issued, attempt, List.map_append, List.map_append, ← List.append_assoc]
    exact congrArg (· ++ _) inTurn.answered
  · rw [addition, List.append_nil]
    exact ⟨_, unrefused⟩
  · rw [addition, List.append_nil]
    exact fun _ => unrefused
  · rw [attempt]
    exact inTurn.room
  · rw [attempt]
    exact fun _ => full.trans (Nat.le_add_right _ _)
  · rw [attempt]
    intro closed
    cases isOpen.symm.trans closed

theorem InTurn.put (inTurn : InTurn traffic) (sorted : Sorted traffic.exchange)
    (call : caller.call = .put item)
    (settled : ∀ other ∈ traffic.exchange.ready, other.writes = false) :
    InTurn (traffic.call caller) := by
  cases closed : traffic.exchange.channel.closed with
  | true =>
      have due := inTurn.due_of_new call settled (inTurn.closed closed) fun isOpen => by
        cases isOpen.symm.trans closed
      exact due.attempt sorted call
  | false =>
      rcases Nat.lt_or_ge traffic.exchange.channel.items.length
        traffic.exchange.channel.capacity with room | full
      · have noWriter : traffic.exchange.channel.writers = [] := by
          by_contra waiting
          have full := inTurn.full waiting
          rw [putsOf_of_reads settled] at full
          exact absurd room (Nat.not_lt.mpr full)
        have due := inTurn.due_of_new call settled noWriter fun _ => room
        exact due.attempt sorted call
      · exact inTurn.wait call closed full

end Put

section Read

variable {caller : Caller α}

theorem stored_attempt (reads : caller.writes = false) :
    (traffic.attempt caller).stored = traffic.stored := by
  change traffic.stored ++ traffic.exchange.addition caller = traffic.stored
  rw [addition_of_reads reads, List.append_nil]

theorem InTurn.take (inTurn : InTurn traffic) (sorted : Sorted traffic.exchange)
    (reads : caller.writes = false) {item : α} {left : List α}
    (items : traffic.exchange.channel.items = item :: left) : InTurn (traffic.attempt caller) := by
  obtain ⟨channel, woken⟩ := attempt_of_items reads items
  have ready : putsOf (traffic.exchange.attempt caller).ready =
      putsOf traffic.exchange.ready ++ putsOf traffic.exchange.channel.writers.head?.toList := by
    rw [woken, putsOf_append]
  have pending : (traffic.exchange.attempt caller).pendingPuts = traffic.exchange.pendingPuts := by
    rw [pendingPuts, ready, channel, List.append_assoc, putsOf_head?_append_tail, pendingPuts]
  have same : traffic.exchange.channel.Frame (traffic.exchange.attempt caller).channel :=
    frame_attempt traffic.exchange caller
  obtain ⟨answered, stored, unrefused, room, full, closed⟩ := inTurn
  rw [items, List.length_cons] at room full
  have noAddition : traffic.exchange.addition caller = [] := addition_of_reads reads
  constructor <;> unfold Traffic.attempt <;> dsimp only
  · rw [answeredPuts_of_reads reads, pending]
    exact answered
  · rw [noAddition, List.append_nil]
    exact stored
  · rw [same.closed, pending, noAddition, List.append_nil]
    exact unrefused
  · rw [same.closed, same.capacity, ready, channel, List.length_append]
    intro isOpen
    have enough := room isOpen
    have one : (putsOf traffic.exchange.channel.writers.head?.toList).length ≤ 1 :=
      (List.length_filterMap_le ..).trans (length_head?_le _)
    dsimp only
    omega
  · rw [same.capacity, ready, channel, List.length_append]
    intro waiting
    have before : traffic.exchange.channel.writers ≠ [] := by
      intro nobody
      exact waiting (by rw [nobody, List.tail_nil])
    have occupied := full before
    rw [length_putsOf_head? before sorted.writers]
    dsimp only
    omega
  · rw [same.closed, channel]
    intro isClosed
    rw [closed isClosed, List.tail_nil]

theorem InTurn.read (inTurn : InTurn traffic) (sorted : Sorted traffic.exchange)
    (reads : caller.writes = false) : InTurn (traffic.attempt caller) := by
  have same : traffic.exchange.channel.Frame (traffic.exchange.attempt caller).channel :=
    frame_attempt traffic.exchange caller
  have answers : (traffic.exchange.attempt caller).answeredPuts = traffic.exchange.answeredPuts :=
    answeredPuts_of_reads reads
  have stored : (traffic.attempt caller).stored = traffic.stored := stored_attempt reads
  cases traffic.exchange.queued caller with
  | refused writes => cases reads.symm.trans writes
  | awaitsRoom writes => cases reads.symm.trans writes
  | stores writes => cases reads.symm.trans writes
  | answered _ _ channel ready =>
      exact inTurn.moved same (congrArg Channel.items channel) (congrArg Channel.writers channel)
        (congrArg putsOf ready) answers stored rfl
  | awaitsItem _ _ _ channel ready =>
      exact inTurn.moved same (congrArg Channel.items channel :)
        (congrArg Channel.writers channel :) (congrArg putsOf ready) answers stored rfl
  | takes _ items => exact inTurn.take sorted reads items

end Read

theorem InTurn.close (inTurn : InTurn traffic) (sorted : Sorted traffic.exchange) :
    InTurn { traffic with exchange := traffic.exchange.close } := by
  have ready : putsOf traffic.exchange.close.ready = traffic.exchange.pendingPuts := by
    change putsOf (traffic.exchange.ready ++
      (traffic.exchange.channel.readers ++ traffic.exchange.channel.writers)) = _
    rw [putsOf_append, putsOf_append, putsOf_of_reads sorted.readers, List.nil_append, pendingPuts]
  have pending : traffic.exchange.close.pendingPuts = traffic.exchange.pendingPuts := by
    rw [pendingPuts, ready]
    exact List.append_nil _
  constructor <;> dsimp only
  · rw [pending]
    exact inTurn.answered
  · exact inTurn.stored
  · intro isOpen
    cases isOpen
  · intro isOpen
    cases isOpen
  · intro waiting
    exact absurd rfl waiting
  · exact fun _ => rfl

theorem InTurn.turn (inTurn : InTurn traffic) (sorted : Sorted traffic.exchange)
    (turn : Turn traffic later) : InTurn later := by
  cases turn with
  | put writes _ settled =>
      obtain ⟨item, call⟩ := exists_put_of_writes writes
      exact inTurn.put sorted call settled
  | @read caller _ reads =>
      have ready := putsOf_concat_of_reads reads traffic.exchange.ready
      have issued := putsOf_concat_of_reads reads traffic.issued
      exact inTurn.moved ⟨rfl, rfl⟩ rfl rfl ready rfl rfl issued
  | @attempt early late caller due first =>
      cases writes : caller.writes with
      | true =>
          obtain ⟨item, call⟩ := exists_put_of_writes writes
          have due := inTurn.due due call (first writes)
          exact due.attempt ⟨sorted.writers, sorted.readers⟩ call
      | false =>
          have ready : putsOf (early ++ late) = putsOf traffic.exchange.ready := by
            rw [due, putsOf_middle_of_reads writes]
          have held : InTurn { traffic with
              exchange := { traffic.exchange with ready := early ++ late } } :=
            inTurn.moved ⟨rfl, rfl⟩ rfl rfl ready rfl rfl rfl
          exact held.read ⟨sorted.writers, sorted.readers⟩ writes
  | close => exact inTurn.close sorted
  | expire id =>
      have ready : putsOf (traffic.exchange.expire id).ready = putsOf traffic.exchange.ready := by
        change putsOf (traffic.exchange.ready ++
          (traffic.exchange.channel.readers.filter (isLimited id)).map Caller.exhausted) = _
        rw [putsOf_append, putsOf_exhausted, List.append_nil]
      exact inTurn.moved ⟨rfl, rfl⟩ rfl rfl ready rfl rfl rfl
  | @lapse early late caller due limited =>
      have reads : caller.writes = false := by simp only [Caller.writes, limited]
      have ready : putsOf (early ++ caller.exhausted :: late) = putsOf traffic.exchange.ready := by
        rw [due, putsOf_middle_of_reads reads, putsOf_middle_of_reads]
        rfl
      exact inTurn.moved ⟨rfl, rfl⟩ rfl rfl ready rfl rfl rfl

theorem inTurn_of_turns {first : Channel (Caller α) α} (made : Channel.new? capacity = some first)
    (turns : Turns (start first) traffic) : InTurn traffic := by
  induction turns with
  | refl => exact inTurn_start made
  | tail turns turn inductionHypothesis =>
      exact inductionHypothesis.turn (sorted_of_leads made (leads_of_turns turns)) turn

section Serving

theorem exists_turns_settle (traffic : Traffic α) :
    ∃ settled, Turns traffic settled ∧ settled.exchange = traffic.exchange.settle := by
  obtain ⟨exchange, issued, stored, removed⟩ := traffic
  induction exchange using settle.induct generalizing stored removed with
  | case1 exchange due => exact ⟨_, .refl, (settle_of_idle due).symm⟩
  | case2 exchange caller later due inductionHypothesis =>
      let traffic : Traffic α := ⟨{ exchange with ready := later }, issued, stored, removed⟩
      obtain ⟨settled, turns, ends⟩ :=
        inductionHypothesis (traffic.attempt caller).stored (traffic.attempt caller).removed
      refine ⟨settled, .head ?_ turns, ends.trans (settle_of_due due).symm⟩
      apply @Turn.attempt _ ⟨exchange, issued, stored, removed⟩ [] later caller due
      intro _ other member
      cases member

theorem exists_turns_of_turn (turn : Turn traffic later) :
    ∃ settled, Turns traffic settled ∧ settled.exchange = later.exchange.settle := by
  obtain ⟨settled, turns, ends⟩ := exists_turns_settle later
  exact ⟨settled, .head turn turns, ends⟩

theorem exists_turns_issue {caller : Caller α} (opening : caller.call.Opening)
    (fresh : caller.id ∉ traffic.issued.map Caller.id) (idle : traffic.exchange.ready = []) :
    ∃ settled, Turns traffic settled ∧
      settled.exchange = (traffic.exchange.issue caller).settle := by
  cases writes : caller.writes with
  | true =>
      have settled : ∀ other ∈ traffic.exchange.ready, other.writes = false := by
        intro other member
        cases idle ▸ member
      have due : (traffic.exchange.issue caller).ready = [caller] := by
        rw [issue, wake, idle]
        rfl
      have same : { traffic.exchange.issue caller with ready := [] } = traffic.exchange := by
        rw [← idle]
        rfl
      rw [settle_of_due due, same]
      exact exists_turns_of_turn (.put writes fresh settled)
  | false => exact exists_turns_of_turn (.read opening writes fresh)

end Serving

theorem map_fst_putsOf_sublist (callers : List (Caller α)) :
    (putsOf callers).map Prod.fst <+ callers.map Caller.id := by
  induction callers with
  | nil => exact .slnil
  | cons caller callers inductionHypothesis =>
      cases writes : caller.writes with
      | true =>
          obtain ⟨item, call⟩ := exists_put_of_writes writes
          rw [putsOf_cons_of_put call]
          exact inductionHypothesis.cons_cons _
      | false =>
          rw [putsOf_cons_of_reads writes]
          exact inductionHypothesis.cons _

theorem sublist_of_forall_mem {β : Type u} {some front whole : List β} (distinct : whole.Nodup)
    (isFront : front <+: whole) (sublist : some <+ whole)
    (inFront : ∀ entry ∈ some, entry ∈ front) :
    some <+ front := by
  obtain ⟨back, rfl⟩ := isFront
  obtain ⟨early, late, rfl, earlyFront, lateBack⟩ := List.sublist_append_iff.mp sublist
  have apart : late = [] := by
    apply List.eq_nil_iff_forall_not_mem.mpr
    intro entry member
    exact List.disjoint_of_nodup_append distinct
      (inFront entry (List.mem_append_right _ member)) (lateBack.subset member)
  rwa [apart, List.append_nil]

theorem mem_stored_of_done (accounted : Accounted traffic) {id : Nat} {item : α}
    (issued : ⟨id, .put item⟩ ∈ traffic.issued) (done : (id, .done) ∈ traffic.exchange.replies) :
    (id, item) ∈ traffic.stored := by
  obtain ⟨⟨_, item'⟩, member, rfl⟩ := List.mem_map.mp ((mem_done_iff accounted).mp done)
  have same := List.inj_on_of_nodup_map accounted.distinct (accounted.credited _ member) issued rfl
  cases same
  exact member

/-- Puts that take turns are answered in the order in which they were called. Those that returned
stored their items in this order, they are the first of all, and what was taken and what is left
are their items. A put that was woken is answered at its next attempt. Serving calls one after
another, and settling the channel after each, takes turns only. -/
theorem puts_in_turn {capacity : Int} {first : Channel (Caller α) α}
    (made : Channel.new? capacity = some first) :
    (∀ traffic : Traffic α, traffic.exchange.ready = [] →
      (∀ caller : Caller α, caller.call.Opening → caller.id ∉ traffic.issued.map Caller.id →
        ∃ later, Turns traffic later ∧
          later.exchange = (traffic.exchange.issue caller).settle) ∧
      (∃ later, Turns traffic later ∧ later.exchange = traffic.exchange.close.settle) ∧
      ∀ id, ∃ later, Turns traffic later ∧
        later.exchange = (traffic.exchange.expire id).settle) ∧
    ∀ traffic, Turns (start first) traffic →
      let exchange := traffic.exchange
      traffic.removed.map Prod.snd ++ exchange.channel.items = traffic.stored.map Prod.snd ∧
      traffic.stored <+: putsOf traffic.issued ∧
      (exchange.replies.filter (·.2.isDone)).map Prod.fst = traffic.stored.map Prod.fst ∧
      (∀ id item id' item', [⟨id, .put item⟩, ⟨id', .put item'⟩] <+ traffic.issued →
        (id, .done) ∈ exchange.replies → (id', .done) ∈ exchange.replies →
        [(id, item), (id', item')] <+ traffic.stored) ∧
      exchange.answeredPuts ++ exchange.pendingPuts.map Prod.fst =
        (putsOf traffic.issued).map Prod.fst ∧
      ∀ early caller late, exchange.ready = early ++ caller :: late → caller.writes = true →
        (∀ other ∈ early, other.writes = false) →
        ({ exchange with ready := early ++ late }.attempt caller).replies =
          exchange.replies ++ [(caller.id, verdict exchange.channel)] := by
  constructor
  · intro traffic idle
    refine ⟨fun caller opening fresh => exists_turns_issue opening fresh idle, ?_, fun id => ?_⟩
    · exact exists_turns_of_turn .close
    · exact exists_turns_of_turn (.expire id)
  · intro traffic turns exchange
    have inTurn := inTurn_of_turns made turns
    have accounted := accounted_of_leads (leads_of_turns turns) (accounted_start made)
    have distinct : (putsOf traffic.issued).Nodup :=
      .of_map _ (accounted.distinct.sublist (map_fst_putsOf_sublist _))
    refine ⟨accounted.balanced, inTurn.stored, accounted.done, ?_, inTurn.answered, ?_⟩
    · intro id item id' item' issued done done'
      have both : putsOf [⟨id, .put item⟩, ⟨id', .put item'⟩] <+ putsOf traffic.issued :=
        issued.filterMap _
      rw [putsOf_cons_of_put rfl, putsOf_cons_of_put rfl] at both
      apply sublist_of_forall_mem distinct inTurn.stored both
      intro entry member
      rcases List.mem_pair.mp member with rfl | rfl
      · exact mem_stored_of_done accounted (issued.subset (by simp)) done
      · exact mem_stored_of_done accounted (issued.subset (by simp)) done'
    · intro early caller late due writes firstPut
      obtain ⟨item, call⟩ := exists_put_of_writes writes
      exact (inTurn.due due call firstPut).replies_attempt call

/-- After an iteration that freed two places at once and woke the puts that waited for them. -/
def freed : Traffic Nat where
  exchange := ⟨⟨2, Nat.two_pos, [], false, [], [⟨4, .iterate [7, 8]⟩]⟩,
    [⟨2, .put 9⟩, ⟨3, .put 10⟩], [(0, .done), (1, .done)]⟩
  issued := [⟨0, .put 7⟩, ⟨1, .put 8⟩, ⟨2, .put 9⟩, ⟨3, .put 10⟩, ⟨4, .iterate []⟩]
  stored := [(0, 7), (1, 8)]
  removed := [(4, 7), (4, 8)]

/-- After both puts have resumed. -/
def refilled : Traffic Nat where
  exchange := ⟨⟨2, Nat.two_pos, [9, 10], false, [], []⟩,
    [⟨4, .iterate [7, 8]⟩], [(0, .done), (1, .done), (2, .done), (3, .done)]⟩
  issued := freed.issued
  stored := [(0, 7), (1, 8), (2, 9), (3, 10)]
  removed := [(4, 7), (4, 8)]

theorem puts_in_turn_refilled :
    ∃ first : Channel (Caller Nat) Nat, Channel.new? 2 = some first ∧
      Turns (start first) freed ∧ Turns freed refilled ∧
      ({ freed.exchange with ready := [⟨3, .put 10⟩] }.attempt ⟨2, .put 9⟩).replies =
        freed.exchange.replies ++ [(2, .done)] ∧
      [(2, 9), (3, 10)] <+ refilled.stored := by
  let first : Channel (Caller Nat) Nat := ⟨2, Nat.two_pos, [], false, [], []⟩
  have made : Channel.new? 2 = some first := rfl
  have nobody : ∀ other ∈ ([] : List (Caller Nat)), other.writes = false := by simp
  let crowded : Traffic Nat :=
    ⟨⟨⟨2, Nat.two_pos, [7, 8], false, [⟨2, .put 9⟩, ⟨3, .put 10⟩], []⟩, [],
        [(0, .done), (1, .done)]⟩,
      [⟨0, .put 7⟩, ⟨1, .put 8⟩, ⟨2, .put 9⟩, ⟨3, .put 10⟩], [(0, 7), (1, 8)], []⟩
  have crowds : Turns (start first) crowded := Relation.ReflTransGen.refl
    |>.tail (@Turn.put _ _ ⟨0, .put 7⟩ rfl (by decide) nobody)
    |>.tail (@Turn.put _ _ ⟨1, .put 8⟩ rfl (by decide) nobody)
    |>.tail (@Turn.put _ _ ⟨2, .put 9⟩ rfl (by decide) nobody)
    |>.tail (@Turn.put _ _ ⟨3, .put 10⟩ rfl (by decide) nobody)
  have frees : Turns crowded freed := Relation.ReflTransGen.refl
    |>.tail (@Turn.read _ _ ⟨4, .iterate []⟩ .iterate rfl (by decide))
    |>.tail (@Turn.attempt _ _ [] [] ⟨4, .iterate []⟩ rfl fun _ => nobody)
    |>.tail (@Turn.attempt _ _ [] [⟨2, .put 9⟩] ⟨4, .iterate [7]⟩ rfl fun _ => nobody)
    |>.tail (@Turn.attempt _ _ [] [⟨2, .put 9⟩, ⟨3, .put 10⟩] ⟨4, .iterate [7, 8]⟩ rfl
      fun _ => nobody)
  have wakes := crowds.trans frees
  have resumes : Turns freed refilled := Relation.ReflTransGen.refl
    |>.tail (@Turn.attempt _ _ [] [⟨3, .put 10⟩] ⟨2, .put 9⟩ rfl fun _ => nobody)
    |>.tail (@Turn.attempt _ _ [] [⟨4, .iterate [7, 8]⟩] ⟨3, .put 10⟩ rfl fun _ => nobody)
  obtain ⟨-, -, -, -, -, answered⟩ := (puts_in_turn made).2 _ wakes
  obtain ⟨-, -, -, ordered, -, -⟩ := (puts_in_turn made).2 _ (wakes.trans resumes)
  refine ⟨first, made, wakes, resumes, ?_, ?_⟩
  · exact answered [] ⟨2, .put 9⟩ [⟨3, .put 10⟩] rfl rfl nobody
  · apply ordered 2 9 3 10
    · exact .cons _ (.cons _ (.cons_cons _ (.cons_cons _ (List.nil_sublist _))))
    · simp [refilled]
    · simp [refilled]

end Traffic

end TreeWatch
