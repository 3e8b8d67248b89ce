import TreeWatch.Proofs.Channel.Ledger

/-!
No wake-up is lost.

Storing an item wakes one reader and taking one wakes one writer, so callers may wait only as long
as enough others have been woken and are still to resume: the writers among these make up for the
free places of the buffer, the readers for the items in it. A call that slips in before them uses
up a place or an item, and a woken call that finds none left goes back to waiting; both keep the
balance. Calls that are new and calls whose time is over do not count as woken.
-/

namespace TreeWatch

universe u

namespace Exchange

variable {α : Type u}

def Caller.writes (caller : Caller α) : Bool :=
  match caller.call with
  | .put _ => true
  | _ => false

def numbersOf (writes : Bool) (callers : List (Caller α)) : Multiset Nat :=
  ((callers.filter (·.writes = writes)).map Caller.id : List Nat)

/-- The numbers of the callers that the caller's attempt wakes: readers if it stores an item,
writers if it takes one. -/
def awakened (exchange : Exchange α) (caller : Caller α) : Multiset Nat :=
  match caller.call with
  | .put item =>
      match exchange.channel.put item with
      | .stored _ woken => (woken.toList.map Caller.id : List Nat)
      | _ => 0
  | _ =>
      match exchange.channel.take with
      | .taken _ _ woken => (woken.toList.map Caller.id : List Nat)
      | _ => 0

theorem awakened_of_put (exchange : Exchange α) {caller : Caller α} {item : α}
    (call : caller.call = .put item) :
    exchange.awakened caller = match exchange.channel.put item with
      | .stored _ woken => (woken.toList.map Caller.id : List Nat)
      | _ => 0 := by
  simp only [awakened, call]

theorem awakened_of_reads (exchange : Exchange α) {caller : Caller α}
    (reads : caller.writes = false) :
    exchange.awakened caller = match exchange.channel.take with
      | .taken _ _ woken => (woken.toList.map Caller.id : List Nat)
      | _ => 0 := by
  unfold Caller.writes at reads
  cases call : caller.call with
  | put item => simp [call] at reads
  | get patience => simp only [awakened, call]
  | iterate taken => simp only [awakened, call]

/-- All that an attempt can do to the queues. -/
inductive Queued (before : Exchange α) (caller : Caller α) (after : Exchange α) : Prop
  | refused (writes : caller.writes = true) (closed : before.channel.closed = true)
      (channel : after.channel = before.channel) (ready : after.ready = before.ready)
      (awakened : before.awakened caller = 0)
  | awaitsRoom (writes : caller.writes = true) (isOpen : before.channel.closed = false)
      (full : before.channel.capacity ≤ before.channel.items.length)
      (channel : after.channel = before.channel.awaitRoom caller)
      (ready : after.ready = before.ready) (awakened : before.awakened caller = 0)
  | stores {item : α} (writes : caller.writes = true)
      (channel : after.channel = { before.channel with
        items := before.channel.items ++ [item], readers := before.channel.readers.tail })
      (ready : after.ready = before.ready ++ before.channel.readers.head?.toList)
      (awakened : before.awakened caller =
        (before.channel.readers.head?.toList.map Caller.id : List Nat))
  | answered (reads : caller.writes = false) (empty : before.channel.items = [])
      (channel : after.channel = before.channel) (ready : after.ready = before.ready)
      (awakened : before.awakened caller = 0)
  | awaitsItem (reads : caller.writes = false) (isOpen : before.channel.closed = false)
      (empty : before.channel.items = [])
      (channel : after.channel = before.channel.awaitItem caller)
      (ready : after.ready = before.ready) (awakened : before.awakened caller = 0)
  | takes {again : List (Caller α)} {item : α} {later : List α} (reads : caller.writes = false)
      (items : before.channel.items = item :: later)
      (channel : after.channel = { before.channel with
        items := later, writers := before.channel.writers.tail })
      (ready : after.ready = again ++ (before.ready ++ before.channel.writers.head?.toList))
      (awakened : before.awakened caller =
        (before.channel.writers.head?.toList.map Caller.id : List Nat))

theorem queued_put (exchange : Exchange α) {caller : Caller α} {item : α}
    (call : caller.call = .put item) :
    Queued exchange caller (exchange.attemptPut caller item) := by
  have writes : caller.writes = true := by simp only [Caller.writes, call]
  have awakened := awakened_of_put exchange call
  unfold attemptPut
  cases closed : exchange.channel.closed with
  | true =>
      rw [Channel.put_of_closed closed item] at awakened ⊢
      exact .refused writes closed rfl rfl awakened
  | false =>
      rcases Nat.lt_or_ge exchange.channel.items.length exchange.channel.capacity with room | full
      · rw [Channel.put_of_room closed room item] at awakened ⊢
        exact .stores writes rfl rfl awakened
      · rw [Channel.put_of_full closed full item] at awakened ⊢
        exact .awaitsRoom writes closed full rfl rfl awakened

theorem queued_get (exchange : Exchange α) {caller : Caller α} {patience : Patience}
    (call : caller.call = .get patience) :
    Queued exchange caller (exchange.attemptGet caller patience) := by
  have reads : caller.writes = false := by simp only [Caller.writes, call]
  have awakened := awakened_of_reads exchange reads
  unfold attemptGet
  cases items : exchange.channel.items with
  | nil =>
      cases closed : exchange.channel.closed with
      | true =>
          rw [Channel.take_of_drained closed items] at awakened ⊢
          exact .answered reads items rfl rfl awakened
      | false =>
          rw [Channel.take_of_empty closed items] at awakened ⊢
          dsimp only
          split
          · exact .answered reads items rfl rfl awakened
          · exact .awaitsItem reads closed items rfl rfl awakened
  | cons item later =>
      rw [Channel.take_of_cons items] at awakened ⊢
      exact @Queued.takes _ _ _ _ [] _ _ reads items rfl rfl awakened

theorem queued_iterate (exchange : Exchange α) {caller : Caller α} {taken : List α}
    (call : caller.call = .iterate taken) :
    Queued exchange caller (exchange.attemptIterate caller taken) := by
  have reads : caller.writes = false := by simp only [Caller.writes, call]
  have awakened := awakened_of_reads exchange reads
  unfold attemptIterate
  cases items : exchange.channel.items with
  | nil =>
      cases closed : exchange.channel.closed with
      | true =>
          rw [Channel.take_of_drained closed items] at awakened ⊢
          exact .answered reads items rfl rfl awakened
      | false =>
          rw [Channel.take_of_empty closed items] at awakened ⊢
          exact .awaitsItem reads closed items rfl rfl awakened
  | cons item later =>
      rw [Channel.take_of_cons items] at awakened ⊢
      exact @Queued.takes _ _ _ _ [_] _ _ reads items rfl rfl awakened

theorem queued (exchange : Exchange α) (caller : Caller α) :
    Queued exchange caller (exchange.attempt caller) := by
  unfold attempt
  cases call : caller.call with
  | put item => exact queued_put exchange call
  | get patience => exact queued_get exchange call
  | iterate taken => exact queued_iterate exchange call

theorem numbersOf_append (writes : Bool) (callers more : List (Caller α)) :
    numbersOf writes (callers ++ more) = numbersOf writes callers + numbersOf writes more := by
  unfold numbersOf
  rw [List.filter_append, List.map_append, Multiset.coe_add]

theorem numbersOf_eq {writes : Bool} {callers : List (Caller α)}
    (same : ∀ caller ∈ callers, caller.writes = writes) :
    numbersOf writes callers = (callers.map Caller.id : List Nat) := by
  unfold numbersOf
  rw [List.filter_eq_self.mpr]
  intro caller member
  exact decide_eq_true (same caller member)

theorem numbersOf_of_middle (early late : List (Caller α)) (caller : Caller α) :
    numbersOf caller.writes (early ++ caller :: late) =
      caller.id ::ₘ numbersOf caller.writes (early ++ late) := by
  rw [numbersOf_append, numbersOf_append, ← Multiset.add_cons]
  congr 1
  unfold numbersOf
  rw [List.filter_cons_of_pos (by simp)]
  rfl

theorem numbersOf_of_middle_of_ne {writes : Bool} {early late : List (Caller α)}
    {caller : Caller α} (different : caller.writes ≠ writes) :
    numbersOf writes (early ++ caller :: late) = numbersOf writes (early ++ late) := by
  rw [numbersOf_append, numbersOf_append]
  congr 1
  unfold numbersOf
  rw [List.filter_cons_of_neg (by simpa using different)]

theorem numbersOf_head? {writes : Bool} {callers : List (Caller α)}
    (same : ∀ caller ∈ callers, caller.writes = writes) :
    numbersOf writes callers.head?.toList =
      (callers.head?.toList.map Caller.id : List Nat) := by
  apply numbersOf_eq
  intro caller member
  exact same caller (List.mem_of_mem_head? (Option.mem_toList.mp member))

end Exchange

open Exchange

/-- Traffic on a channel, with the numbers of the calls that were woken and have yet to resume. -/
structure Wakening (α : Type u) where
  traffic : Traffic α
  writers : Multiset Nat
  readers : Multiset Nat

namespace Wakening

variable {α : Type u} {capacity : Int} {wakening later : Wakening α}

def start (channel : Channel (Caller α) α) : Wakening α := ⟨Traffic.start channel, 0, 0⟩

/-- Gives the traffic other calls in flight and leaves it to them who is woken. -/
def move (wakening : Wakening α) (exchange : Exchange α) : Wakening α :=
  { wakening with traffic := { wakening.traffic with exchange } }

def attempt (wakening : Wakening α) (caller : Caller α) : Wakening α where
  traffic := wakening.traffic.attempt caller
  writers :=
    if caller.writes then wakening.writers.erase caller.id
    else wakening.writers + wakening.traffic.exchange.awakened caller
  readers :=
    if caller.writes then wakening.readers + wakening.traffic.exchange.awakened caller
    else wakening.readers.erase caller.id

def close (wakening : Wakening α) : Wakening α where
  traffic := { wakening.traffic with exchange := wakening.traffic.exchange.close }
  writers := wakening.writers +
    (wakening.traffic.exchange.channel.writers.map Caller.id : List Nat)
  readers := wakening.readers +
    (wakening.traffic.exchange.channel.readers.map Caller.id : List Nat)

/-- The steps of traffic. Only attempts of other calls and the closing wake a call. -/
inductive Step : Wakening α → Wakening α → Prop
  | issue {wakening : Wakening α} {caller : Caller α} (opening : caller.call.Opening)
      (fresh : caller.id ∉ wakening.traffic.issued.map Caller.id) :
      Step wakening { wakening with
        traffic := { wakening.traffic with
          exchange := wakening.traffic.exchange.issue caller
          issued := wakening.traffic.issued ++ [caller] } }
  | attempt {wakening : Wakening α} {early late : List (Caller α)} {caller : Caller α}
      (due : wakening.traffic.exchange.ready = early ++ caller :: late) :
      Step wakening
        ((wakening.move { wakening.traffic.exchange with ready := early ++ late }).attempt caller)
  | close {wakening : Wakening α} : Step wakening wakening.close
  | expire {wakening : Wakening α} (id : Nat) :
      Step wakening (wakening.move (wakening.traffic.exchange.expire id))
  | lapse {wakening : Wakening α} {early late : List (Caller α)} {caller : Caller α}
      (due : wakening.traffic.exchange.ready = early ++ caller :: late)
      (limited : caller.call = .get .limited) :
      Step wakening (wakening.move
        { wakening.traffic.exchange with ready := early ++ caller.exhausted :: late })

abbrev Leads : Wakening α → Wakening α → Prop := Relation.ReflTransGen Step

theorem traffic_step (step : Step wakening later) :
    Traffic.Step wakening.traffic later.traffic := by
  cases step with
  | issue opening fresh => exact .issue opening fresh
  | attempt due => exact .attempt due
  | close => exact .close
  | expire id => exact .expire id
  | lapse due limited => exact .lapse due limited

theorem traffic_leads (leads : Leads wakening later) :
    Traffic.Leads wakening.traffic later.traffic := by
  induction leads with
  | refl => exact .refl
  | tail _ step inductionHypothesis => exact inductionHypothesis.tail (traffic_step step)

theorem exists_leads (wakening : Wakening α) {traffic : Traffic α}
    (leads : Traffic.Leads wakening.traffic traffic) :
    ∃ later, Leads wakening later ∧ later.traffic = traffic := by
  induction leads with
  | refl => exact ⟨wakening, .refl, rfl⟩
  | tail _ step inductionHypothesis =>
      obtain ⟨reached, leads, rfl⟩ := inductionHypothesis
      cases step with
      | issue opening fresh => exact ⟨_, leads.tail (.issue opening fresh), rfl⟩
      | attempt due => exact ⟨_, leads.tail (.attempt due), rfl⟩
      | close => exact ⟨_, leads.tail .close, rfl⟩
      | expire id => exact ⟨_, leads.tail (.expire id), rfl⟩
      | lapse due limited => exact ⟨_, leads.tail (.lapse due limited), rfl⟩

/-- The balance of a channel, from the numbers of the writers and of the readers that were woken. -/
structure Balanced (channel : Channel (Caller α) α) (writers readers : Nat) : Prop where
  writers : channel.writers = [] ∨ channel.capacity ≤ channel.items.length + writers
  readers : channel.readers = [] ∨ channel.items.length ≤ readers
  closed : channel.closed = true → channel.writers = [] ∧ channel.readers = []

theorem Balanced.mono {channel : Channel (Caller α) α}
    {writers readers moreWriters moreReaders : Nat}
    (balanced : Balanced channel writers readers) (writersLe : writers ≤ moreWriters)
    (readersLe : readers ≤ moreReaders) : Balanced channel moreWriters moreReaders where
  writers := balanced.writers.imp_right fun enough => by omega
  readers := balanced.readers.imp_right fun enough => by omega
  closed := balanced.closed

theorem card_head? {callers : List (Caller α)} (waiting : callers ≠ []) :
    ((callers.head?.toList.map Caller.id : List Nat) : Multiset Nat).card = 1 := by
  cases callers with
  | nil => exact absurd rfl waiting
  | cons caller callers => rfl

/-- An attempt of a writer keeps the balance, even if it uses up a place that another writer was
woken for. -/
theorem Balanced.attempt_writer {before after : Exchange α} {caller : Caller α}
    {writers readers : Nat} (balanced : Balanced before.channel writers readers)
    (queued : Queued before caller after) (writes : caller.writes = true) :
    Balanced after.channel (writers - 1) (readers + (before.awakened caller).card) := by
  cases queued with
  | refused _ closed channel _ awakened =>
      obtain ⟨noWriter, noReader⟩ := balanced.closed closed
      rw [channel]
      exact ⟨.inl noWriter, .inl noReader, balanced.closed⟩
  | awaitsRoom _ isOpen full channel _ awakened =>
      rw [channel, awakened]
      refine ⟨.inr ?_, balanced.readers, fun closed => ?_⟩
      · exact full.trans (Nat.le_add_right _ _)
      · cases isOpen.symm.trans closed
  | stores _ channel _ awakened =>
      rw [channel, awakened]
      refine ⟨?_, ?_, fun closed => ?_⟩
      · apply balanced.writers.imp_right
        intro enough
        dsimp only
        rw [List.length_append, List.length_singleton]
        omega
      · by_cases waiting : before.channel.readers = []
        · exact .inl (by rw [waiting, List.tail_nil])
        · right
          rw [List.length_append, List.length_singleton, card_head? waiting]
          exact Nat.succ_le_succ (balanced.readers.resolve_left waiting)
      · obtain ⟨noWriter, noReader⟩ := balanced.closed closed
        exact ⟨noWriter, by rw [noReader, List.tail_nil]⟩
  | answered reads => cases writes.symm.trans reads
  | awaitsItem reads => cases writes.symm.trans reads
  | takes reads => cases writes.symm.trans reads

/-- An attempt of a reader keeps the balance, even if it takes an item that another reader was
woken for. -/
theorem Balanced.attempt_reader {before after : Exchange α} {caller : Caller α}
    {writers readers : Nat} (balanced : Balanced before.channel writers readers)
    (queued : Queued before caller after) (reads : caller.writes = false) :
    Balanced after.channel (writers + (before.awakened caller).card) (readers - 1) := by
  cases queued with
  | refused writes => cases writes.symm.trans reads
  | awaitsRoom writes => cases writes.symm.trans reads
  | stores writes => cases writes.symm.trans reads
  | answered _ empty channel _ awakened =>
      rw [channel, awakened]
      refine ⟨balanced.writers, .inr ?_, balanced.closed⟩
      rw [empty]
      exact Nat.zero_le _
  | awaitsItem _ isOpen empty channel _ awakened =>
      rw [channel, awakened]
      refine ⟨balanced.writers, .inr ?_, fun closed => ?_⟩
      · simp only [Channel.awaitItem, empty]
        exact Nat.zero_le _
      · cases isOpen.symm.trans closed
  | takes _ items channel _ awakened =>
      rw [channel, awakened]
      have writersBefore := balanced.writers
      have readersBefore := balanced.readers
      rw [items, List.length_cons] at writersBefore readersBefore
      refine ⟨?_, ?_, fun closed => ?_⟩
      · by_cases waiting : before.channel.writers = []
        · exact .inl (by rw [waiting, List.tail_nil])
        · right
          have enough := writersBefore.resolve_left waiting
          dsimp only
          rw [card_head? waiting]
          omega
      · exact readersBefore.imp_right Nat.le_sub_one_of_lt
      · obtain ⟨noWriter, noReader⟩ := balanced.closed closed
        exact ⟨by rw [noWriter, List.tail_nil], noReader⟩

/-- Every call that counts as woken is due. -/
structure Followed (exchange : Exchange α) (writers readers : Multiset Nat) : Prop where
  waitingWriters : ∀ caller ∈ exchange.channel.writers, caller.writes = true
  waitingReaders : ∀ caller ∈ exchange.channel.readers, caller.writes = false
  dueWriters : writers ≤ numbersOf true exchange.ready
  dueReaders : readers ≤ numbersOf false exchange.ready

theorem Followed.attempt_writer {before after : Exchange α} {caller : Caller α}
    {writers readers : Multiset Nat} (followed : Followed before writers readers)
    (queued : Queued before caller after) (writes : caller.writes = true) :
    Followed after writers (readers + before.awakened caller) := by
  cases queued with
  | refused _ _ channel ready awakened =>
      rw [awakened, add_zero]
      exact ⟨channel ▸ followed.waitingWriters, channel ▸ followed.waitingReaders,
        ready ▸ followed.dueWriters, ready ▸ followed.dueReaders⟩
  | awaitsRoom _ _ _ channel ready awakened =>
      rw [awakened, add_zero]
      refine ⟨?_, channel ▸ followed.waitingReaders, ready ▸ followed.dueWriters,
        ready ▸ followed.dueReaders⟩
      rw [channel]
      intro other member
      rcases List.mem_append.mp member with before | last
      · exact followed.waitingWriters other before
      · exact List.mem_singleton.mp last ▸ writes
  | stores _ channel ready awakened =>
      refine ⟨channel ▸ followed.waitingWriters, ?_, ?_, ?_⟩
      · rw [channel]
        intro other member
        exact followed.waitingReaders other (List.mem_of_mem_tail member)
      · rw [ready, numbersOf_append]
        exact followed.dueWriters.trans (Multiset.le_add_right _ _)
      · rw [ready, numbersOf_append, numbersOf_head? followed.waitingReaders, awakened]
        exact add_le_add_left followed.dueReaders _
  | answered reads => cases writes.symm.trans reads
  | awaitsItem reads => cases writes.symm.trans reads
  | takes reads => cases writes.symm.trans reads

theorem Followed.attempt_reader {before after : Exchange α} {caller : Caller α}
    {writers readers : Multiset Nat} (followed : Followed before writers readers)
    (queued : Queued before caller after) (reads : caller.writes = false) :
    Followed after (writers + before.awakened caller) readers := by
  cases queued with
  | refused writes => cases writes.symm.trans reads
  | awaitsRoom writes => cases writes.symm.trans reads
  | stores writes => cases writes.symm.trans reads
  | answered _ _ channel ready awakened =>
      rw [awakened, add_zero]
      exact ⟨channel ▸ followed.waitingWriters, channel ▸ followed.waitingReaders,
        ready ▸ followed.dueWriters, ready ▸ followed.dueReaders⟩
  | awaitsItem _ _ _ channel ready awakened =>
      rw [awakened, add_zero]
      refine ⟨channel ▸ followed.waitingWriters, ?_, ready ▸ followed.dueWriters,
        ready ▸ followed.dueReaders⟩
      rw [channel]
      intro other member
      rcases List.mem_append.mp member with before | last
      · exact followed.waitingReaders other before
      · exact List.mem_singleton.mp last ▸ reads
  | takes _ _ channel ready awakened =>
      refine ⟨?_, channel ▸ followed.waitingReaders, ?_, ?_⟩
      · rw [channel]
        intro other member
        exact followed.waitingWriters other (List.mem_of_mem_tail member)
      · rw [ready, numbersOf_append, numbersOf_append,
          numbersOf_head? followed.waitingWriters, awakened]
        exact (add_le_add_left followed.dueWriters _).trans (Multiset.le_add_left _ _)
      · rw [ready, numbersOf_append, numbersOf_append]
        exact followed.dueReaders.trans
          ((Multiset.le_add_right _ _).trans (Multiset.le_add_left _ _))

theorem followed_of_due {exchange : Exchange α} {early late : List (Caller α)} {caller : Caller α}
    {writers readers : Multiset Nat} (followed : Followed exchange writers readers)
    (due : exchange.ready = early ++ caller :: late) :
    Followed { exchange with ready := early ++ late }
      (if caller.writes then writers.erase caller.id else writers)
      (if caller.writes then readers else readers.erase caller.id) := by
  have dueWriters := followed.dueWriters
  have dueReaders := followed.dueReaders
  rw [due] at dueWriters dueReaders
  cases writes : caller.writes with
  | true =>
      rw [← writes, numbersOf_of_middle] at dueWriters
      rw [numbersOf_of_middle_of_ne (by simp [writes])] at dueReaders
      exact ⟨followed.waitingWriters, followed.waitingReaders,
        Multiset.erase_le_iff_le_cons.mpr (writes ▸ dueWriters), dueReaders⟩
  | false =>
      rw [numbersOf_of_middle_of_ne (by simp [writes])] at dueWriters
      rw [← writes, numbersOf_of_middle] at dueReaders
      exact ⟨followed.waitingWriters, followed.waitingReaders, dueWriters,
        Multiset.erase_le_iff_le_cons.mpr (writes ▸ dueReaders)⟩

/-- What holds of the waiting and the woken calls in every state. -/
structure Watched (wakening : Wakening α) : Prop where
  balanced : Balanced wakening.traffic.exchange.channel wakening.writers.card wakening.readers.card
  followed : Followed wakening.traffic.exchange wakening.writers wakening.readers

theorem watched_start {channel : Channel (Caller α) α}
    (made : Channel.new? capacity = some channel) : Watched (start channel) := by
  obtain ⟨positive, rfl⟩ := Channel.eq_of_new? made
  refine ⟨⟨.inl rfl, .inl rfl, fun _ => ⟨rfl, rfl⟩⟩, ?_, ?_, Multiset.zero_le _, Multiset.zero_le _⟩
  · simp [start, Traffic.start, idle]
  · simp [start, Traffic.start, idle]

theorem pred_card_le_card_erase (numbers : Multiset Nat) (id : Nat) :
    numbers.card - 1 ≤ (numbers.erase id).card := by
  rw [Multiset.card_erase_eq_ite, Nat.pred_eq_sub_one]
  split <;> omega

theorem Watched.attempt (watched : Watched wakening) {early late : List (Caller α)}
    {caller : Caller α} (due : wakening.traffic.exchange.ready = early ++ caller :: late) :
    Watched ((wakening.move { wakening.traffic.exchange with ready := early ++ late }).attempt
      caller) := by
  let held : Exchange α := { wakening.traffic.exchange with ready := early ++ late }
  have queued : Queued held caller (held.attempt caller) := held.queued caller
  have balanced : Balanced held.channel _ _ := watched.balanced
  have followed := followed_of_due watched.followed due
  cases writes : caller.writes with
  | true =>
      simp only [writes, if_true] at followed
      have balanced := balanced.attempt_writer queued writes
      constructor
      · simp only [Wakening.attempt, writes, if_true, Multiset.card_add]
        exact balanced.mono (pred_card_le_card_erase _ _) le_rfl
      · simp only [Wakening.attempt, writes, if_true]
        exact followed.attempt_writer queued writes
  | false =>
      simp only [writes, Bool.false_eq_true, if_false] at followed
      have balanced := balanced.attempt_reader queued writes
      constructor
      · simp only [Wakening.attempt, writes, Bool.false_eq_true, if_false, Multiset.card_add]
        exact balanced.mono le_rfl (pred_card_le_card_erase _ _)
      · simp only [Wakening.attempt, writes, Bool.false_eq_true, if_false]
        exact followed.attempt_reader queued writes

theorem Watched.close (watched : Watched wakening) : Watched wakening.close := by
  obtain ⟨-, followed⟩ := watched
  refine ⟨⟨.inl rfl, .inl rfl, fun _ => ⟨rfl, rfl⟩⟩, ?_, ?_, ?_, ?_⟩
  · intro caller member
    cases member
  · intro caller member
    cases member
  · simp only [Wakening.close, Exchange.close, Channel.close, wake, numbersOf_append]
    rw [numbersOf_eq followed.waitingWriters]
    exact add_le_add followed.dueWriters (Multiset.le_add_left _ _)
  · simp only [Wakening.close, Exchange.close, Channel.close, wake, numbersOf_append]
    rw [numbersOf_eq followed.waitingReaders]
    exact add_le_add followed.dueReaders (Multiset.le_add_right _ _)

theorem Watched.expire (watched : Watched wakening) (id : Nat) :
    Watched (wakening.move (wakening.traffic.exchange.expire id)) := by
  obtain ⟨balanced, followed⟩ := watched
  constructor
  · refine ⟨balanced.writers, ?_, fun closed => ?_⟩
    · apply balanced.readers.imp_left
      intro nobody
      simp only [move, Exchange.expire, nobody, List.filter_nil]
    · obtain ⟨noWriter, noReader⟩ := balanced.closed closed
      refine ⟨noWriter, ?_⟩
      simp only [move, Exchange.expire, noReader, List.filter_nil]
  · refine ⟨followed.waitingWriters, ?_, ?_, ?_⟩
    · intro caller member
      exact followed.waitingReaders caller (List.mem_of_mem_filter member)
    · simp only [move, Exchange.expire, numbersOf_append]
      exact followed.dueWriters.trans (Multiset.le_add_right _ _)
    · simp only [move, Exchange.expire, numbersOf_append]
      exact followed.dueReaders.trans (Multiset.le_add_right _ _)

theorem Watched.lapse (watched : Watched wakening) {early late : List (Caller α)}
    {caller : Caller α} (due : wakening.traffic.exchange.ready = early ++ caller :: late)
    (limited : caller.call = .get .limited) :
    Watched (wakening.move
      { wakening.traffic.exchange with ready := early ++ caller.exhausted :: late }) := by
  obtain ⟨balanced, followed⟩ := watched
  have reads : caller.writes = false := by simp only [Caller.writes, limited]
  have same (writes : Bool) : numbersOf writes (early ++ caller.exhausted :: late) =
      numbersOf writes wakening.traffic.exchange.ready := by
    rw [due]
    cases writes with
    | true =>
        have different : caller.exhausted.writes ≠ true := Bool.false_ne_true
        rw [numbersOf_of_middle_of_ne different,
          numbersOf_of_middle_of_ne (reads ▸ Bool.false_ne_true)]
    | false =>
        have first := numbersOf_of_middle early late caller
        rw [reads] at first
        rw [first]
        exact numbersOf_of_middle early late caller.exhausted
  exact ⟨balanced, followed.waitingWriters, followed.waitingReaders,
    (same true).symm ▸ followed.dueWriters, (same false).symm ▸ followed.dueReaders⟩

theorem Watched.issue (watched : Watched wakening) (caller : Caller α) :
    Watched { wakening with
      traffic := { wakening.traffic with
        exchange := wakening.traffic.exchange.issue caller
        issued := wakening.traffic.issued ++ [caller] } } := by
  obtain ⟨balanced, followed⟩ := watched
  refine ⟨balanced, followed.waitingWriters, followed.waitingReaders, ?_, ?_⟩
  · simp only [Exchange.issue, wake, numbersOf_append]
    exact followed.dueWriters.trans (Multiset.le_add_right _ _)
  · simp only [Exchange.issue, wake, numbersOf_append]
    exact followed.dueReaders.trans (Multiset.le_add_right _ _)

theorem Watched.step (watched : Watched wakening) (step : Step wakening later) :
    Watched later := by
  cases step with
  | issue => exact watched.issue _
  | attempt due => exact watched.attempt due
  | close => exact watched.close
  | expire id => exact watched.expire id
  | lapse due limited => exact watched.lapse due limited

theorem watched_of_leads (leads : Leads wakening later) (watched : Watched wakening) :
    Watched later := by
  induction leads with
  | refl => exact watched
  | tail _ step inductionHypothesis => exact inductionHypothesis.step step

theorem mem_ready_of_mem_numbersOf {writes : Bool} {callers : List (Caller α)} {id : Nat}
    (member : id ∈ numbersOf writes callers) : id ∈ callers.map Caller.id := by
  obtain ⟨caller, present, rfl⟩ := List.mem_map.mp (Multiset.mem_coe.mp member)
  exact List.mem_map_of_mem (List.mem_of_mem_filter present)

theorem awaited_eq_zero_of_idle {capacity : Int} {first : Channel (Caller α) α}
    (made : Channel.new? capacity = some first) (leads : Leads (start first) wakening)
    (idle : wakening.traffic.exchange.ready = []) :
    wakening.writers = 0 ∧ wakening.readers = 0 := by
  obtain ⟨_, followed⟩ := watched_of_leads leads (watched_start made)
  have dueWriters := followed.dueWriters
  have dueReaders := followed.dueReaders
  rw [idle] at dueWriters dueReaders
  exact ⟨Multiset.le_zero.mp dueWriters, Multiset.le_zero.mp dueReaders⟩

/-- No wake-up is lost: whatever the order of the calls, once all calls that were woken have
resumed, nobody waits for room while there is some, nobody waits for an item while there is one,
nobody waits at all on a closed channel, and so there never are waiting readers beside waiting
writers. A call that was woken is due until it resumes, and every run can be followed so. Letting
everybody go on who is due leaves no woken call. -/
theorem no_wake_lost {capacity : Int} {first : Channel (Caller α) α}
    (made : Channel.new? capacity = some first) :
    (∀ traffic, Traffic.Leads (Traffic.start first) traffic →
      ∃ wakening, Leads (start first) wakening ∧ wakening.traffic = traffic) ∧
    (∀ wakening, Leads (start first) wakening →
      let channel := wakening.traffic.exchange.channel
      (∀ id ∈ wakening.writers + wakening.readers,
        id ∈ wakening.traffic.exchange.ready.map Caller.id) ∧
      (wakening.writers = 0 → wakening.readers = 0 →
        (channel.items.length < capacity → channel.writers = []) ∧
        (channel.items ≠ [] → channel.readers = []) ∧
        (channel.closed = true → channel.writers = [] ∧ channel.readers = []) ∧
        (channel.writers = [] ∨ channel.readers = []))) ∧
    ∀ traffic, Traffic.Leads (Traffic.start first) traffic →
      ∃ wakening, Leads (start first) wakening ∧
        wakening.traffic.exchange = traffic.exchange.settle ∧ wakening.writers = 0 ∧
          wakening.readers = 0 := by
  refine ⟨?_, ?_, ?_⟩
  · intro traffic leads
    exact exists_leads (start first) leads
  · intro wakening leads channel
    obtain ⟨balanced, followed⟩ := watched_of_leads leads (watched_start made)
    have bounded : (channel.capacity : Int) = capacity := by
      have kept := Traffic.capacity_of_leads (traffic_leads leads)
      obtain ⟨positive, rfl⟩ := Channel.eq_of_new? made
      exact kept ▸ Int.toNat_of_nonneg positive.le
    constructor
    · intro id member
      rcases Multiset.mem_add.mp member with writer | reader
      · exact mem_ready_of_mem_numbersOf (Multiset.mem_of_le followed.dueWriters writer)
      · exact mem_ready_of_mem_numbersOf (Multiset.mem_of_le followed.dueReaders reader)
    · intro noWriter noReader
      have writers : channel.writers = [] ∨ channel.capacity ≤ channel.items.length := by
        simpa only [noWriter, Multiset.card_zero, Nat.add_zero] using balanced.writers
      have readers : channel.readers = [] ∨ channel.items = [] := by
        simpa only [noReader, Multiset.card_zero, Nat.le_zero, List.length_eq_zero_iff]
          using balanced.readers
      refine ⟨fun room => ?_, readers.resolve_right, balanced.closed, ?_⟩
      · apply writers.resolve_right
        omega
      · -- Waiting writers leave the buffer full, and a full buffer is not empty.
        rcases writers with nobody | full
        · exact .inl nobody
        · right
          apply readers.resolve_right
          intro empty
          have positive := channel.capacity_pos
          rw [empty] at full
          exact absurd (positive.trans_le full) (Nat.lt_irrefl 0)
  · intro traffic leads
    obtain ⟨settled, settles, same⟩ := Traffic.exists_leads_settle traffic
    obtain ⟨wakening, follows, rfl⟩ := exists_leads (start first) (leads.trans settles)
    obtain ⟨noWriter, noReader⟩ := awaited_eq_zero_of_idle made follows
      (by rw [same, Exchange.ready_settle])
    exact ⟨wakening, follows, same, noWriter, noReader⟩

/-- A put that was woken finds its place taken by a new one and goes back to waiting. -/
theorem no_wake_lost_overtaken :
    ∃ (first : Channel (Caller Nat) Nat) (wakening : Wakening Nat),
      Channel.new? 1 = some first ∧ Leads (start first) wakening ∧
      wakening.writers = 0 ∧ wakening.readers = 0 ∧
      wakening.traffic.exchange.channel.writers.map Caller.id = [1] ∧
      wakening.traffic.exchange.channel.items = [9] ∧
      wakening.traffic.exchange.channel.readers = [] := by
  let first : Channel (Caller Nat) Nat := ⟨1, Nat.one_pos, [], false, [], []⟩
  have made : Channel.new? 1 = some first := rfl
  have leads := (Relation.ReflTransGen.refl (a := start first))
    |>.tail (@Step.issue _ _ ⟨0, .put 7⟩ (.put 7) (by decide))
    |>.tail (@Step.attempt _ _ [] [] ⟨0, .put 7⟩ rfl)
    |>.tail (@Step.issue _ _ ⟨1, .put 8⟩ (.put 8) (by decide))
    |>.tail (@Step.attempt _ _ [] [] ⟨1, .put 8⟩ rfl)
    |>.tail (@Step.issue _ _ ⟨2, .get .unlimited⟩ (.get .unlimited) (by decide))
    |>.tail (@Step.attempt _ _ [] [] ⟨2, .get .unlimited⟩ rfl)
    |>.tail (@Step.issue _ _ ⟨3, .put 9⟩ (.put 9) (by decide))
    |>.tail (@Step.attempt _ _ [⟨1, .put 8⟩] [] ⟨3, .put 9⟩ rfl)
    |>.tail (@Step.attempt _ _ [] [] ⟨1, .put 8⟩ rfl)
  have resumed := ((no_wake_lost made).2.1 _ leads).2 rfl rfl
  exact ⟨first, _, made, leads, rfl, rfl, rfl, rfl, resumed.2.1 (List.cons_ne_nil _ _)⟩

end Wakening

end TreeWatch
