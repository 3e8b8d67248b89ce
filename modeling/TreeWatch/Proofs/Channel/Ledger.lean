import TreeWatch.Proofs.Channel.Traffic

/-!
The ledger of a channel adds up.

Whatever the order of the calls, no item gets lost, doubled or out of turn: each fact is stated for
one attempt, from what an attempt can bring about, and then for every state that the steps lead to.
-/

namespace TreeWatch

universe u

namespace Exchange

variable {α : Type u}

def numbers (exchange : Exchange α) : Multiset Nat :=
  exchange.inFlight.map Caller.id + (exchange.replies.map Prod.fst : List Nat)

theorem numbers_of_inFlight {before after : Exchange α} {caller : Caller α}
    (flight : after.inFlight = caller ::ₘ before.inFlight)
    (replies : after.replies = before.replies) :
    after.numbers = caller.id ::ₘ before.numbers := by
  rw [numbers, flight, replies, Multiset.map_cons, Multiset.cons_add, numbers]

theorem numbers_of_replies {before after : Exchange α} {id : Nat} {reply : Reply α}
    (flight : after.inFlight = before.inFlight)
    (replies : after.replies = before.replies ++ [(id, reply)]) :
    after.numbers = id ::ₘ before.numbers := by
  rw [numbers, numbers, flight, replies, List.map_append, ← Multiset.coe_add, List.map_singleton,
    Multiset.coe_singleton, ← Multiset.singleton_add]
  abel

theorem mem_or_eq_of_mem_replies {before after : Exchange α} {last entry : Nat × Reply α}
    (replies : after.replies = before.replies ++ [last]) (member : entry ∈ after.replies) :
    entry ∈ before.replies ∨ entry = last := by
  rwa [replies, List.mem_append, List.mem_singleton] at member

def Reply.isDone : Reply α → Bool
  | .done => true
  | _ => false

/-- Whether a reader learns from the answer that no item will follow. -/
inductive Reply.Final : Reply α → Prop
  | drained : Final (.refused .drained)
  | items (items : List α) : Final (.items items)

theorem Answers.not_done {channel : Channel (Caller α) α} {call : Call α} {reply : Reply α}
    (answers : Answers channel call reply) : reply.isDone = false := by
  cases answers <;> rfl

theorem Answers.drained_of_final {channel : Channel (Caller α) α} {call : Call α} {reply : Reply α}
    (answers : Answers channel call reply) (final : reply.Final) :
    channel.closed = true ∧ channel.items = [] := by
  cases final with
  | drained =>
      cases answers with
      | drained closed empty => exact ⟨closed, empty⟩
  | items items =>
      cases answers with
      | ended closed empty => exact ⟨closed, empty⟩

namespace Attempted

variable {before after : Exchange α} {caller : Caller α}

theorem room_kept (attempted : Attempted before caller after)
    (room : before.channel.items.length ≤ before.channel.capacity) :
    after.channel.items.length ≤ before.channel.capacity := by
  cases attempted with
  | answered _ channel => rwa [channel]
  | waits items => rwa [items]
  | stores _ _ free items =>
      rw [items, List.length_append]
      exact free
  | yields _ items =>
      rw [items] at room
      exact Nat.le_of_succ_le room
  | collects _ items =>
      rw [items] at room
      exact Nat.le_of_succ_le room

theorem items_eq (attempted : Attempted before caller after) :
    (before.removal caller).map Prod.snd ++ after.channel.items =
      before.channel.items ++ (before.addition caller).map Prod.snd := by
  cases attempted with
  | answered _ channel _ _ added removed => simp [channel, added, removed]
  | waits items _ _ added removed => simp [items, added, removed]
  | stores _ _ _ items _ _ added removed => simp [items, added, removed]
  | yields _ items _ _ added removed => simp [items, added, removed]
  | collects _ items _ _ added removed => simp [items, added, removed]

/-- The caller is still in flight or has its answer. -/
theorem numbers_eq (attempted : Attempted before caller after) :
    after.numbers = caller.id ::ₘ before.numbers := by
  cases attempted with
  | answered _ _ replies flight => exact numbers_of_replies flight replies
  | waits _ replies flight => exact numbers_of_inFlight flight replies
  | stores _ _ _ _ replies flight => exact numbers_of_replies flight replies
  | yields _ _ replies flight => exact numbers_of_replies flight replies
  | collects _ _ replies flight => exact (numbers_of_inFlight flight replies :)

theorem put_mem (attempted : Attempted before caller after) {other : Caller α} {item : α}
    (member : other ∈ after.inFlight) (put : other.call = .put item) :
    other ∈ caller ::ₘ before.inFlight := by
  cases attempted with
  | answered _ _ _ flight => exact Multiset.mem_cons_of_mem (flight ▸ member)
  | waits _ _ flight => exact flight ▸ member
  | stores _ _ _ _ _ flight => exact Multiset.mem_cons_of_mem (flight ▸ member)
  | yields _ _ _ flight => exact Multiset.mem_cons_of_mem (flight ▸ member)
  | collects _ _ _ flight =>
      rcases Multiset.mem_cons.mp (flight ▸ member) with rfl | member
      · cases put
      · exact Multiset.mem_cons_of_mem member

theorem eq_of_mem_addition (attempted : Attempted before caller after) {entry : Nat × α}
    (member : entry ∈ before.addition caller) : caller = ⟨entry.1, .put entry.2⟩ := by
  cases attempted with
  | answered _ _ _ _ added => simp [added] at member
  | waits _ _ _ added => simp [added] at member
  | stores call _ _ _ _ _ added =>
      obtain rfl := List.mem_singleton.mp (added ▸ member)
      rw [← call]
  | yields _ _ _ _ added => simp [added] at member
  | collects _ _ _ _ added => simp [added] at member

theorem addition_of_closed (attempted : Attempted before caller after)
    (closed : before.channel.closed = true) : before.addition caller = [] := by
  cases attempted with
  | stores _ isOpen => cases closed.symm.trans isOpen
  | _ => assumption

/-- Exactly the calls that store an item are answered that they are done. -/
theorem done_eq (attempted : Attempted before caller after) :
    (after.replies.filter (·.2.isDone)).map Prod.fst =
      (before.replies.filter (·.2.isDone)).map Prod.fst ++
        (before.addition caller).map Prod.fst := by
  cases attempted with
  | answered answers _ replies _ added => simp [replies, added, answers.not_done]
  | waits _ replies _ added => simp [replies, added]
  | stores _ _ _ _ replies _ added => simp [replies, added, Reply.isDone]
  | yields _ _ replies _ added => simp [replies, added, Reply.isDone]
  | collects _ _ replies _ added => simp [replies, added]

theorem drained_of_final (attempted : Attempted before caller after)
    (frame : before.channel.Frame after.channel)
    (earlier : ∀ id reply, (id, reply) ∈ before.replies → reply.Final →
      before.channel.closed = true ∧ before.channel.items = [])
    {id : Nat} {reply : Reply α} (member : (id, reply) ∈ after.replies) (final : reply.Final) :
    after.channel.closed = true ∧ after.channel.items = [] := by
  rw [frame.closed]
  cases attempted with
  | answered answers channel replies =>
      rw [channel]
      rcases mem_or_eq_of_mem_replies replies member with member | last
      · exact earlier id reply member final
      · cases last
        exact answers.drained_of_final final
  | waits items replies =>
      rw [items]
      exact earlier id reply (replies ▸ member) final
  | stores _ isOpen _ _ replies =>
      rcases mem_or_eq_of_mem_replies replies member with member | last
      · cases isOpen.symm.trans (earlier id reply member final).1
      · cases last
        cases final
  | yields _ items replies =>
      rcases mem_or_eq_of_mem_replies replies member with member | last
      · cases items.symm.trans (earlier id reply member final).2
      · cases last
        cases final
  | collects _ items replies =>
      cases items.symm.trans (earlier id reply (replies ▸ member) final).2

end Attempted

end Exchange

open Exchange

namespace Traffic

variable {α : Type u} {capacity : Int} {traffic later : Traffic α}

/-- The items that a ledger has under a number. -/
def share (entries : List (Nat × α)) (id : Nat) : List α :=
  (entries.filter (·.1 = id)).map Prod.snd

theorem share_append (entries more : List (Nat × α)) (id : Nat) :
    share (entries ++ more) id = share entries id ++ share more id := by
  simp only [share, List.filter_append, List.map_append]

theorem share_of_not_mem {entries : List (Nat × α)} {id : Nat}
    (absent : id ∉ entries.map Prod.fst) : share entries id = [] := by
  rw [share, List.filter_eq_nil_iff.mpr, List.map_nil]
  intro entry member same
  exact absent (List.mem_map.mpr ⟨entry, member, of_decide_eq_true same⟩)

theorem share_of_mem {entries : List (Nat × α)} (distinct : (entries.map Prod.fst).Nodup)
    {id : Nat} {item : α} (member : (id, item) ∈ entries) : share entries id = [item] := by
  obtain ⟨early, late, rfl⟩ := List.append_of_mem member
  rw [List.map_append, List.map_cons, List.nodup_middle, List.nodup_cons, List.mem_append,
    not_or] at distinct
  obtain ⟨⟨notEarly, notLate⟩, -⟩ := distinct
  have own : share [(id, item)] id = [item] := by simp [share]
  rw [share_append, share_of_not_mem notEarly, List.nil_append, ← List.singleton_append,
    share_append, own, share_of_not_mem notLate, List.append_nil]

/-- What holds of the ledger in every state. -/
structure Accounted (traffic : Traffic α) : Prop where
  room : traffic.exchange.channel.items.length ≤ traffic.exchange.channel.capacity
  balanced : traffic.removed.map Prod.snd ++ traffic.exchange.channel.items =
    traffic.stored.map Prod.snd
  numbered : traffic.exchange.numbers = (traffic.issued.map Caller.id : List Nat)
  distinct : (traffic.issued.map Caller.id).Nodup
  pending : ∀ caller ∈ traffic.exchange.inFlight, ∀ item, caller.call = .put item →
    caller ∈ traffic.issued
  credited : ∀ entry ∈ traffic.stored, ⟨entry.1, .put entry.2⟩ ∈ traffic.issued
  done : (traffic.exchange.replies.filter (·.2.isDone)).map Prod.fst =
    traffic.stored.map Prod.fst
  drained : ∀ id reply, (id, reply) ∈ traffic.exchange.replies → reply.Final →
    traffic.exchange.channel.closed = true ∧ traffic.exchange.channel.items = []

theorem accounted_start {channel : Channel (Caller α) α}
    (made : Channel.new? capacity = some channel) : Accounted (start channel) := by
  obtain ⟨positive, rfl⟩ := Channel.eq_of_new? made
  exact {
    room := Nat.zero_le _
    balanced := rfl
    numbered := rfl
    distinct := .nil
    pending := by simp [start, idle, inFlight]
    credited := by simp [start]
    done := rfl
    drained := by simp [start, idle] }

theorem Accounted.moved (accounted : Accounted traffic) {after : Exchange α}
    (capacity : after.channel.capacity = traffic.exchange.channel.capacity)
    (items : after.channel.items = traffic.exchange.channel.items)
    (closed : traffic.exchange.channel.closed = true → after.channel.closed = true)
    (replies : after.replies = traffic.exchange.replies)
    (numbers : after.numbers = traffic.exchange.numbers)
    (puts : ∀ caller ∈ after.inFlight, ∀ item, caller.call = .put item →
      caller ∈ traffic.exchange.inFlight) :
    Accounted { traffic with exchange := after } where
  room := by simpa only [capacity, items] using accounted.room
  balanced := by simpa only [items] using accounted.balanced
  numbered := numbers.trans accounted.numbered
  distinct := accounted.distinct
  pending caller member item put := accounted.pending caller (puts caller member item put) item put
  credited := accounted.credited
  done := by simpa only [replies] using accounted.done
  drained id reply member final := by
    obtain ⟨isClosed, empty⟩ := accounted.drained id reply (replies ▸ member) final
    exact ⟨closed isClosed, items.trans empty⟩

theorem Accounted.issue (accounted : Accounted traffic) {caller : Caller α}
    (fresh : caller.id ∉ traffic.issued.map Caller.id) :
    Accounted { traffic with
      exchange := traffic.exchange.issue caller, issued := traffic.issued ++ [caller] } where
  room := accounted.room
  balanced := accounted.balanced
  numbered := by
    rw [numbers_of_inFlight (inFlight_issue traffic.exchange caller) rfl, accounted.numbered,
      List.map_append, ← Multiset.coe_add, List.map_singleton, Multiset.coe_singleton, add_comm,
      Multiset.singleton_add]
  distinct := by
    rw [List.map_append]
    apply accounted.distinct.append (List.nodup_singleton _)
    simpa using fresh
  pending other member item put := by
    rw [inFlight_issue, Multiset.mem_cons] at member
    rcases member with rfl | member
    · exact List.mem_append_right _ (List.mem_singleton_self _)
    · exact List.mem_append_left _ (accounted.pending other member item put)
  credited entry member := List.mem_append_left _ (accounted.credited entry member)
  done := accounted.done
  drained := accounted.drained

theorem Accounted.attempt (accounted : Accounted traffic) {early late : List (Caller α)}
    {caller : Caller α} (due : traffic.exchange.ready = early ++ caller :: late) :
    Accounted ({ traffic with
      exchange := { traffic.exchange with ready := early ++ late } }.attempt caller) := by
  let held : Exchange α := { traffic.exchange with ready := early ++ late }
  have attempted : Attempted held caller (held.attempt caller) := held.attempted caller
  have frame : held.channel.Frame (held.attempt caller).channel := frame_attempt held caller
  have flight : traffic.exchange.inFlight = caller ::ₘ held.inFlight := inFlight_of_due due
  -- Up to its attempt the caller is in flight too, so that its put is known to have been issued.
  have pending : ∀ other ∈ caller ::ₘ held.inFlight, ∀ item, other.call = .put item →
      other ∈ traffic.issued := flight ▸ accounted.pending
  exact {
    room := frame.capacity ▸ attempted.room_kept accounted.room
    balanced := by
      change (traffic.removed ++ held.removal caller).map Prod.snd ++
        (held.attempt caller).channel.items = (traffic.stored ++ held.addition caller).map Prod.snd
      rw [List.map_append, List.append_assoc, attempted.items_eq, ← List.append_assoc,
        List.map_append]
      exact congrArg (· ++ _) accounted.balanced
    numbered := by
      change (held.attempt caller).numbers = _
      rw [attempted.numbers_eq, ← numbers_of_inFlight flight rfl]
      exact accounted.numbered
    distinct := accounted.distinct
    pending := fun other member item put => pending other (attempted.put_mem member put) item put
    credited := by
      intro entry member
      rcases List.mem_append.mp member with member | member
      · exact accounted.credited entry member
      · have put := attempted.eq_of_mem_addition member
        exact put ▸ pending caller (Multiset.mem_cons_self ..) entry.2 (put ▸ rfl)
    done := by
      change ((held.attempt caller).replies.filter (·.2.isDone)).map Prod.fst =
        (traffic.stored ++ held.addition caller).map Prod.fst
      rw [attempted.done_eq, List.map_append]
      exact congrArg (· ++ _) accounted.done
    drained := fun id reply member final =>
      attempted.drained_of_final frame accounted.drained member final }

theorem Accounted.hurried (accounted : Accounted traffic) {after : Exchange α}
    (hurries : Hurries traffic.exchange after)
    (items : after.channel.items = traffic.exchange.channel.items)
    (frame : traffic.exchange.channel.Frame after.channel)
    (replies : after.replies = traffic.exchange.replies) :
    Accounted { traffic with exchange := after } := by
  obtain ⟨limited, others, -, flight, resumed⟩ := hurries
  apply accounted.moved frame.capacity items frame.closed.trans replies
  · simp only [numbers, flight, resumed, replies, Multiset.map_add, Multiset.map_map]
    rfl
  · intro caller member item put
    rw [resumed, Multiset.mem_add, Multiset.mem_map] at member
    rcases member with ⟨_, _, rfl⟩ | member
    · cases put
    · exact flight ▸ Multiset.mem_add.mpr (.inr member)

theorem Accounted.step (accounted : Accounted traffic) (step : Step traffic later) :
    Accounted later := by
  cases step with
  | issue _ fresh => exact accounted.issue fresh
  | attempt due => exact accounted.attempt due
  | close =>
      have flight := inFlight_close traffic.exchange
      refine accounted.moved rfl rfl (fun _ => rfl) rfl ?_ ?_
      · exact congrArg (Multiset.map Caller.id · + _) flight
      · intro caller member _ _
        exact flight ▸ member
  | expire id => exact accounted.hurried (hurries_expire traffic.exchange id) rfl ⟨rfl, rfl⟩ rfl
  | lapse due limited => exact accounted.hurried (hurries_lapse due limited) rfl ⟨rfl, rfl⟩ rfl

theorem accounted_of_leads (leads : Leads traffic later) (accounted : Accounted traffic) :
    Accounted later := by
  induction leads with
  | refl => exact accounted
  | tail _ step inductionHypothesis => exact inductionHypothesis.step step

theorem capacity_of_step (step : Step traffic later) :
    later.exchange.channel.capacity = traffic.exchange.channel.capacity := by
  cases step with
  | attempt => exact (frame_attempt _ _).capacity
  | _ => rfl

theorem capacity_of_leads (leads : Leads traffic later) :
    later.exchange.channel.capacity = traffic.exchange.channel.capacity := by
  induction leads with
  | refl => rfl
  | tail _ step inductionHypothesis => exact (capacity_of_step step).trans inductionHypothesis

theorem shrinks_of_step (closed : traffic.exchange.channel.closed = true)
    (step : Step traffic later) :
    later.exchange.channel.closed = true ∧
      later.exchange.channel.items <:+ traffic.exchange.channel.items := by
  cases step with
  | issue => exact ⟨closed, List.suffix_rfl⟩
  | @attempt early late caller =>
      let held : Exchange α := { traffic.exchange with ready := early ++ late }
      refine ⟨(frame_attempt held caller).closed.trans closed, ?_⟩
      have items := (held.attempted caller).items_eq
      rw [(held.attempted caller).addition_of_closed closed, List.map_nil, List.append_nil] at items
      exact ⟨_, items⟩
  | close => exact ⟨rfl, List.suffix_rfl⟩
  | expire => exact ⟨closed, List.suffix_rfl⟩
  | lapse => exact ⟨closed, List.suffix_rfl⟩

theorem shrinks_of_leads (leads : Leads traffic later)
    (closed : traffic.exchange.channel.closed = true) :
    later.exchange.channel.closed = true ∧
      later.exchange.channel.items <:+ traffic.exchange.channel.items := by
  induction leads with
  | refl => exact ⟨closed, List.suffix_rfl⟩
  | tail _ step inductionHypothesis =>
      obtain ⟨closedBefore, suffix⟩ := inductionHypothesis
      obtain ⟨closedAfter, shorter⟩ := shrinks_of_step closedBefore step
      exact ⟨closedAfter, shorter.trans suffix⟩

theorem nodup_replies (accounted : Accounted traffic) :
    (traffic.exchange.replies.map Prod.fst).Nodup := by
  have distinct : traffic.exchange.numbers.Nodup :=
    accounted.numbered ▸ Multiset.coe_nodup.mpr accounted.distinct
  exact Multiset.coe_nodup.mp (Multiset.nodup_of_le (Multiset.le_add_left _ _) distinct)

theorem nodup_stored (accounted : Accounted traffic) :
    (traffic.stored.map Prod.fst).Nodup :=
  accounted.done ▸ (nodup_replies accounted).sublist (List.filter_sublist.map _)

theorem mem_done_iff (accounted : Accounted traffic) {id : Nat} :
    (id, .done) ∈ traffic.exchange.replies ↔ id ∈ traffic.stored.map Prod.fst := by
  rw [← accounted.done, List.mem_map]
  constructor
  · intro member
    exact ⟨(id, .done), List.mem_filter.mpr ⟨member, rfl⟩, rfl⟩
  · rintro ⟨⟨_, reply⟩, member, rfl⟩
    obtain ⟨member, done⟩ := List.mem_filter.mp member
    cases reply with
    | done => exact member
    | _ => cases done

theorem share_stored_of_done (accounted : Accounted traffic) {id : Nat} {item : α}
    (issued : ⟨id, .put item⟩ ∈ traffic.issued) (done : (id, .done) ∈ traffic.exchange.replies) :
    share traffic.stored id = [item] := by
  obtain ⟨⟨_, item'⟩, member, rfl⟩ := List.mem_map.mp ((mem_done_iff accounted).mp done)
  have same := List.inj_on_of_nodup_map accounted.distinct (accounted.credited _ member) issued rfl
  cases same
  exact share_of_mem (nodup_stored accounted) member

theorem share_stored_of_refused (accounted : Accounted traffic) {id : Nat}
    (refused : (id, .refused .putToClosed) ∈ traffic.exchange.replies) :
    share traffic.stored id = [] := by
  apply share_of_not_mem
  intro stored
  have done := (mem_done_iff accounted).mpr stored
  cases List.inj_on_of_nodup_map (nodup_replies accounted) done refused rfl

end Traffic

end TreeWatch
