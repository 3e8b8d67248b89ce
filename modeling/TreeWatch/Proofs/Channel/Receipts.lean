import TreeWatch.Proofs.Channel.Ledger

/-!
What is removed from a channel reaches the reader that removed it.

With it the ledger of a channel is complete: what calls in any order store, remove and are told.
-/

namespace TreeWatch

universe u

namespace Exchange

variable {α : Type u}

def Call.taken : Call α → List α
  | .iterate taken => taken
  | _ => []

def Reply.taken : Reply α → List α
  | .item last => [last]
  | .items all => all
  | _ => []

theorem Call.Opening.taken_eq {call : Call α} (opening : call.Opening) : call.taken = [] := by
  cases opening <;> rfl

theorem Answers.taken_eq {channel : Channel (Caller α) α} {call : Call α} {reply : Reply α}
    (answers : Answers channel call reply) : reply.taken = call.taken := by
  cases answers <;> rfl

namespace Attempted

variable {before after : Exchange α} {caller : Caller α}

theorem id_of_mem_removal (attempted : Attempted before caller after) {entry : Nat × α}
    (member : entry ∈ before.removal caller) : entry.1 = caller.id := by
  cases attempted with
  | answered _ _ _ _ _ removed => simp [removed] at member
  | waits _ _ _ _ removed => simp [removed] at member
  | stores _ _ _ _ _ _ _ removed => simp [removed] at member
  | yields _ _ _ _ _ removed =>
      obtain rfl := List.mem_singleton.mp (removed ▸ member)
      rfl
  | collects _ _ _ _ _ removed =>
      obtain rfl := List.mem_singleton.mp (removed ▸ member)
      rfl

theorem taken_of_inFlight (attempted : Attempted before caller after) {other : Caller α}
    (member : other ∈ after.inFlight) :
    other ∈ before.inFlight ∨ other.id = caller.id ∧
      other.call.taken = caller.call.taken ++ (before.removal caller).map Prod.snd := by
  cases attempted with
  | answered _ _ _ flight => exact .inl (flight ▸ member)
  | waits _ _ flight _ removed =>
      rcases Multiset.mem_cons.mp (flight ▸ member) with rfl | member
      · exact .inr ⟨rfl, by simp [removed]⟩
      · exact .inl member
  | stores _ _ _ _ _ flight => exact .inl (flight ▸ member)
  | yields _ _ _ flight => exact .inl (flight ▸ member)
  | collects call _ _ flight _ removed =>
      rcases Multiset.mem_cons.mp (flight ▸ member) with rfl | member
      · exact .inr ⟨rfl, by simp [removed, call, Call.taken]⟩
      · exact .inl member

theorem taken_of_replies (attempted : Attempted before caller after) {id : Nat} {reply : Reply α}
    (member : (id, reply) ∈ after.replies) :
    (id, reply) ∈ before.replies ∨ id = caller.id ∧
      reply.taken = caller.call.taken ++ (before.removal caller).map Prod.snd := by
  cases attempted with
  | answered answers _ replies _ _ removed =>
      apply (mem_or_eq_of_mem_replies replies member).imp_right
      intro last
      cases last
      exact ⟨rfl, by simp [removed, answers.taken_eq]⟩
  | waits _ replies => exact .inl (replies ▸ member)
  | stores call _ _ _ replies _ _ removed =>
      apply (mem_or_eq_of_mem_replies replies member).imp_right
      intro last
      cases last
      exact ⟨rfl, by simp [removed, call, Call.taken, Reply.taken]⟩
  | yields call _ replies _ _ removed =>
      apply (mem_or_eq_of_mem_replies replies member).imp_right
      intro last
      cases last
      exact ⟨rfl, by simp [removed, call, Call.taken, Reply.taken]⟩
  | collects _ _ replies => exact .inl (replies ▸ member)

end Attempted

end Exchange

open Exchange

namespace Traffic

variable {α : Type u} {capacity : Int} {traffic later : Traffic α}

/-- Each reader has what it removed. -/
structure Received (traffic : Traffic α) : Prop where
  known : ∀ id ∈ traffic.removed.map Prod.fst, id ∈ traffic.issued.map Caller.id
  pending : ∀ caller ∈ traffic.exchange.inFlight,
    share traffic.removed caller.id = caller.call.taken
  answered : ∀ id reply, (id, reply) ∈ traffic.exchange.replies →
    share traffic.removed id = reply.taken

theorem share_of_forall {entries : List (Nat × α)} {id : Nat}
    (own : ∀ entry ∈ entries, entry.1 = id) : share entries id = entries.map Prod.snd := by
  rw [share, List.filter_eq_self.mpr]
  intro entry member
  exact decide_eq_true (own entry member)

theorem Received.attempt (received : Received traffic) (accounted : Accounted traffic)
    {early late : List (Caller α)} {caller : Caller α}
    (due : traffic.exchange.ready = early ++ caller :: late) :
    Received ({ traffic with
      exchange := { traffic.exchange with ready := early ++ late } }.attempt caller) := by
  let held : Exchange α := { traffic.exchange with ready := early ++ late }
  have attempted : Attempted held caller (held.attempt caller) := held.attempted caller
  have flight : traffic.exchange.inFlight = caller ::ₘ held.inFlight := inFlight_of_due due
  have alone : caller.id ∉ held.numbers := by
    have distinct : traffic.exchange.numbers.Nodup :=
      accounted.numbered ▸ Multiset.coe_nodup.mpr accounted.distinct
    rw [numbers_of_inFlight flight rfl, Multiset.nodup_cons] at distinct
    exact distinct.1
  have listed : caller.id ∈ traffic.issued.map Caller.id := by
    rw [← Multiset.mem_coe, ← accounted.numbered, numbers_of_inFlight flight rfl]
    exact Multiset.mem_cons_self ..
  have before : share traffic.removed caller.id = caller.call.taken :=
    received.pending caller (flight ▸ Multiset.mem_cons_self ..)
  have own : share (traffic.removed ++ held.removal caller) caller.id =
      caller.call.taken ++ (held.removal caller).map Prod.snd := by
    rw [share_append, before, share_of_forall fun entry => attempted.id_of_mem_removal]
  have others : ∀ id ∈ held.numbers,
      share (traffic.removed ++ held.removal caller) id = share traffic.removed id := by
    intro id numbered
    have absent : id ∉ (held.removal caller).map Prod.fst := fun removed => by
      obtain ⟨entry, member, rfl⟩ := List.mem_map.mp removed
      exact alone (attempted.id_of_mem_removal member ▸ numbered)
    rw [share_append, share_of_not_mem absent, List.append_nil]
  exact {
    known := by
      intro id member
      change id ∈ (traffic.removed ++ held.removal caller).map Prod.fst at member
      rw [List.map_append, List.mem_append] at member
      rcases member with member | member
      · exact received.known id member
      · obtain ⟨entry, removed, rfl⟩ := List.mem_map.mp member
        exact attempted.id_of_mem_removal removed ▸ listed
    pending := by
      intro other member
      rcases attempted.taken_of_inFlight member with member | ⟨same, taken⟩
      · refine (others other.id ?_).trans (received.pending other ?_)
        · apply Multiset.mem_add.mpr
          exact .inl (Multiset.mem_map_of_mem _ member)
        · exact flight ▸ Multiset.mem_cons_of_mem member
      · exact same ▸ own.trans taken.symm
    answered := by
      intro id reply member
      rcases attempted.taken_of_replies member with member | ⟨rfl, taken⟩
      · refine (others id ?_).trans (received.answered id reply member)
        apply Multiset.mem_add.mpr
        exact .inr (Multiset.mem_coe.mpr (List.mem_map.mpr ⟨_, member, rfl⟩))
      · exact own.trans taken.symm }

theorem Received.moved (received : Received traffic) {after : Exchange α}
    (replies : after.replies = traffic.exchange.replies)
    (callers : ∀ caller ∈ after.inFlight, ∃ other ∈ traffic.exchange.inFlight,
      caller.id = other.id ∧ caller.call.taken = other.call.taken) :
    Received { traffic with exchange := after } where
  known := received.known
  pending caller member := by
    obtain ⟨other, inFlight, same, taken⟩ := callers caller member
    exact same ▸ taken ▸ received.pending other inFlight
  answered id reply member := received.answered id reply (replies ▸ member)

theorem Received.hurried (received : Received traffic) {after : Exchange α}
    (hurries : Hurries traffic.exchange after)
    (replies : after.replies = traffic.exchange.replies) :
    Received { traffic with exchange := after } := by
  obtain ⟨limited, others, patient, flight, resumed⟩ := hurries
  apply received.moved replies
  intro caller member
  rw [resumed, Multiset.mem_add, Multiset.mem_map] at member
  rw [flight]
  rcases member with ⟨other, member, rfl⟩ | member
  · refine ⟨other, Multiset.mem_add.mpr (.inl member), rfl, ?_⟩
    rw [patient other member]
    rfl
  · exact ⟨caller, Multiset.mem_add.mpr (.inr member), rfl, rfl⟩

theorem Received.step (received : Received traffic) (accounted : Accounted traffic)
    (step : Step traffic later) : Received later := by
  cases step with
  | @issue caller opening fresh =>
      have absent : caller.id ∉ traffic.removed.map Prod.fst := by
        intro member
        apply fresh
        exact received.known _ member
      refine ⟨fun id member => ?_, fun other member => ?_, received.answered⟩
      · rw [List.map_append]
        exact List.mem_append_left _ (received.known id member)
      · rw [inFlight_issue, Multiset.mem_cons] at member
        rcases member with rfl | member
        · exact (share_of_not_mem absent).trans opening.taken_eq.symm
        · exact received.pending other member
  | attempt due => exact received.attempt accounted due
  | close =>
      refine received.moved rfl ?_
      intro caller member
      exact ⟨caller, inFlight_close traffic.exchange ▸ member, rfl, rfl⟩
  | expire id => exact received.hurried (hurries_expire traffic.exchange id) rfl
  | lapse due limited => exact received.hurried (hurries_lapse due limited) rfl

theorem received_of_leads {channel : Channel (Caller α) α}
    (made : Channel.new? capacity = some channel) (leads : Leads (start channel) traffic) :
    Received traffic := by
  induction leads with
  | refl =>
      obtain ⟨positive, rfl⟩ := Channel.eq_of_new? made
      exact ⟨by simp [start], by simp [start, idle, inFlight], by simp [start, idle]⟩
  | tail leads step inductionHypothesis =>
      exact inductionHypothesis.step (accounted_of_leads leads (accounted_start made)) step

/-- In every state that calls in any order lead to, the buffer is within its capacity, and what was
removed and what is left is what the puts stored, in the order of storing. A put that has returned
stored its item once and a put that was refused did not store it. A closed channel stays closed and
takes in nothing, and readers learn that it is drained only when it is. Each reader has what it
removed. Letting everybody go on who is due leads to one more such state. -/
theorem ledger_of_leads {capacity : Int} {channel : Channel (Caller α) α} {traffic : Traffic α}
    (made : Channel.new? capacity = some channel) (leads : Leads (start channel) traffic) :
    traffic.exchange.channel.items.length ≤ capacity ∧
      traffic.removed.map Prod.snd ++ traffic.exchange.channel.items =
        traffic.stored.map Prod.snd ∧
      (∀ id item, (id, item) ∈ traffic.stored → ⟨id, .put item⟩ ∈ traffic.issued) ∧
      (∀ id item, ⟨id, .put item⟩ ∈ traffic.issued →
        ((id, .done) ∈ traffic.exchange.replies → share traffic.stored id = [item]) ∧
        ((id, .refused .putToClosed) ∈ traffic.exchange.replies →
          share traffic.stored id = [])) ∧
      (traffic.exchange.channel.closed = true → ∀ later, Leads traffic later →
        later.exchange.channel.closed = true ∧
          later.exchange.channel.items <:+ traffic.exchange.channel.items) ∧
      (∀ id reply, (id, reply) ∈ traffic.exchange.replies → reply.Final →
        traffic.exchange.channel.closed = true ∧ traffic.exchange.channel.items = []) ∧
      Received traffic ∧
      ∃ settled, Leads traffic settled ∧ settled.exchange = traffic.exchange.settle := by
  have accounted : Accounted traffic := accounted_of_leads leads (accounted_start made)
  have bounded : (traffic.exchange.channel.capacity : Int) = capacity := by
    obtain ⟨positive, rfl⟩ := Channel.eq_of_new? made
    rw [capacity_of_leads leads]
    exact Int.toNat_of_nonneg positive.le
  refine ⟨?_, accounted.balanced, ?_, ?_, ?_, accounted.drained, received_of_leads made leads,
    exists_leads_settle traffic⟩
  · exact bounded ▸ Int.ofNat_le.mpr accounted.room
  · intro id item member
    exact accounted.credited (id, item) member
  · intro id item issued
    exact ⟨share_stored_of_done accounted issued, share_stored_of_refused accounted⟩
  · intro closed later leads
    exact shrinks_of_leads leads closed

/-- After a put that waited for room, was woken by a reader and found the channel closed. -/
def closing : Traffic Nat where
  exchange := ⟨⟨1, Nat.one_pos, [], true, [], []⟩, [],
    [(0, .done), (2, .item 7), (1, .refused .putToClosed), (3, .items [])]⟩
  issued := [⟨0, .put 7⟩, ⟨1, .put 8⟩, ⟨2, .get .unlimited⟩, ⟨3, .iterate []⟩]
  stored := [(0, 7)]
  removed := [(2, 7)]

theorem ledger_of_leads_closing :
    ∃ channel : Channel (Caller Nat) Nat, Channel.new? 1 = some channel ∧
      Leads (start channel) closing ∧ share closing.stored 0 = [7] ∧
      share closing.stored 1 = [] ∧ closing.exchange.channel.items = [] := by
  let channel : Channel (Caller Nat) Nat := ⟨1, Nat.one_pos, [], false, [], []⟩
  have made : Channel.new? 1 = some channel := rfl
  have leads : Leads (start channel) closing := Relation.ReflTransGen.refl
    |>.tail (@Step.issue _ _ ⟨0, .put 7⟩ (.put 7) (by decide))
    |>.tail (@Step.attempt _ _ [] [] ⟨0, .put 7⟩ rfl)
    |>.tail (@Step.issue _ _ ⟨1, .put 8⟩ (.put 8) (by decide))
    |>.tail (@Step.attempt _ _ [] [] ⟨1, .put 8⟩ rfl)
    |>.tail (@Step.issue _ _ ⟨2, .get .unlimited⟩ (.get .unlimited) (by decide))
    |>.tail (@Step.attempt _ _ [] [] ⟨2, .get .unlimited⟩ rfl)
    |>.tail .close
    |>.tail (@Step.attempt _ _ [] [] ⟨1, .put 8⟩ rfl)
    |>.tail (@Step.issue _ _ ⟨3, .iterate []⟩ .iterate (by decide))
    |>.tail (@Step.attempt _ _ [] [] ⟨3, .iterate []⟩ rfl)
  obtain ⟨-, -, -, puts, -, final, -⟩ := ledger_of_leads made leads
  have stored := (puts 0 7 (by simp [closing])).1 (by simp [closing])
  have refused := (puts 1 8 (by simp [closing])).2 (by simp [closing])
  have drained := final 3 (.items []) (by simp [closing]) (.items [])
  exact ⟨channel, made, leads, stored, refused, drained.2⟩

end Traffic

end TreeWatch
