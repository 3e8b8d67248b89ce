import Mathlib.Algebra.Order.Group.Multiset
import Mathlib.Logic.Relation
import Mathlib.Tactic.Abel
import TreeWatch.Channel.Transcript
import TreeWatch.Proofs.Channel.Operations

/-!
The calls on a channel in any order.

A step issues a call, lets one of the calls that are due make its attempt, closes the channel, or
ends the patience of a reader. Which call goes first is left open, so a new call can slip in
before one that was woken. Beside the exchange a ledger is kept of the calls issued, and of the
items stored and removed, each with the number of the call that did it.
-/

namespace TreeWatch

universe u

namespace Exchange

variable {α : Type u}

def inFlight (exchange : Exchange α) : Multiset (Caller α) :=
  exchange.ready + exchange.channel.writers + exchange.channel.readers

def addition (exchange : Exchange α) (caller : Caller α) : List (Nat × α) :=
  match caller.call with
  | .put item =>
      match exchange.channel.put item with
      | .stored _ _ => [(caller.id, item)]
      | _ => []
  | _ => []

def removal (exchange : Exchange α) (caller : Caller α) : List (Nat × α) :=
  match caller.call with
  | .put _ => []
  | _ =>
      match exchange.channel.take with
      | .taken item _ _ => [(caller.id, item)]
      | _ => []

/-- The answers that leave the channel as it is. -/
inductive Answers (channel : Channel (Caller α) α) : Call α → Reply α → Prop
  | putToClosed {item : α} (closed : channel.closed = true) :
      Answers channel (.put item) (.refused .putToClosed)
  | drained {patience : Patience} (closed : channel.closed = true) (empty : channel.items = []) :
      Answers channel (.get patience) (.refused .drained)
  | nothingYet (empty : channel.items = []) :
      Answers channel (.get .exhausted) (.refused .nothingYet)
  | ended {taken : List α} (closed : channel.closed = true) (empty : channel.items = []) :
      Answers channel (.iterate taken) (.items taken)

/-- Everything that an attempt of a caller can bring about, seen from outside the queues. -/
inductive Attempted (before : Exchange α) (caller : Caller α) (after : Exchange α) : Prop
  | answered {reply : Reply α} (answers : Answers before.channel caller.call reply)
      (channel : after.channel = before.channel)
      (replies : after.replies = before.replies ++ [(caller.id, reply)])
      (flight : after.inFlight = before.inFlight)
      (added : before.addition caller = []) (removed : before.removal caller = [])
  | waits (items : after.channel.items = before.channel.items)
      (replies : after.replies = before.replies)
      (flight : after.inFlight = caller ::ₘ before.inFlight)
      (added : before.addition caller = []) (removed : before.removal caller = [])
  | stores {item : α} (call : caller.call = .put item) (isOpen : before.channel.closed = false)
      (room : before.channel.items.length < before.channel.capacity)
      (items : after.channel.items = before.channel.items ++ [item])
      (replies : after.replies = before.replies ++ [(caller.id, .done)])
      (flight : after.inFlight = before.inFlight)
      (added : before.addition caller = [(caller.id, item)])
      (removed : before.removal caller = [])
  | yields {item : α} {patience : Patience} (call : caller.call = .get patience)
      (items : before.channel.items = item :: after.channel.items)
      (replies : after.replies = before.replies ++ [(caller.id, .item item)])
      (flight : after.inFlight = before.inFlight)
      (added : before.addition caller = [])
      (removed : before.removal caller = [(caller.id, item)])
  | collects {item : α} {taken : List α} (call : caller.call = .iterate taken)
      (items : before.channel.items = item :: after.channel.items)
      (replies : after.replies = before.replies)
      (flight : after.inFlight = ⟨caller.id, .iterate (taken ++ [item])⟩ ::ₘ before.inFlight)
      (added : before.addition caller = [])
      (removed : before.removal caller = [(caller.id, item)])

theorem inFlight_finish (exchange : Exchange α) (id : Nat) (reply : Reply α) :
    (exchange.finish id reply).inFlight = exchange.inFlight := rfl

theorem inFlight_wake (exchange : Exchange α) (callers : List (Caller α)) :
    (exchange.wake callers).inFlight = callers + exchange.inFlight := by
  simp only [inFlight, wake, ← Multiset.coe_add]
  abel

theorem inFlight_issue (exchange : Exchange α) (caller : Caller α) :
    (exchange.issue caller).inFlight = caller ::ₘ exchange.inFlight := by
  rw [issue, inFlight_wake, Multiset.coe_singleton, Multiset.singleton_add]

theorem inFlight_of_due {exchange : Exchange α} {early late : List (Caller α)} {caller : Caller α}
    (due : exchange.ready = early ++ caller :: late) :
    exchange.inFlight = caller ::ₘ { exchange with ready := early ++ late }.inFlight := by
  simp only [inFlight, due, ← Multiset.coe_add, ← Multiset.cons_coe, ← Multiset.singleton_add]
  abel

theorem inFlight_awaitRoom (exchange : Exchange α) (caller : Caller α) :
    { exchange with channel := exchange.channel.awaitRoom caller }.inFlight =
      caller ::ₘ exchange.inFlight := by
  simp only [inFlight, Channel.awaitRoom, ← Multiset.coe_add, Multiset.coe_singleton,
    ← Multiset.singleton_add]
  abel

theorem inFlight_awaitItem (exchange : Exchange α) (caller : Caller α) :
    { exchange with channel := exchange.channel.awaitItem caller }.inFlight =
      caller ::ₘ exchange.inFlight := by
  simp only [inFlight, Channel.awaitItem, ← Multiset.coe_add, Multiset.coe_singleton,
    ← Multiset.singleton_add]
  abel

theorem coe_head?_add_tail (callers : List (Caller α)) :
    (callers.head?.toList : Multiset (Caller α)) + callers.tail = callers := by
  cases callers <;> rfl

theorem inFlight_wake_reader (exchange : Exchange α) (items : List α) :
    ({ exchange with channel := { exchange.channel with
        items, readers := exchange.channel.readers.tail } }.wake
      exchange.channel.readers.head?.toList).inFlight = exchange.inFlight := by
  rw [inFlight_wake, inFlight, inFlight, ← coe_head?_add_tail exchange.channel.readers]
  abel

theorem inFlight_wake_writer (exchange : Exchange α) (items : List α) :
    ({ exchange with channel := { exchange.channel with
        items, writers := exchange.channel.writers.tail } }.wake
      exchange.channel.writers.head?.toList).inFlight = exchange.inFlight := by
  rw [inFlight_wake, inFlight, inFlight, ← coe_head?_add_tail exchange.channel.writers]
  abel

theorem inFlight_close (exchange : Exchange α) : exchange.close.inFlight = exchange.inFlight := by
  simp only [close, Channel.close, wake, inFlight, ← Multiset.coe_add, Multiset.coe_nil]
  abel

theorem attempted_put (exchange : Exchange α) {caller : Caller α} {item : α}
    (call : caller.call = .put item) :
    Attempted exchange caller (exchange.attemptPut caller item) := by
  have removed : exchange.removal caller = [] := by simp only [removal, call]
  cases closed : exchange.channel.closed with
  | true =>
      have outcome := Channel.put_of_closed closed item
      have added : exchange.addition caller = [] := by simp only [addition, call, outcome]
      simp only [attemptPut, outcome]
      exact .answered (call ▸ .putToClosed closed) rfl rfl (inFlight_finish ..) added removed
  | false =>
      rcases Nat.lt_or_ge exchange.channel.items.length exchange.channel.capacity with room | full
      · have outcome := Channel.put_of_room closed room item
        have added : exchange.addition caller = [(caller.id, item)] := by
          simp only [addition, call, outcome]
        simp only [attemptPut, outcome]
        exact .stores call closed room rfl rfl (inFlight_wake_reader exchange _) added removed
      · have outcome := Channel.put_of_full closed full item
        have added : exchange.addition caller = [] := by simp only [addition, call, outcome]
        simp only [attemptPut, outcome]
        exact .waits rfl rfl (inFlight_awaitRoom exchange caller) added removed

theorem attempted_get (exchange : Exchange α) {caller : Caller α} {patience : Patience}
    (call : caller.call = .get patience) :
    Attempted exchange caller (exchange.attemptGet caller patience) := by
  have added : exchange.addition caller = [] := by simp only [addition, call]
  cases items : exchange.channel.items with
  | nil =>
      cases closed : exchange.channel.closed with
      | true =>
          have outcome := Channel.take_of_drained closed items
          have removed : exchange.removal caller = [] := by simp only [removal, call, outcome]
          simp only [attemptGet, outcome]
          exact .answered (call ▸ .drained closed items) rfl rfl (inFlight_finish ..) added removed
      | false =>
          have outcome := Channel.take_of_empty closed items
          have removed : exchange.removal caller = [] := by simp only [removal, call, outcome]
          simp only [attemptGet, outcome]
          split
          · rename_i exhausted
            exact .answered (call ▸ exhausted ▸ .nothingYet items) rfl rfl (inFlight_finish ..)
              added removed
          · exact .waits rfl rfl (inFlight_awaitItem exchange caller) added removed
  | cons item later =>
      have outcome := Channel.take_of_cons items
      have removed : exchange.removal caller = [(caller.id, item)] := by
        simp only [removal, call, outcome]
      simp only [attemptGet, outcome]
      exact .yields call items rfl (inFlight_wake_writer exchange later) added removed

theorem attempted_iterate (exchange : Exchange α) {caller : Caller α} {taken : List α}
    (call : caller.call = .iterate taken) :
    Attempted exchange caller (exchange.attemptIterate caller taken) := by
  have added : exchange.addition caller = [] := by simp only [addition, call]
  cases items : exchange.channel.items with
  | nil =>
      cases closed : exchange.channel.closed with
      | true =>
          have outcome := Channel.take_of_drained closed items
          have removed : exchange.removal caller = [] := by simp only [removal, call, outcome]
          simp only [attemptIterate, outcome]
          exact .answered (call ▸ .ended closed items) rfl rfl (inFlight_finish ..) added removed
      | false =>
          have outcome := Channel.take_of_empty closed items
          have removed : exchange.removal caller = [] := by simp only [removal, call, outcome]
          simp only [attemptIterate, outcome]
          exact .waits rfl rfl (inFlight_awaitItem exchange caller) added removed
  | cons item later =>
      have outcome := Channel.take_of_cons items
      have removed : exchange.removal caller = [(caller.id, item)] := by
        simp only [removal, call, outcome]
      simp only [attemptIterate, outcome]
      refine .collects call items rfl ?_ added removed
      rw [← inFlight_wake_writer exchange later]
      exact @inFlight_of_due _ _ [] _ _ rfl

theorem attempted (exchange : Exchange α) (caller : Caller α) :
    Attempted exchange caller (exchange.attempt caller) := by
  cases call : caller.call with
  | put item => simpa only [attempt, call] using attempted_put exchange call
  | get patience => simpa only [attempt, call] using attempted_get exchange call
  | iterate taken => simpa only [attempt, call] using attempted_iterate exchange call

theorem frame_attempt (exchange : Exchange α) (caller : Caller α) :
    exchange.channel.Frame (exchange.attempt caller).channel := by
  cases call : caller.call with
  | put item =>
      simp only [attempt, call, attemptPut]
      split
      · exact ⟨rfl, rfl⟩
      · exact ⟨rfl, rfl⟩
      · exact Channel.frame_of_stored ‹_›
  | get patience =>
      simp only [attempt, call, attemptGet]
      split
      · exact ⟨rfl, rfl⟩
      · split <;> exact ⟨rfl, rfl⟩
      · exact Channel.frame_of_taken ‹_›
  | iterate taken =>
      simp only [attempt, call, attemptIterate]
      split
      · exact ⟨rfl, rfl⟩
      · exact ⟨rfl, rfl⟩
      · exact Channel.frame_of_taken ‹_›

theorem settle_of_idle {exchange : Exchange α} (due : exchange.ready = []) :
    exchange.settle = exchange := by
  rw [settle]
  split
  · rfl
  · rename_i due'
    cases due.symm.trans due'

theorem settle_of_due {exchange : Exchange α} {caller : Caller α} {later : List (Caller α)}
    (due : exchange.ready = caller :: later) :
    exchange.settle = ({ exchange with ready := later }.attempt caller).settle := by
  rw [settle]
  split
  · rename_i due'
    cases due.symm.trans due'
  · rename_i due'
    cases due.symm.trans due'
    rfl

def Caller.exhausted (caller : Caller α) : Caller α := { caller with call := .get .exhausted }

/-- Whether the calls in flight stay the same but for readers whose patience ends. -/
def Hurries (before after : Exchange α) : Prop :=
  ∃ limited others : Multiset (Caller α), (∀ caller ∈ limited, caller.call = .get .limited) ∧
    before.inFlight = limited + others ∧
    after.inFlight = limited.map Caller.exhausted + others

theorem hurries_expire (exchange : Exchange α) (id : Nat) :
    Hurries exchange (exchange.expire id) := by
  refine ⟨exchange.channel.readers.filter (isLimited id),
    exchange.ready + exchange.channel.writers +
      exchange.channel.readers.filter fun caller => !isLimited id caller, ?_, ?_, ?_⟩
  · intro caller member
    obtain ⟨id', call⟩ := caller
    have limited := (List.mem_filter.mp (Multiset.mem_coe.mp member)).2
    unfold isLimited at limited
    split at limited
    · assumption
    · cases limited
  · have parts : (exchange.channel.readers : Multiset (Caller α)) =
        exchange.channel.readers.filter (isLimited id) +
          exchange.channel.readers.filter fun caller => !isLimited id caller := by
      rw [Multiset.coe_add, Multiset.coe_eq_coe]
      exact (List.filter_append_perm _ _).symm
    rw [inFlight]
    nth_rewrite 1 [parts]
    abel
  · have resumed : (exchange.expire id).inFlight =
        (exchange.ready ++ (exchange.channel.readers.filter (isLimited id)).map Caller.exhausted :
          List (Caller α)) + exchange.channel.writers +
          exchange.channel.readers.filter fun caller => !isLimited id caller := rfl
    rw [resumed, ← Multiset.coe_add, Multiset.map_coe]
    abel

theorem hurries_lapse {exchange : Exchange α} {early late : List (Caller α)} {caller : Caller α}
    (due : exchange.ready = early ++ caller :: late) (limited : caller.call = .get .limited) :
    Hurries exchange { exchange with ready := early ++ caller.exhausted :: late } := by
  let held : Exchange α := { exchange with ready := early ++ late }
  refine ⟨{caller}, held.inFlight, by simpa using limited, ?_, ?_⟩
  · rw [Multiset.singleton_add]
    exact inFlight_of_due due
  · rw [Multiset.map_singleton, Multiset.singleton_add]
    exact @inFlight_of_due _ _ early late _ rfl

/-- What a call is like before its first attempt. -/
inductive Call.Opening : Call α → Prop
  | put (item : α) : Opening (.put item)
  | get (patience : Patience) : Opening (.get patience)
  | iterate : Opening (.iterate [])

end Exchange

open Exchange

/-- An exchange with a ledger of what happened in it. -/
structure Traffic (α : Type u) where
  exchange : Exchange α
  issued : List (Caller α)
  stored : List (Nat × α)
  removed : List (Nat × α)

namespace Traffic

variable {α : Type u}

def start (channel : Channel (Caller α) α) : Traffic α := ⟨idle channel, [], [], []⟩

/-- The attempt of a caller that no queue holds any more. -/
def attempt (traffic : Traffic α) (caller : Caller α) : Traffic α where
  exchange := traffic.exchange.attempt caller
  issued := traffic.issued
  stored := traffic.stored ++ traffic.exchange.addition caller
  removed := traffic.removed ++ traffic.exchange.removal caller

inductive Step : Traffic α → Traffic α → Prop
  | issue {traffic : Traffic α} {caller : Caller α} (opening : caller.call.Opening)
      (fresh : caller.id ∉ traffic.issued.map Caller.id) :
      Step traffic { traffic with
        exchange := traffic.exchange.issue caller, issued := traffic.issued ++ [caller] }
  | attempt {traffic : Traffic α} {early late : List (Caller α)} {caller : Caller α}
      (due : traffic.exchange.ready = early ++ caller :: late) :
      Step traffic ({ traffic with
        exchange := { traffic.exchange with ready := early ++ late } }.attempt caller)
  | close {traffic : Traffic α} : Step traffic { traffic with exchange := traffic.exchange.close }
  /-- A reader that waits is resumed because its time is over. -/
  | expire {traffic : Traffic α} (id : Nat) :
      Step traffic { traffic with exchange := traffic.exchange.expire id }
  /-- The time of a reader is over before it makes the attempt that is due. -/
  | lapse {traffic : Traffic α} {early late : List (Caller α)} {caller : Caller α}
      (due : traffic.exchange.ready = early ++ caller :: late)
      (limited : caller.call = .get .limited) :
      Step traffic { traffic with
        exchange := { traffic.exchange with ready := early ++ caller.exhausted :: late } }

abbrev Leads : Traffic α → Traffic α → Prop := Relation.ReflTransGen Step

/-- Settling an exchange makes one attempt after another. -/
theorem exists_leads_settle (traffic : Traffic α) :
    ∃ settled, Leads traffic settled ∧ settled.exchange = traffic.exchange.settle := by
  obtain ⟨exchange, issued, stored, removed⟩ := traffic
  induction exchange using settle.induct generalizing stored removed with
  | case1 exchange due => exact ⟨_, .refl, (settle_of_idle due).symm⟩
  | case2 exchange caller later due inductionHypothesis =>
      let traffic : Traffic α := ⟨{ exchange with ready := later }, issued, stored, removed⟩
      obtain ⟨settled, leads, ends⟩ :=
        inductionHypothesis (traffic.attempt caller).stored (traffic.attempt caller).removed
      refine ⟨settled, .head ?_ leads, ends.trans (settle_of_due due).symm⟩
      exact @Step.attempt _ ⟨exchange, issued, stored, removed⟩ [] later caller due

end Traffic

end TreeWatch
