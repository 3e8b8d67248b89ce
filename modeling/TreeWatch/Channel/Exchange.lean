import TreeWatch.Channel.Basic

/-!
A channel together with the calls on it that are in flight.

A call is resumed to make one attempt: it finishes, or it takes an item and goes on, or it waits
and is woken later to try again. Between attempts anything may happen, so the attempt looks at
the channel afresh. `settle` resumes woken calls in the order of their waking until none is left;
each attempt lowers a weight of the whole, so this ends.
-/

namespace TreeWatch

universe u

namespace Exchange

/-- How long a call is ready to wait for an item. -/
inductive Patience
  | unlimited
  | limited
  | exhausted
  deriving DecidableEq, Repr

inductive Call (α : Type u)
  | put (item : α)
  | get (patience : Patience)
  /-- Takes items until the channel is drained; those taken so far are kept. -/
  | iterate (taken : List α)

structure Caller (α : Type u) where
  id : Nat
  call : Call α

inductive Reply (α : Type u)
  | done
  | item (item : α)
  | items (items : List α)
  | refused (refusal : Channel.Refusal)

end Exchange

structure Exchange (α : Type u) where
  channel : Channel (Exchange.Caller α) α
  /-- Calls that may make an attempt, in the order in which they are due. -/
  ready : List (Exchange.Caller α)
  /-- Answers of finished calls, in the order of finishing. -/
  replies : List (Nat × Exchange.Reply α)

namespace Exchange

variable {α : Type u}

def finish (exchange : Exchange α) (id : Nat) (reply : Reply α) : Exchange α :=
  { exchange with replies := exchange.replies ++ [(id, reply)] }

def wake (exchange : Exchange α) (callers : List (Caller α)) : Exchange α :=
  { exchange with ready := exchange.ready ++ callers }

def attemptPut (exchange : Exchange α) (caller : Caller α) (item : α) : Exchange α :=
  match exchange.channel.put item with
  | .refused => exchange.finish caller.id (.refused .putToClosed)
  | .full => { exchange with channel := exchange.channel.awaitRoom caller }
  | .stored channel woken =>
      ({ exchange with channel }.wake woken.toList).finish caller.id .done

def attemptGet (exchange : Exchange α) (caller : Caller α) (patience : Patience) : Exchange α :=
  match exchange.channel.take with
  | .drained => exchange.finish caller.id (.refused .drained)
  | .empty =>
      if patience = .exhausted then exchange.finish caller.id (.refused .nothingYet)
      else { exchange with channel := exchange.channel.awaitItem caller }
  | .taken item channel woken =>
      ({ exchange with channel }.wake woken.toList).finish caller.id (.item item)

/-- An attempt to take one item more. The call that succeeds is due again at once. -/
def attemptIterate (exchange : Exchange α) (caller : Caller α) (taken : List α) : Exchange α :=
  match exchange.channel.take with
  | .drained => exchange.finish caller.id (.items taken)
  | .empty => { exchange with channel := exchange.channel.awaitItem caller }
  | .taken item channel woken =>
      { exchange with
        channel
        ready := ⟨caller.id, .iterate (taken ++ [item])⟩ :: (exchange.ready ++ woken.toList) }

/-- An attempt of a call that no queue holds. -/
def attempt (exchange : Exchange α) (caller : Caller α) : Exchange α :=
  match caller.call with
  | .put item => exchange.attemptPut caller item
  | .get patience => exchange.attemptGet caller patience
  | .iterate taken => exchange.attemptIterate caller taken

def issue (exchange : Exchange α) (caller : Caller α) : Exchange α := exchange.wake [caller]

def close (exchange : Exchange α) : Exchange α :=
  let (channel, woken) := exchange.channel.close
  { exchange with channel }.wake woken

/-- Whether the caller has this number and waits for a limited time. -/
def isLimited (id : Nat) (caller : Caller α) : Bool :=
  match caller.call with
  | .get .limited => caller.id == id
  | _ => false

/-- Ends the patience of the waiting call with this number, which is then due once more. -/
def expire (exchange : Exchange α) (id : Nat) : Exchange α :=
  let channel := exchange.channel
  { exchange with
    channel := { channel with readers := channel.readers.filter fun caller => !isLimited id caller }
    ready := exchange.ready ++
      (channel.readers.filter (isLimited id)).map ({ · with call := .get .exhausted }) }

def Call.weight : Call α → Nat
  | .put _ => 3
  | _ => 1

def callWeight : List (Caller α) → Nat
  | [] => 0
  | caller :: callers => Call.weight caller.call + callWeight callers

/-- Bounds the attempts that can still be made without a new call. -/
def weight (exchange : Exchange α) : Nat :=
  callWeight exchange.ready + exchange.ready.length + callWeight exchange.channel.writers +
    callWeight exchange.channel.readers + 2 * exchange.channel.items.length

@[simp]
theorem callWeight_nil : callWeight ([] : List (Caller α)) = 0 := rfl

@[simp]
theorem callWeight_cons (caller : Caller α) (callers : List (Caller α)) :
    callWeight (caller :: callers) = Call.weight caller.call + callWeight callers := rfl

@[simp]
theorem callWeight_append (callers more : List (Caller α)) :
    callWeight (callers ++ more) = callWeight callers + callWeight more := by
  induction callers with
  | nil => exact (Nat.zero_add _).symm
  | cons caller callers inductionHypothesis =>
      simp only [List.cons_append, callWeight_cons, inductionHypothesis, Nat.add_assoc]

theorem callWeight_head_tail (callers : List (Caller α)) :
    callWeight callers.head?.toList + callWeight callers.tail = callWeight callers := by
  cases callers <;> simp

theorem length_head?_le (callers : List (Caller α)) : callers.head?.toList.length ≤ 1 := by
  cases callers <;> simp

theorem weight_attempt_lt (exchange : Exchange α) (caller : Caller α)
    (later : List (Caller α)) (due : exchange.ready = caller :: later) :
    ({ exchange with ready := later }.attempt caller).weight < exchange.weight := by
  obtain ⟨channel, ready, replies⟩ := exchange
  simp only at due
  subst due
  have readersKept := callWeight_head_tail channel.readers
  have writersKept := callWeight_head_tail channel.writers
  have oneReader := length_head?_le channel.readers
  have oneWriter := length_head?_le channel.writers
  obtain ⟨id, call⟩ := caller
  cases call with
  | put item =>
      simp only [attempt, attemptPut]
      split
      · simp only [weight, finish, callWeight_cons, Call.weight, List.length_cons]
        omega
      · simp only [weight, Channel.awaitRoom, callWeight_append, callWeight_cons, callWeight_nil,
          Call.weight, List.length_cons]
        omega
      · rename_i stored woken outcome
        simp only [Channel.put] at outcome
        split at outcome
        · cases outcome
        · split at outcome
          · cases outcome
          · cases outcome
            simp only [weight, finish, wake, callWeight_append, callWeight_cons, Call.weight,
              List.length_append, List.length_cons, List.length_nil]
            omega
  | get patience =>
      simp only [attempt, attemptGet]
      split
      · simp only [weight, finish, callWeight_cons, Call.weight, List.length_cons]
        omega
      · split
        · simp only [weight, finish, callWeight_cons, Call.weight, List.length_cons]
          omega
        · simp only [weight, Channel.awaitItem, callWeight_append, callWeight_cons,
            callWeight_nil, Call.weight, List.length_cons]
          omega
      · rename_i item taken woken outcome
        simp only [Channel.take] at outcome
        split at outcome
        · split at outcome <;> cases outcome
        · rename_i items
          cases outcome
          simp only [weight, finish, wake, callWeight_append, callWeight_cons, Call.weight,
            List.length_append, List.length_cons, items]
          omega
  | iterate sofar =>
      simp only [attempt, attemptIterate]
      split
      · simp only [weight, finish, callWeight_cons, Call.weight, List.length_cons]
        omega
      · simp only [weight, Channel.awaitItem, callWeight_append, callWeight_cons,
          callWeight_nil, Call.weight, List.length_cons]
        omega
      · rename_i item taken woken outcome
        simp only [Channel.take] at outcome
        split at outcome
        · split at outcome <;> cases outcome
        · rename_i items
          cases outcome
          simp only [weight, callWeight_append, callWeight_cons, Call.weight,
            List.length_append, List.length_cons, items]
          omega

/-- Resumes calls, the one that is due first going first, until all have finished or wait. -/
def settle (exchange : Exchange α) : Exchange α :=
  match _due : exchange.ready with
  | [] => exchange
  | caller :: later => settle ({ exchange with ready := later }.attempt caller)
termination_by exchange.weight
decreasing_by exact weight_attempt_lt exchange caller later _due

theorem ready_settle (exchange : Exchange α) : exchange.settle.ready = [] := by
  fun_induction settle exchange with
  | case1 exchange due => exact due
  | case2 exchange caller later due inductionHypothesis => exact inductionHypothesis

end Exchange

end TreeWatch
