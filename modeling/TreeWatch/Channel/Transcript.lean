import TreeWatch.Channel.Exchange

/-!
Running requests on a channel one after another, and reporting what each of them brings about.

A request is numbered by its place. After each one the calls in flight are settled, so the next
request finds every earlier one finished or waiting.
-/

namespace TreeWatch

universe u

namespace Exchange

inductive Request (α : Type u)
  | put (item : α)
  /-- A time limit is in milliseconds and may already be over. -/
  | get (timeout : Option Int)
  | iterate
  | close

structure Report (α : Type u) where
  /-- The answer to the request, unless its call still waits. -/
  reply : Option (Reply α)
  /-- Answers to earlier requests that came since the last report, by number. -/
  finished : List (Nat × Reply α)
  length : Nat
  closed : Bool

variable {α : Type u}

def idle (channel : Channel (Caller α) α) : Exchange α := ⟨channel, [], []⟩

def patienceFor : Option Int → Patience
  | none => .unlimited
  | some timeout => if timeout ≤ 0 then .exhausted else .limited

def serve (exchange : Exchange α) (id : Nat) : Request α → Exchange α
  | .put item => (exchange.issue ⟨id, .put item⟩).settle
  | .get timeout =>
      (((exchange.issue ⟨id, .get (patienceFor timeout)⟩).settle).expire id).settle
  | .iterate => (exchange.issue ⟨id, .iterate []⟩).settle
  | .close => (exchange.finish id .done).close.settle

def report (exchange : Exchange α) (id : Nat) : Report α where
  reply := exchange.replies.lookup id
  finished :=
    (exchange.replies.filter (·.1 != id)).mergeSort fun first second => first.1 ≤ second.1
  length := exchange.channel.items.length
  closed := exchange.channel.closed

/-- The reports on requests numbered from `id` on, and what they leave behind. -/
def transcript (exchange : Exchange α) (id : Nat) : List (Request α) → List (Report α) × Exchange α
  | [] => ([], exchange)
  | request :: later =>
      let served := exchange.serve id request
      let (reports, left) := transcript { served with replies := [] } (id + 1) later
      (served.report id :: reports, left)

def waiting (exchange : Exchange α) : List Nat :=
  ((exchange.channel.writers ++ exchange.channel.readers).map (·.id)).mergeSort

end Exchange

end TreeWatch
