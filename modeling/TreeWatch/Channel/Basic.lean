/-!
Bounded channels.

A channel holds at most as many items as its capacity, oldest first. Callers that find no room or
no item wait in two queues, oldest first; storing an item wakes the oldest caller that waits for
one, taking an item wakes the oldest caller that waits for room, and closing wakes everybody. The
operations say who was woken and leave it to the caller's surroundings to resume them.
-/

namespace TreeWatch

universe u v

structure Channel (ι : Type u) (α : Type v) where
  capacity : Nat
  capacity_pos : 0 < capacity
  items : List α
  closed : Bool
  /-- Callers that wait for room. -/
  writers : List ι
  /-- Callers that wait for an item. -/
  readers : List ι

namespace Channel

variable {ι : Type u} {α : Type v}

/-- Why a channel answers a call without storing or yielding an item. -/
inductive Refusal
  | putToClosed
  | drained
  | nothingYet
  deriving DecidableEq, Repr

def Refusal.message : Refusal → String
  | putToClosed => "put to closed channel"
  | drained => "channel closed"
  | nothingYet => ""

def capacityMessage : String := "channel capacity must be at least 1"

/-- An open channel without items. -/
def new? (capacity : Int) : Option (Channel ι α) :=
  if positive : 0 < capacity then
    some ⟨capacity.toNat, by omega, [], false, [], []⟩
  else none

inductive Put (ι : Type u) (α : Type v)
  | refused
  | full
  | stored (channel : Channel ι α) (woken : Option ι)

def put (channel : Channel ι α) (item : α) : Put ι α :=
  if channel.closed then .refused
  else if channel.capacity ≤ channel.items.length then .full
  else
    .stored { channel with items := channel.items ++ [item], readers := channel.readers.tail }
      channel.readers.head?

inductive Take (ι : Type u) (α : Type v)
  | drained
  | empty
  | taken (item : α) (channel : Channel ι α) (woken : Option ι)

def take (channel : Channel ι α) : Take ι α :=
  match channel.items with
  | [] => if channel.closed then .drained else .empty
  | item :: later =>
      .taken item { channel with items := later, writers := channel.writers.tail }
        channel.writers.head?

def awaitRoom (channel : Channel ι α) (caller : ι) : Channel ι α :=
  { channel with writers := channel.writers ++ [caller] }

def awaitItem (channel : Channel ι α) (caller : ι) : Channel ι α :=
  { channel with readers := channel.readers ++ [caller] }

/-- The closed channel, and the callers that this wakes. -/
def close (channel : Channel ι α) : Channel ι α × List ι :=
  ({ channel with closed := true, writers := [], readers := [] },
    channel.readers ++ channel.writers)

end Channel

end TreeWatch
