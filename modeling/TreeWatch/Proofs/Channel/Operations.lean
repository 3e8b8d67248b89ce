import TreeWatch.Channel.Basic

/-!
What each operation on a channel answers, and what it leaves alone.
-/

namespace TreeWatch

universe u v

namespace Channel

variable {ι : Type u} {α : Type v} {channel after : Channel ι α} {item : α} {woken : Option ι}

theorem eq_of_new? {capacity : Int} (made : new? capacity = some channel) :
    ∃ positive : 0 < capacity,
      channel = ⟨capacity.toNat, Int.lt_toNat.mpr positive, [], false, [], []⟩ := by
  unfold new? at made
  split at made
  · rename_i positive
    exact ⟨positive, (Option.some.inj made).symm⟩
  · cases made

theorem put_of_closed (closed : channel.closed = true) (item : α) :
    channel.put item = .refused := by
  simp only [put, closed, if_true]

theorem put_of_full (isOpen : channel.closed = false)
    (full : channel.capacity ≤ channel.items.length) (item : α) : channel.put item = .full := by
  simp [put, isOpen, full]

theorem put_of_room (isOpen : channel.closed = false)
    (room : channel.items.length < channel.capacity) (item : α) :
    channel.put item =
      .stored { channel with items := channel.items ++ [item], readers := channel.readers.tail }
        channel.readers.head? := by
  simp [put, isOpen, Nat.not_le.mpr room]

theorem take_of_drained (closed : channel.closed = true) (empty : channel.items = []) :
    channel.take = .drained := by
  simp [take, empty, closed]

theorem take_of_empty (isOpen : channel.closed = false) (empty : channel.items = []) :
    channel.take = .empty := by
  simp [take, empty, isOpen]

theorem take_of_cons {later : List α} (items : channel.items = item :: later) :
    channel.take =
      .taken item { channel with items := later, writers := channel.writers.tail }
        channel.writers.head? := by
  simp [take, items]

theorem closed_of_refused (refused : channel.put item = .refused) : channel.closed = true := by
  unfold put at refused
  split at refused
  · assumption
  · split at refused <;> cases refused

theorem closed_of_drained (drained : channel.take = .drained) :
    channel.closed = true ∧ channel.items = [] := by
  unfold take at drained
  split at drained
  · rename_i empty
    split at drained
    · exact ⟨‹_›, empty⟩
    · cases drained
  · cases drained

theorem items_of_stored (stored : channel.put item = .stored after woken) :
    after.items = channel.items ++ [item] := by
  unfold put at stored
  split at stored
  · cases stored
  · split at stored <;> cases stored
    rfl

theorem eq_of_stored (stored : channel.put item = .stored after woken) :
    after = { channel with items := channel.items ++ [item], readers := channel.readers.tail } := by
  unfold put at stored
  split at stored
  · cases stored
  · split at stored <;> cases stored
    rfl

theorem full_of_put (full : channel.put item = .full) :
    channel.capacity ≤ channel.items.length := by
  unfold put at full
  split at full
  · cases full
  · split at full
    · assumption
    · cases full

theorem items_of_taken (taken : channel.take = .taken item after woken) :
    channel.items = item :: after.items := by
  unfold take at taken
  split at taken
  · split at taken <;> cases taken
  · rename_i items
    cases taken
    exact items

/-- What neither storing nor taking an item changes. -/
structure Frame (before after : Channel ι α) : Prop where
  capacity : after.capacity = before.capacity
  closed : after.closed = before.closed

theorem frame_of_stored (stored : channel.put item = .stored after woken) :
    channel.Frame after := by
  unfold put at stored
  split at stored
  · cases stored
  · split at stored <;> cases stored
    exact ⟨rfl, rfl⟩

theorem frame_of_taken (taken : channel.take = .taken item after woken) :
    channel.Frame after := by
  unfold take at taken
  split at taken
  · split at taken <;> cases taken
  · cases taken
    exact ⟨rfl, rfl⟩

end Channel

end TreeWatch
