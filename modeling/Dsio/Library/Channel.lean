import Mathlib.Data.List.Basic

/-!
# A bounded FIFO that can be closed

`Channel` carries its bound as a field. A send on an open full channel and a
receive on an open empty one block; a send on a closed channel throws at once,
while a receive from a closed channel first drains what is left. A call that
blocks is an `Attempt` whose caller makes no progress until the channel changes.
-/

universe u

/-- The result of trying a channel operation now. -/
inductive Attempt (α : Type u) where
  | blocked
  | thrown
  | done (value : α)

structure Channel (α : Type u) where
  capacity : Nat
  items : List α
  closed : Bool
  bounded : items.length ≤ capacity

namespace Channel

variable {α : Type u}

/-- An open channel holding nothing. -/
def empty (capacity : Nat) : Channel α := ⟨capacity, [], false, Nat.zero_le _⟩

def send (channel : Channel α) (item : α) : Attempt (Channel α) :=
  if channel.closed then .thrown
  else if room : channel.items.length < channel.capacity then
    .done ⟨channel.capacity, channel.items ++ [item], channel.closed, by
      simpa using Nat.succ_le_of_lt room⟩
  else .blocked

def recv (channel : Channel α) : Attempt (α × Channel α) :=
  match items : channel.items with
  | item :: rest =>
      .done (item, ⟨channel.capacity, rest, channel.closed, by
        have bounded := channel.bounded
        rw [items, List.length_cons] at bounded
        omega⟩)
  | [] => if channel.closed then .thrown else .blocked

def close (channel : Channel α) : Channel α :=
  ⟨channel.capacity, channel.items, true, channel.bounded⟩

@[simp] theorem close_capacity (channel : Channel α) :
    channel.close.capacity = channel.capacity := rfl
@[simp] theorem close_items (channel : Channel α) : channel.close.items = channel.items := rfl
@[simp] theorem close_closed (channel : Channel α) : channel.close.closed = true := rfl
@[simp] theorem empty_capacity (capacity : Nat) :
    (empty capacity : Channel α).capacity = capacity := rfl
@[simp] theorem empty_items (capacity : Nat) : (empty capacity : Channel α).items = [] := rfl
@[simp] theorem empty_closed (capacity : Nat) : (empty capacity : Channel α).closed = false := rfl

/-- What a completed send did. -/
structure Sent (before after : Channel α) (item : α) : Prop where
  wasOpen : before.closed = false
  room : before.items.length < before.capacity
  items : after.items = before.items ++ [item]
  closed : after.closed = false
  capacity : after.capacity = before.capacity

/-- What a completed receive did. -/
structure Received (before after : Channel α) (item : α) : Prop where
  items : before.items = item :: after.items
  closed : after.closed = before.closed
  capacity : after.capacity = before.capacity

/-- What a send that is done has done. -/
theorem sent_of_send {before after : Channel α} {item : α}
    (done : before.send item = .done after) : Sent before after item := by
  unfold send at done
  split at done
  · cases done
  · next notClosed =>
    split at done
    · next room =>
      cases done
      have wasOpen : before.closed = false := by simpa using notClosed
      exact ⟨wasOpen, room, rfl, wasOpen, rfl⟩
    · cases done

/-- What a receive that is done has done. -/
theorem received_of_recv {before after : Channel α} {item : α}
    (done : before.recv = .done (item, after)) : Received before after item := by
  unfold recv at done
  split at done
  · next head rest items =>
    cases done
    exact ⟨items, rfl, rfl⟩
  · next items => split at done <;> cases done

/-- A send throws exactly on a closed channel. -/
theorem send_eq_thrown_iff {channel : Channel α} {item : α} :
    channel.send item = .thrown ↔ channel.closed = true := by
  unfold send
  split
  · next closed => simp [closed]
  · next notClosed => split <;> simp [notClosed]

/-- A send blocks exactly on a full channel that is open. -/
theorem send_eq_blocked_iff {channel : Channel α} {item : α} :
    channel.send item = .blocked ↔
      channel.closed = false ∧ channel.items.length = channel.capacity := by
  have bounded := channel.bounded
  unfold send
  split
  · next closed => simp [closed]
  · next notClosed =>
    split
    · next room => simp; omega
    · next full => simp [notClosed]; omega

/-- A receive throws exactly on a channel that is closed and drained. -/
theorem recv_eq_thrown_iff {channel : Channel α} :
    channel.recv = .thrown ↔ channel.closed = true ∧ channel.items = [] := by
  unfold recv
  split
  · next items => simp [items]
  · next items => split <;> simp_all

/-- A receive blocks exactly on an empty channel that is open. -/
theorem recv_eq_blocked_iff {channel : Channel α} :
    channel.recv = .blocked ↔ channel.closed = false ∧ channel.items = [] := by
  unfold recv
  split
  · next items => simp [items]
  · next items => split <;> simp_all

end Channel
