/-!
# Bounded first-in first-out channels with their history

A channel keeps, beside its buffer, the sequence of everything ever accepted
and everything ever handed out. The two fields `accounted` and `bounded` make
a channel that loses, duplicates, reorders or overfills unrepresentable; a
client reads ordering and exactly-once delivery off `accounted`.
-/

namespace Ill.Base

universe u

/-- A channel of bounded capacity, with the history of both of its ends. -/
structure Fifo (α : Type u) (capacity : Nat) where
  buffer : List α
  accepted : List α
  delivered : List α
  accounted : accepted = delivered ++ buffer
  bounded : buffer.length ≤ capacity

namespace Fifo

variable {α : Type u} {capacity : Nat}

/-- Channels are equal when their buffers and histories are. -/
@[ext] theorem ext {left right : Fifo α capacity} (buffer : left.buffer = right.buffer)
    (delivered : left.delivered = right.delivered) : left = right := by
  obtain ⟨_, _, _, leftAccounted, _⟩ := left
  obtain ⟨_, _, _, rightAccounted, _⟩ := right
  cases buffer
  cases delivered
  subst leftAccounted
  subst rightAccounted
  rfl

/-- A channel nothing was ever sent on. -/
def empty : Fifo α capacity where
  buffer := []
  accepted := []
  delivered := []
  accounted := rfl
  bounded := Nat.zero_le _

/-- Accept one item at the back, unless the buffer is full. -/
def send? (channel : Fifo α capacity) (item : α) : Option (Fifo α capacity) :=
  if room : channel.buffer.length < capacity then
    some {
      buffer := channel.buffer ++ [item]
      accepted := channel.accepted ++ [item]
      delivered := channel.delivered
      accounted := by rw [channel.accounted, List.append_assoc]
      bounded := by
        rw [List.length_append, List.length_singleton]
        exact room }
  else none

/-- Hand out the item at the front, unless the buffer is empty. -/
def recv? (channel : Fifo α capacity) : Option (α × Fifo α capacity) :=
  match front : channel.buffer with
  | [] => none
  | item :: rest => some (item, {
      buffer := rest
      accepted := channel.accepted
      delivered := channel.delivered ++ [item]
      accounted := by rw [channel.accounted, front, List.append_assoc, List.singleton_append]
      bounded := by
        have within := channel.bounded
        rw [front, List.length_cons] at within
        exact Nat.le_of_succ_le within })

@[simp] theorem empty_buffer : (empty : Fifo α capacity).buffer = [] := rfl

@[simp] theorem empty_accepted : (empty : Fifo α capacity).accepted = [] := rfl

@[simp] theorem empty_delivered : (empty : Fifo α capacity).delivered = [] := rfl

/-- A send fails exactly when the buffer is full. -/
theorem send?_eq_none_iff {channel : Fifo α capacity} {item : α} :
    channel.send? item = none ↔ channel.buffer.length = capacity := by
  have within := channel.bounded
  unfold send?
  split
  · next room => simp [Nat.ne_of_lt room]
  · next full => simp [Nat.le_antisymm within (Nat.le_of_not_lt full)]

/-- The effects of an accepted send. -/
theorem send?_eq_some {channel next : Fifo α capacity} {item : α}
    (sent : channel.send? item = some next) :
    next.buffer = channel.buffer ++ [item] ∧ next.accepted = channel.accepted ++ [item] ∧
      next.delivered = channel.delivered := by
  unfold send? at sent
  split at sent
  · simp only [Option.some.injEq] at sent
    subst sent
    exact ⟨rfl, rfl, rfl⟩
  · simp at sent

/-- A receive fails exactly when the buffer is empty. -/
theorem recv?_eq_none_iff {channel : Fifo α capacity} :
    channel.recv? = none ↔ channel.buffer = [] := by
  unfold recv?
  split
  · next front => simp [front]
  · next front => simp [front]

/-- The effects of a successful receive. -/
theorem recv?_eq_some {channel next : Fifo α capacity} {item : α}
    (received : channel.recv? = some (item, next)) :
    channel.buffer = item :: next.buffer ∧ next.accepted = channel.accepted ∧
      next.delivered = channel.delivered ++ [item] := by
  unfold recv? at received
  split at received
  · simp at received
  · next front =>
    simp only [Option.some.injEq, Prod.mk.injEq] at received
    obtain ⟨rfl, rfl⟩ := received
    exact ⟨front, rfl, rfl⟩

/-- What was handed out is a prefix of what was accepted. -/
theorem delivered_prefix (channel : Fifo α capacity) :
    channel.delivered <+: channel.accepted :=
  ⟨channel.buffer, channel.accounted.symm⟩

/-- Everything accepted has been handed out exactly when nothing is buffered. -/
theorem delivered_eq_accepted_iff (channel : Fifo α capacity) :
    channel.delivered = channel.accepted ↔ channel.buffer = [] := by
  rw [channel.accounted]
  exact List.self_eq_append_right

end Fifo

end Ill.Base
