import Mathlib.Data.List.Basic

/-!
# Broadcast channels

A channel that keeps the last `capacity` values for every receiver. A
receiver is the number of values it has passed: it takes the next one,
or, once that has been overwritten, is moved to the oldest value kept
and told so. The model keeps every value sent, and says which are gone.
-/

namespace WaylandWebStream

/-- **A broadcast channel**: how many values it keeps, and what was sent on it. -/
structure Broadcast (α : Type*) where
  capacity : ℕ
  sent : List α

namespace Broadcast

variable {α : Type*} {b : Broadcast α} {a : α} {next n : ℕ}

/-- What a receiver finds. -/
inductive Recv (α : Type*)
  /-- Nothing was sent since. -/
  | pending
  /-- Values were overwritten, and it goes on at the oldest one kept. -/
  | lagged (next : ℕ)
  | value (a : α)

/-- A channel nothing was sent on yet. -/
def channel (capacity : ℕ) : Broadcast α := ⟨capacity, []⟩

def send (b : Broadcast α) (a : α) : Broadcast α := { b with sent := b.sent ++ [a] }

/-- Where a new receiver starts. -/
def subscribe (b : Broadcast α) : ℕ := b.sent.length

/-- What was sent and a receiver has not passed. -/
def unread (b : Broadcast α) (next : ℕ) : List α := b.sent.drop next

/-- `recv`, for the receiver that has passed `next` values. -/
def recv (b : Broadcast α) (next : ℕ) : Recv α :=
  if next + b.capacity < b.sent.length then .lagged (b.sent.length - b.capacity)
  else
    match b.sent[next]? with
    | some a => .value a
    | none => .pending

@[simp] theorem unread_subscribe : b.unread b.subscribe = [] := by
  simp [unread, subscribe]

@[simp] theorem length_sent_send : (b.send a).sent.length = b.sent.length + 1 := by
  simp [send]

/-- A send is unread by every receiver there is. -/
theorem unread_send (h : next ≤ b.sent.length) : (b.send a).unread next = b.unread next ++ [a] := by
  rw [unread, send, List.drop_append_of_le_length h, unread]

/-- What was sent keeps its place. -/
theorem getElem?_send (h : b.sent[n]? = some a) (a' : α) : (b.send a').sent[n]? = some a := by
  obtain ⟨hn, -⟩ := List.getElem?_eq_some_iff.1 h
  rw [send, List.getElem?_append_left hn, h]

/-- **A value taken is the next one unread.** -/
theorem recv_value (h : b.recv next = .value a) :
    b.sent[next]? = some a ∧ b.unread next = a :: b.unread (next + 1) := by
  unfold recv at h
  split at h
  · cases h
  · split at h
    · rename_i ha
      cases h
      obtain ⟨hn, rfl⟩ := List.getElem?_eq_some_iff.1 ha
      exact ⟨ha, List.drop_eq_getElem_cons hn⟩
    · cases h

/-- **A lag moves the receiver on**, to a value that is still there. -/
theorem recv_lagged (h : b.recv next = .lagged n) : next < n ∧ n ≤ b.sent.length := by
  unfold recv at h
  split at h
  · cases h
    omega
  · split at h <;> cases h

end Broadcast

end WaylandWebStream
