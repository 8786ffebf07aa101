import Mathlib.Order.Basic

/-!
# Watch channels

A single-value channel that keeps the last value sent and counts its
versions. A receiver is the version it has last seen: it holds an unseen
change exactly when that is not the current one, so a send is noticed by
every receiver there is, its own sender's included, and by none that
subscribes later.
-/

namespace WaylandWebStream

/-- **A watch channel**: the value last sent, and how often one was. -/
structure Watch (α : Type*) where
  value : α
  version : ℕ
  deriving DecidableEq

namespace Watch

/-- A receiver, as the version it has seen. -/
structure Receiver where
  seen : ℕ
  deriving DecidableEq

variable {α : Type*}

/-- A channel no value was sent on yet. -/
def channel (v : α) : Watch α := ⟨v, 0⟩

/-- Sending replaces the value and counts a version, whatever the value. -/
def send (w : Watch α) (v : α) : Watch α := ⟨v, w.version + 1⟩

/-- A receiver that has seen everything sent so far: a new subscription,
and what an old one becomes when it observes the value. -/
def subscribe (w : Watch α) : Receiver := ⟨w.version⟩

/-- Whether the receiver has a change it has not seen. -/
def hasChanged (w : Watch α) (r : Receiver) : Bool := r.seen != w.version

@[simp] theorem send_value (w : Watch α) (v : α) : (w.send v).value = v := rfl

@[simp] theorem send_version (w : Watch α) (v : α) : (w.send v).version = w.version + 1 := rfl

@[simp] theorem subscribe_seen (w : Watch α) : w.subscribe.seen = w.version := rfl

@[simp] theorem hasChanged_subscribe (w : Watch α) : w.hasChanged w.subscribe = false := by
  simp [hasChanged]

/-- **A send reaches every receiver there is.** -/
theorem hasChanged_send {w : Watch α} {r : Receiver} (h : r.seen ≤ w.version) (v : α) :
    (w.send v).hasChanged r = true := by
  simp only [hasChanged, send_version, bne_iff_ne, ne_eq]
  omega

end Watch

end WaylandWebStream
