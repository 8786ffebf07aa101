import WaylandWebStream.Lib.Machine
import Mathlib.Data.List.Basic
import Mathlib.Logic.Function.Basic

/-!
# Manager — the session's command, started once and killed at the end

The first connection starts the session's command, and the server's shutdown
kills it. A step is what a call, or a child's watcher task, does from one
await to the next; calls of `ensure_started` and `shutdown`, any number of
each, take their steps in any order.
-/

namespace WaylandWebStream

namespace Session

/-- The watcher task of a child. -/
inductive Watcher
  | unborn
  /-- In the `select!`: the child's exit, or a kill request. -/
  | waiting
  /-- In `child.kill()`. -/
  | killing
  | done
deriving DecidableEq

/-- **A child process**, its kill channel and its watcher task. -/
structure Child where
  alive : Bool
  /-- The kill channel has resolved: sent to, or its sender dropped. -/
  killed : Bool
  watcher : Watcher
deriving DecidableEq

/-- Where a call of `ensure_started` is. -/
inductive Ensure
  | called
  /-- The flag is taken, nothing spawned yet. -/
  | claimed
  /-- The spawn failed, the flag is not reset yet. -/
  | failed
  /-- The child is there, and its kill handle not stored yet. -/
  | spawned (child : ℕ)
  /-- The kill handle is stored, and no watcher spawned yet. -/
  | armed (child : ℕ)
  /-- The watcher is spawned, and its handle not stored yet. -/
  | watched (child : ℕ)
  | returned
deriving DecidableEq

/-- Where a call of `shutdown` is. -/
inductive Shutdown
  | called
  /-- The kill request, if any, is sent. -/
  | requested
  /-- In `handle.await`; the lock of `watcher` is held until it is over. -/
  | awaiting (child : ℕ)
  | returned
deriving DecidableEq

/-- **The session manager**, its children, and the calls under way. A call
not made yet is one still at `called`. -/
structure State where
  command : List String
  started : Bool
  /-- The server's own shutdown signal. -/
  shutdownTx : Bool
  /-- The child whose kill handle is stored. -/
  killTx : Option ℕ
  /-- The child whose watcher handle is stored. -/
  watcher : Option ℕ
  watcherLocked : Bool
  children : List Child
  ensures : ℕ → Ensure
  shutdowns : ℕ → Shutdown

inductive Action
  /-- A call of `ensure_started` goes on; whether a spawn works. -/
  | ensure (i : ℕ) (spawns : Bool)
  /-- A call of `shutdown` goes on. -/
  | shutdown (k : ℕ)
  /-- A watcher task goes on; in the `select!`, by the exit or the kill. -/
  | watcher (c : ℕ) (exit : Bool)
  /-- A child exits on its own. -/
  | exits (c : ℕ)

namespace State

variable (s : State)

def setEnsure (i : ℕ) (e : Ensure) : State :=
  { s with ensures := Function.update s.ensures i e }

def setShutdown (k : ℕ) (d : Shutdown) : State :=
  { s with shutdowns := Function.update s.shutdowns k d }

/-- Something happens to a child. -/
def modifyChild (c : ℕ) (f : Child → Child) : State :=
  { s with children := s.children.modify c f }

/-- The kill channel of a child resolves. -/
def kill (c : ℕ) : State := s.modifyChild c fun child => { child with killed := true }

/-- A kill handle is stored; one stored before is dropped. -/
def storeKillTx (c : ℕ) : State :=
  match s.killTx with
  | none => { s with killTx := some c }
  | some old => { s.kill old with killTx := some c }

/-- `ensure_started`, from one await to the next. -/
def stepEnsure (i : ℕ) (spawns : Bool) : Option State :=
  match s.ensures i with
  | .called =>
    if s.command = [] ∨ s.started = true then some (s.setEnsure i .returned)
    else some { s.setEnsure i .claimed with started := true }
  | .claimed =>
    if spawns then
      some { s.setEnsure i (.spawned s.children.length) with
             children := s.children ++ [⟨true, false, .unborn⟩] }
    else some (s.setEnsure i .failed)
  | .failed => some { s.setEnsure i .returned with started := false }
  | .spawned c => some ((s.storeKillTx c).setEnsure i (.armed c))
  | .armed c =>
    some ((s.modifyChild c fun child => { child with watcher := .waiting }).setEnsure i (.watched c))
  | .watched c =>
    if s.watcherLocked then none
    else some { s.setEnsure i .returned with watcher := some c }
  | .returned => none

/-- `shutdown`, from one await to the next. -/
def stepShutdown (k : ℕ) : Option State :=
  match s.shutdowns k with
  | .called =>
    match s.killTx with
    | none => some (s.setShutdown k .requested)
    | some c => some { (s.kill c).setShutdown k .requested with killTx := none }
  | .requested =>
    if s.watcherLocked then none
    else
      match s.watcher with
      | none => some (s.setShutdown k .returned)
      | some c => some { s.setShutdown k (.awaiting c) with watcher := none, watcherLocked := true }
  | .awaiting c =>
    if (s.children[c]?).any fun child => child.watcher = .done then
      some { s.setShutdown k .returned with watcherLocked := false }
    else none
  | .returned => none

/-- A watcher task. -/
def stepWatcher (c : ℕ) (exit : Bool) : Option State :=
  match s.children[c]? with
  | none => none
  | some child =>
    match child.watcher with
    | .waiting =>
      if exit then
        if child.alive then none
        else some { s.modifyChild c fun child => { child with watcher := .done } with
                    shutdownTx := true }
      else if child.killed then
        some (s.modifyChild c fun child => { child with watcher := .killing })
      else none
    | .killing =>
      some (s.modifyChild c fun child => { child with alive := false, watcher := .done })
    | .unborn | .done => none

def step : Action → Option State
  | .ensure i spawns => s.stepEnsure i spawns
  | .shutdown k => s.stepShutdown k
  | .watcher c exit => s.stepWatcher c exit
  | .exits c =>
    if (s.children[c]?).any Child.alive then
      some (s.modifyChild c fun child => { child with alive := false })
    else none

end State

/-- A fresh manager, no call made. -/
def fresh (command : List String) : State where
  command
  started := false
  shutdownTx := false
  killTx := none
  watcher := none
  watcherLocked := false
  children := []
  ensures _ := .called
  shutdowns _ := .called

/-- **The session manager as a machine.** -/
def machine : Machine State Action where
  init s := ∃ command, s = fresh command
  step := State.step

/-! ## What is promised -/

/-- A call of `ensure_started` holds the flag. -/
def Ensure.busy : Ensure → Bool
  | .claimed | .failed | .spawned _ | .armed _ | .watched _ => true
  | .called | .returned => false

/-- The child a call of `ensure_started` has, and whose handles it has not
all stored. -/
def Ensure.child : Ensure → Option ℕ
  | .spawned c | .armed c | .watched c => some c
  | .called | .claimed | .failed | .returned => none

/-- At most one child is alive. -/
def State.AtMostOne (s : State) : Prop := (s.children.filter Child.alive).length ≤ 1

/-- The flag is set only while a call tries, or once a child was spawned: a
failed attempt leaves it to the next. -/
def State.Retries (s : State) : Prop :=
  s.started = true → s.children ≠ [] ∨ ∃ i, (s.ensures i).busy = true

/-- Some shutdown has returned. -/
def State.IsDown (s : State) : Prop := ∃ k, s.shutdowns k = .returned

/-- Once a shutdown has returned, no child is alive. -/
def State.Down (s : State) : Prop := s.IsDown → ∀ child ∈ s.children, child.alive = false

/-- **The condition on a step**: no child is spawned once a shutdown has
returned, and a shutdown finds no watcher handle only when no
`ensure_started` has a living child whose handle is still to be stored. -/
def Ordered (s : State) : Action → Prop
  | .ensure i spawns => s.ensures i = .claimed → spawns = true → ¬ s.IsDown
  | .shutdown k => s.shutdowns k = .requested → s.watcher = none →
    ∀ i c child, (s.ensures i).child = some c → s.children[c]? = some child → child.alive = false
  | .watcher _ _ | .exits _ => True

end Session

end WaylandWebStream
