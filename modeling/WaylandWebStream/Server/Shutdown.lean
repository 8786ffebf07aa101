import Mathlib.Tactic.SplitIfs
import WaylandWebStream.Lib.Amortized
import WaylandWebStream.Server.Parties

/-!
# Shutdown — who is left waiting

Once the signal is there, the main loop ends at its top, the forwarding
task and the encoder thread one after the other, and each handler at its
`select!`. What each of them still has to do is a number, which every
step makes smaller but for what comes from outside: so the server comes
to rest. At rest the forwarding task and the encoder thread have ended,
and a handler has too, unless it waits for its client, or for room in an
input queue: nothing takes from these once the main loop is left.
-/

namespace WaylandWebStream

namespace Shutdown

open Input (Device)

/-! ## The work there is left -/

/-- What a queued message costs. An event may be a rate to send. -/
def Queue.weight : Queue → ℕ
  | .event => 3
  | _ => 1

/-- What the sends of a message cost. -/
def weightOf (queues : List Queue) : ℕ := (queues.map fun q => q.weight + 1).sum

def Handler.weight : Handler → ℕ
  | .burst left => 7 + left
  | .delivering q rest => 4 + weightOf (q :: rest)
  | .serving => 4
  | .writing => 5
  | .leaving => 3
  | .cancelling => 2
  | .ended => 0

def EncoderThread.weight : EncoderThread → ℕ
  | .control => 4
  | .resize => 3
  | .flushing => 2
  | .receiving => 1
  | .skipping => 7
  | .holding => 6
  | .sending left => 5 + 2 * left
  | .exited => 0

/-- The end of an iteration may send a frame and ask for a keyframe. -/
def Main.weight : Main → ℕ
  | .top => 5
  | .draining .touch => 17
  | .draining .pointer => 16
  | .draining .key => 15
  | .capture => 14
  | .joinForward => 4
  | .joinEncoder => 3
  | .joinServer => 2
  | .joinSession => 1
  | .done => 0

namespace State

/-- What is queued. -/
def queued (s : State) : ℕ :=
  s.queue .resize + s.queue (.input .touch) + s.queue (.input .pointer) + s.queue (.input .key) +
    s.queue .control + 3 * s.queue .event + s.queue .latency

/-- What the parties have to do, and with frames and packets. -/
def standing (s : State) : ℕ :=
  s.main.weight + s.encoder.weight + 7 * s.frames + s.packets + 2 * s.applying.toNat +
    s.forwarding.toNat + s.accepting.toNat + s.bridge.toNat + (s.handlers.map Handler.weight).sum

/-- **The work there is left.** -/
def work (s : State) : ℕ := s.standing + s.queued

end State

/-- **What an action brings in from outside**: a client what it connects,
sends and is sent, a timer a rate, a submit its packets. -/
def HandlerAction.credit (adaptive : Bool) : HandlerAction → ℕ
  | .hear message => 1 + (message.tries.map Queue.weight).getD 0 + weightOf (message.sends adaptive)
  | .arm => 2
  | .lag => 4
  | .spin => 1
  | .written _ | .hangUp | .replaced | .away | .deliver => 0

def Action.credit (adaptive : Bool) : Action → ℕ
  | .signal => 1
  | .connect favicon clipboard locked => 8 + burstLeft favicon clipboard locked
  | .handler _ a => a.credit adaptive
  | .submit packets => 2 * packets
  | .tick => 3
  | _ => 0

variable {s s' : State} {adaptive : Bool} {q : Queue} {n : ℕ}

/-! ## Queues -/

theorem queued_setQueue (s : State) (q : Queue) (n : ℕ) :
    (s.setQueue q n).queued + q.weight * s.queue q = s.queued + q.weight * n := by
  cases q with
  | input device =>
    cases device <;>
      (simp only [State.queued, State.setQueue, Queue.weight, Function.update]
       simp
       omega)
  | _ =>
    simp only [State.queued, State.setQueue, Queue.weight, Function.update]
    simp
    omega

/-- A message taken from a queue. -/
theorem queued_take (h : s.queue q ≠ 0) :
    (s.setQueue q (s.queue q - 1)).queued + q.weight = s.queued := by
  have hqueued := queued_setQueue s q (s.queue q - 1)
  obtain ⟨k, hk⟩ := Nat.exists_eq_succ_of_ne_zero h
  rw [hk, Nat.succ_sub_one, Nat.mul_succ] at hqueued
  rw [hk, Nat.succ_sub_one]
  omega

/-- A queue emptied. -/
theorem queued_empty (s : State) (q : Queue) : (s.setQueue q 0).queued ≤ s.queued := by
  have hqueued := queued_setQueue s q 0
  omega

/-- What a send changes is the queue. -/
theorem work_push (s : State) (q : Queue) : (s.push q).work ≤ s.work + q.weight := by
  have hqueued := queued_setQueue s q (s.queue q + 1)
  rw [Nat.mul_succ] at hqueued
  unfold State.push
  split
  · have hstanding : (s.setQueue q (s.queue q + 1)).standing = s.standing := rfl
    simp only [State.work, hstanding]
    omega
  · omega

theorem work_tryPush (s : State) (q : Queue) : (s.tryPush q).work ≤ s.work + q.weight := by
  unfold State.tryPush
  split
  · exact work_push s q
  · omega

@[simp] theorem push_handlers (s : State) (q : Queue) : (s.push q).handlers = s.handlers := by
  unfold State.push
  split <;> rfl

@[simp] theorem push_applying (s : State) (q : Queue) : (s.push q).applying = s.applying := by
  unfold State.push
  split <;> rfl

@[simp] theorem push_main (s : State) (q : Queue) : (s.push q).main = s.main := by
  unfold State.push
  split <;> rfl

@[simp] theorem tryPush_main (s : State) (q : Queue) : (s.tryPush q).main = s.main := by
  unfold State.tryPush
  split
  · exact push_main s q
  · rfl

/-! ## Handlers -/

/-- A handler moves on. -/
theorem work_put {i : ℕ} {h : Handler} (h' : Handler) (hi : s.handlers[i]? = some h) :
    (s.put i h').work + h.weight = s.work + h'.weight := by
  have hload := load_set Handler.weight h' hi
  simp only [State.work, State.standing, State.queued, State.put]
  omega

@[simp] theorem weight_afterSend (queues : List Queue) :
    (State.afterSend queues).weight = 4 + weightOf queues := by
  cases queues <;> rfl

theorem weightOf_cons (rest : List Queue) : weightOf (q :: rest) = q.weight + 1 + weightOf rest :=
  List.sum_cons

/-- A move that is paid for, by the handler and a credit. -/
theorem spends_put {i c : ℕ} {h h' : Handler} (hi : s.handlers[i]? = some h)
    (hpaid : h'.weight + 1 ≤ h.weight + c) : (s.put i h').work + 1 ≤ s.work + c := by
  have hput := work_put h' hi
  omega

/-- A send and the move after it, paid for by the handler. -/
theorem spends_deliver {i : ℕ} {h h' : Handler} (hi : s.handlers[i]? = some h)
    (hpaid : h'.weight + q.weight + 1 ≤ h.weight) :
    ((s.push q).put i h').work + 1 ≤ s.work := by
  have hi' : (s.push q).handlers[i]? = some h := by rw [push_handlers, hi]
  have hput := work_put h' hi'
  have hpush := work_push s q
  omega

/-- **A handler's step** is paid for. -/
theorem work_handlerStep {i : ℕ} {h : Handler} {a : HandlerAction} (hi : s.handlers[i]? = some h)
    (hstep : s.handlerStep adaptive i h a = some s') :
    s'.work + 1 ≤ s.work + a.credit adaptive := by
  cases a with
  | written ok =>
    simp only [State.handlerStep] at hstep
    split at hstep <;> cases hstep
    · refine spends_put hi ?_
      cases ok <;> simp [Handler.weight, HandlerAction.credit, weightOf, Queue.weight]
    · refine spends_put hi ?_
      cases ok <;> simp [Handler.weight] <;> omega
    · refine spends_put hi ?_
      cases ok <;> simp [Handler.weight, HandlerAction.credit]
    · exact spends_put hi (Nat.le_refl 3)
  | hear message =>
    simp only [State.handlerStep, Option.ite_none_right_eq_some] at hstep
    obtain ⟨rfl, hstep⟩ := hstep
    simp only [HandlerAction.credit]
    split at hstep <;> cases hstep
    · rename_i q htries
      have htry := work_tryPush s q
      rw [htries, Option.map_some, Option.getD_some]
      omega
    · refine spends_put hi ?_
      rw [weight_afterSend]
      simp only [Handler.weight]
      omega
  | hangUp =>
    obtain ⟨rfl, hstep⟩ := Option.ite_none_right_eq_some.1 hstep
    cases hstep
    exact spends_put hi (Nat.le_of_ble_eq_true rfl)
  | arm =>
    obtain ⟨rfl, hstep⟩ := Option.ite_none_right_eq_some.1 hstep
    cases hstep
    exact spends_put hi (Nat.le_of_ble_eq_true rfl)
  | lag =>
    obtain ⟨rfl, hstep⟩ := Option.ite_none_right_eq_some.1 hstep
    cases hstep
    have htry : (s.tryPush .event).work ≤ s.work + 3 := work_tryPush s .event
    cases adaptive with
    | true => exact Nat.succ_le_succ htry
    | false => exact Nat.add_le_add_left (by decide : 1 ≤ 4) s.work
  | spin =>
    obtain ⟨-, hstep⟩ := Option.ite_none_right_eq_some.1 hstep
    cases hstep
    exact Nat.le_refl _
  | replaced =>
    obtain ⟨rfl, hstep⟩ := Option.ite_none_right_eq_some.1 hstep
    cases hstep
    exact spends_put hi (Nat.le_of_ble_eq_true rfl)
  | away =>
    simp only [State.handlerStep, Option.ite_none_right_eq_some] at hstep
    obtain ⟨⟨rfl, -⟩, hstep⟩ := hstep
    cases hstep
    exact spends_put hi (Nat.le_of_ble_eq_true rfl)
  | deliver =>
    simp only [State.handlerStep] at hstep
    split at hstep
    · obtain ⟨-, hstep⟩ := Option.ite_none_right_eq_some.1 hstep
      cases hstep
      refine spends_deliver hi ?_
      rw [weight_afterSend, Handler.weight, weightOf_cons]
      omega
    · obtain ⟨-, hstep⟩ := Option.ite_none_right_eq_some.1 hstep
      cases hstep
      exact spends_deliver hi (by decide)
    · cases hstep

/-! ## The other parties -/

/-- `main` goes on to another stage. -/
theorem work_main {stage : Main} (hpaid : stage.weight + 1 ≤ s.main.weight) :
    State.work { s with main := stage } + 1 ≤ s.work := by
  simp only [State.work, State.standing, State.queued]
  omega

/-- A message taken off a queue. -/
theorem work_take (h : s.queue q ≠ 0) :
    (s.setQueue q (s.queue q - 1)).work + q.weight = s.work := by
  have htake := queued_take h
  have hstanding : (s.setQueue q (s.queue q - 1)).standing = s.standing := rfl
  simp only [State.work, hstanding]
  omega

/-- **`main`, once the signal is there.** -/
theorem work_loop {rejected : Bool} (hsignal : s.shutdown = true)
    (hstep : s.loop rejected = some s') : s'.work + 1 ≤ s.work := by
  simp only [State.loop, hsignal, if_true, Option.ite_none_left_eq_some, not_not] at hstep
  obtain ⟨hmain, hstep⟩ := hstep
  cases hstep
  refine work_main ?_
  rw [hmain]
  decide

theorem work_drain (hstep : s.drain = some s') : s'.work + 1 ≤ s.work := by
  unfold State.drain at hstep
  split at hstep
  · rename_i device hmain
    split at hstep <;> cases hstep
    · refine work_main ?_
      rw [hmain]
      cases device <;> decide
    · rename_i hqueue
      exact (work_take hqueue).le
  · cases hstep

theorem work_trySendFrame (s : State) : s.trySendFrame.work ≤ s.work + 7 := by
  unfold State.trySendFrame
  split
  · simp only [State.work, State.standing, State.queued]
    omega
  · omega

theorem trySendFrame_main (s : State) : s.trySendFrame.main = s.main := by
  unfold State.trySendFrame
  split <;> rfl

/-- The end of an iteration pays for the frame and the keyframe. -/
theorem work_capture {keyframe frame : Bool} (hstep : s.capture keyframe frame = some s') :
    s'.work + 1 ≤ s.work := by
  obtain ⟨hmain, hstep⟩ := Option.ite_none_right_eq_some.1 hstep
  cases hstep
  have hkeyframe : (if keyframe then s.tryPush .control else s).work ≤ s.work + 1 := by
    split
    · exact work_tryPush s .control
    · exact Nat.le_succ _
  have hmain' : (if keyframe then s.tryPush .control else s).main = .capture := by
    split
    · rw [tryPush_main, hmain]
    · exact hmain
  generalize (if keyframe then s.tryPush .control else s) = t at hkeyframe hmain' ⊢
  have hframe : (if frame then t.trySendFrame else t).work ≤ t.work + 7 := by
    split
    · exact work_trySendFrame t
    · exact Nat.le_add_right _ _
  have hmain'' : (if frame then t.trySendFrame else t).main = .capture := by
    split
    · rw [trySendFrame_main, hmain']
    · exact hmain'
  generalize (if frame then t.trySendFrame else t) = u at hframe hmain'' ⊢
  have hlast : (State.work { u with main := .top }) + 9 = u.work := by
    simp only [State.work, State.standing, State.queued, hmain'', Main.weight]
    omega
  omega

theorem work_join (hstep : s.join = some s') : s'.work + 1 ≤ s.work := by
  unfold State.join at hstep
  split at hstep <;> rename_i hmain
  · obtain ⟨-, hstep⟩ := Option.ite_none_left_eq_some.1 hstep
    cases hstep
    exact work_main (by rw [hmain]; decide)
  · obtain ⟨-, hstep⟩ := Option.ite_none_right_eq_some.1 hstep
    cases hstep
    exact work_main (by rw [hmain]; decide)
  · obtain ⟨-, hstep⟩ := Option.ite_none_right_eq_some.1 hstep
    cases hstep
    exact work_main (by rw [hmain]; decide)
  · cases hstep
    exact work_main (by rw [hmain]; decide)
  · cases hstep

theorem work_timeout (hstep : s.timeout = some s') : s'.work + 1 ≤ s.work := by
  unfold State.timeout at hstep
  split at hstep <;> rename_i hmain <;> cases hstep <;> exact work_main (by rw [hmain]; decide)

/-! ## The encoder thread -/

/-- The encoder thread leaves nothing behind. -/
theorem work_exit (s : State) : s.exit.work + s.encoder.weight ≤ s.work := by
  have hempty := queued_empty s .control
  have hqueued : s.exit.queued = (s.setQueue .control 0).queued := rfl
  have hstanding : s.exit.standing + s.encoder.weight + 7 * s.frames = s.standing := by
    simp only [State.standing, State.exit, State.setQueue, EncoderThread.weight]
    omega
  simp only [State.work, hqueued]
  omega

/-- It goes on to another stage. -/
theorem work_encoder {stage : EncoderThread} (hpaid : stage.weight + 1 ≤ s.encoder.weight + n) :
    State.work { s with encoder := stage } + 1 ≤ s.work + n := by
  simp only [State.work, State.standing, State.queued]
  omega

/-- It takes a frame, which pays for the stages until the next. -/
theorem work_frame (stage : EncoderThread) (hframes : s.frames ≠ 0)
    (hpaid : stage.weight ≤ s.encoder.weight + 6) :
    State.work { s with encoder := stage, frames := s.frames - 1 } + 1 ≤ s.work := by
  simp only [State.work, State.standing, State.queued]
  omega

theorem exit_spends (hencoder : s.encoder.weight ≠ 0) : s.exit.work + 1 ≤ s.work := by
  have hexit := work_exit s
  omega

/-- **The encoder thread's step** is paid for. -/
theorem work_encode {ok : Bool} (hstep : s.encode ok = some s') : s'.work + 1 ≤ s.work := by
  unfold State.encode at hstep
  split at hstep <;> rename_i hencoder
  · split at hstep <;> cases hstep
    · exact work_encoder (n := 0) (by rw [hencoder]; decide)
    · rename_i hqueue
      exact (work_take hqueue).le
  · split at hstep <;> cases hstep
    · exact work_encoder (s := { s with resizing := false }) (n := 0) (by rw [hencoder]; decide)
    · exact work_encoder (n := 0) (by rw [hencoder]; decide)
  · split at hstep
    · cases ok <;> cases hstep
      · exact exit_spends (by rw [hencoder]; decide)
      · exact work_encoder (n := 0) (by rw [hencoder]; decide)
    · rename_i hframes
      cases hstep
      exact work_frame s.encoder hframes (Nat.le_add_right _ _)
  · split at hstep
    · obtain ⟨-, hstep⟩ := Option.ite_none_left_eq_some.1 hstep
      cases hstep
      exact exit_spends (by rw [hencoder]; decide)
    · rename_i hframes
      cases hstep
      exact work_frame _ hframes (by rw [hencoder]; decide)
  · split at hstep
    · cases ok <;> cases hstep
      · exact exit_spends (by rw [hencoder]; decide)
      · exact work_encoder (n := 0) (by rw [hencoder]; decide)
    · rename_i hframes
      cases hstep
      exact work_frame s.encoder hframes (Nat.le_add_right _ _)
  · obtain ⟨hqueue, hstep⟩ := Option.ite_none_left_eq_some.1 hstep
    cases hstep
    exact (work_take hqueue).le
  · cases hstep
    exact work_encoder (n := 0) (by rw [hencoder]; decide)
  · rename_i left
    split at hstep
    · cases hstep
      exact exit_spends (by rw [hencoder]; exact Nat.succ_ne_zero _)
    · obtain ⟨-, hstep⟩ := Option.ite_none_right_eq_some.1 hstep
      cases hstep
      simp only [State.work, State.standing, State.queued, hencoder, EncoderThread.weight]
      omega
  · cases hstep

theorem work_submit (hstep : s.submit n = some s') : s'.work + 1 ≤ s.work + 2 * n := by
  simp only [State.submit, Option.ite_none_right_eq_some] at hstep
  obtain ⟨⟨hencoder, -⟩, hstep⟩ := hstep
  cases hstep
  refine work_encoder ?_
  rw [hencoder]
  simp only [EncoderThread.weight]
  omega

/-! ## Every step -/

theorem work_setApplying (s : State) (applying : Bool) :
    (s.setApplying applying).work + 2 * s.applying.toNat = s.work + 2 * applying.toNat := by
  simp only [State.work, State.standing, State.queued, State.setApplying]
  omega

@[simp] theorem push_shutdown (s : State) (q : Queue) : (s.push q).shutdown = s.shutdown := by
  unfold State.push
  split <;> rfl

@[simp] theorem tryPush_shutdown (s : State) (q : Queue) :
    (s.tryPush q).shutdown = s.shutdown := by
  unfold State.tryPush
  split
  · exact push_shutdown s q
  · rfl

@[simp] theorem trySendFrame_shutdown (s : State) : s.trySendFrame.shutdown = s.shutdown := by
  unfold State.trySendFrame
  split <;> rfl

theorem shutdown_handlerStep {i : ℕ} {h : Handler} {a : HandlerAction}
    (hstep : s.handlerStep adaptive i h a = some s') : s'.shutdown = s.shutdown := by
  cases a <;> simp only [State.handlerStep] at hstep <;> (repeat' split at hstep) <;>
    cases hstep <;> simp [State.put]

theorem shutdown_capture {keyframe frame : Bool} (hstep : s.capture keyframe frame = some s') :
    s'.shutdown = s.shutdown := by
  obtain ⟨-, hstep⟩ := Option.ite_none_right_eq_some.1 hstep
  cases hstep
  cases keyframe <;> cases frame <;> simp

/-- The signal stays. -/
theorem shutdown_step {a : Action} (hsignal : s.shutdown = true)
    (hstep : s.step adaptive a = some s') : s'.shutdown = true := by
  cases a with
  | handler i a =>
    obtain ⟨h, -, hstep⟩ := Option.bind_eq_some_iff.1 hstep
    rw [shutdown_handlerStep hstep, hsignal]
  | capture keyframe frame => rw [shutdown_capture hstep, hsignal]
  | _ =>
    simp only [State.step, State.loop, State.drain, State.join, State.timeout, State.encode,
      State.submit] at hstep
    (repeat' split at hstep) <;> cases hstep <;>
      first | rfl | exact hsignal | exact (push_shutdown s .control).trans hsignal

/-- **Every step is paid for**, once the signal is there. -/
theorem work_step {a : Action} (hsignal : s.shutdown = true)
    (hstep : s.step adaptive a = some s') : s'.work + 1 ≤ s.work + a.credit adaptive := by
  cases a with
  | signal =>
    cases hstep
    exact Nat.le_refl _
  | connect favicon clipboard locked =>
    obtain ⟨-, hstep⟩ := Option.ite_none_right_eq_some.1 hstep
    cases hstep
    simp only [State.work, State.standing, State.queued, List.map_append, List.sum_append,
      List.map_cons, List.map_nil, List.sum_singleton, Handler.weight, Action.credit]
    omega
  | closeListener =>
    simp only [State.step, Option.ite_none_right_eq_some] at hstep
    obtain ⟨⟨haccepting, -⟩, hstep⟩ := hstep
    cases hstep
    simp only [State.work, State.standing, State.queued, haccepting, Bool.toNat_true,
      Bool.toNat_false]
    omega
  | handler i a =>
    obtain ⟨h, hi, hstep⟩ := Option.bind_eq_some_iff.1 hstep
    exact work_handlerStep hi hstep
  | loop rejected => exact (work_loop hsignal hstep).trans (Nat.le_add_right _ _)
  | drain => exact (work_drain hstep).trans (Nat.le_add_right _ _)
  | capture keyframe frame => exact (work_capture hstep).trans (Nat.le_add_right _ _)
  | join => exact (work_join hstep).trans (Nat.le_add_right _ _)
  | timeout => exact (work_timeout hstep).trans (Nat.le_add_right _ _)
  | encode ok => exact (work_encode hstep).trans (Nat.le_add_right _ _)
  | submit packets => exact work_submit hstep
  | forward =>
    simp only [State.step, Option.ite_none_right_eq_some] at hstep
    obtain ⟨⟨-, hpackets⟩, hstep⟩ := hstep
    cases hstep
    simp only [State.work, State.standing, State.queued]
    omega
  | forwardEnds =>
    simp only [State.step, Option.ite_none_right_eq_some] at hstep
    obtain ⟨⟨hforwarding, -⟩, hstep⟩ := hstep
    cases hstep
    simp only [State.work, State.standing, State.queued, hforwarding, Bool.toNat_true,
      Bool.toNat_false]
    omega
  | adapt applies =>
    simp only [State.step, Option.ite_none_right_eq_some] at hstep
    obtain ⟨⟨happlying, hevent⟩, hstep⟩ := hstep
    cases hstep
    have htake : _ + 3 = _ := work_take hevent
    have happly := work_setApplying (s.setQueue .event (s.queue .event - 1)) applies
    have hle := Bool.toNat_le applies
    simp only [Action.credit]
    omega
  | tick =>
    simp only [State.step, Option.ite_none_right_eq_some] at hstep
    obtain ⟨⟨-, happlying⟩, hstep⟩ := hstep
    cases hstep
    have happly := work_setApplying s true
    rw [happlying, Bool.toNat_true, Bool.toNat_false] at happly
    simp only [Action.credit]
    omega
  | apply =>
    simp only [State.step, Option.ite_none_right_eq_some] at hstep
    obtain ⟨⟨happlying, -⟩, hstep⟩ := hstep
    cases hstep
    have hpush : _ ≤ _ + 1 := work_push s .control
    have hdone := work_setApplying (s.push .control) false
    rw [push_applying, happlying, Bool.toNat_true, Bool.toNat_false] at hdone
    simp only [Action.credit]
    omega
  | log =>
    obtain ⟨hlatency, hstep⟩ := Option.ite_none_right_eq_some.1 hstep
    cases hstep
    exact (work_take hlatency).le
  | bridgeEnds =>
    simp only [State.step, Option.ite_none_right_eq_some] at hstep
    obtain ⟨hbridge, hstep⟩ := hstep
    cases hstep
    simp only [State.work, State.standing, State.queued, hbridge, Bool.toNat_true,
      Bool.toNat_false, Action.credit]
    omega

/-- **Work is a potential**, from the signal on. -/
theorem potential (adaptive : Bool) : (machine adaptive).Potential (fun s => s.shutdown = true)
    State.work (Action.credit adaptive) where
  keeps _ _ _ hsignal hstep := shutdown_step hsignal hstep
  spends _ _ _ hsignal hstep := work_step hsignal hstep

/-! ## At rest -/

/-- The handler waits for its client to take what it writes. -/
def Handler.WaitsForClient : Handler → Prop
  | .burst _ | .writing | .leaving => True
  | _ => False

/-- The handler waits for room in an input queue, which is full and which the
main loop does not drain any more. -/
def State.WaitsForRoom (s : State) : Handler → Prop
  | .delivering q _ => ¬ s.Ready q ∧ (q = .resize ∨ ∃ device, q = .input device)
  | .cancelling => ¬ s.Ready (.input .touch)
  | _ => False

/-- **What is left of the server at rest.** -/
structure State.Settled (s : State) : Prop where
  forwarding : s.forwarding = false
  encoder : s.encoder = .exited
  accepting : s.accepting = false
  handlers : ∀ h ∈ s.handlers, h = .ended ∨ h.WaitsForClient ∨ s.WaitsForRoom h
  main : s.main = .done ∨ s.main = .joinServer ∧ ∃ h ∈ s.handlers, h ≠ .ended

/-- The server's own steps are at an end. -/
abbrev Rests (adaptive : Bool) (s : State) : Prop :=
  (machine adaptive).AtRest (fun a => a.isOwn = true) s

section Rest

variable (hrest : Rests adaptive s) (hsignal : s.shutdown = true)
include hrest

include hsignal in
theorem forwarding_of_rest : s.forwarding = false := by
  have hends := hrest .forwardEnds rfl
  cases hforwarding : s.forwarding with
  | false => rfl
  | true => simp [machine, State.step, hforwarding, hsignal] at hends

include hsignal in
theorem accepting_of_rest : s.accepting = false := by
  have hcloses := hrest .closeListener rfl
  cases haccepting : s.accepting with
  | false => rfl
  | true => simp [machine, State.step, haccepting, hsignal] at hcloses

include hsignal in
/-- The loop is left. -/
theorem loops_of_rest : s.main.loops = false := by
  have hloop := hrest (.loop false) rfl
  have hdrain := hrest .drain rfl
  have hcapture := hrest (.capture false false) rfl
  cases hmain : s.main with
  | top => simp [machine, State.step, State.loop, hmain, hsignal] at hloop
  | draining device =>
    simp only [machine, State.step, State.drain, hmain] at hdrain
    split at hdrain <;> cases hdrain
  | capture => simp [machine, State.step, State.capture, hmain] at hcapture
  | _ => rfl

include hsignal in
/-- **The encoder thread has ended**: no sender of frames is left, and no
receiver of packets. -/
theorem encoder_of_rest : s.encoder = .exited := by
  have hforwarding := forwarding_of_rest hrest hsignal
  have hloops := loops_of_rest hrest hsignal
  have hsender : ¬ s.HasSender := by simp [State.HasSender, hforwarding, hloops]
  have hencode := hrest (.encode true) rfl
  have hsubmit := hrest (.submit 0) rfl
  simp only [machine, State.step] at hencode hsubmit
  unfold State.encode at hencode
  split at hencode <;> rename_i hencoder
  · split at hencode <;> cases hencode
  · split at hencode <;> cases hencode
  · split at hencode <;> cases hencode
  · rw [if_neg hsender] at hencode
    split at hencode <;> cases hencode
  · split at hencode <;> cases hencode
  · split at hencode
    · rename_i hcontrol
      simp [State.submit, hencoder, hcontrol] at hsubmit
    · cases hencode
  · cases hencode
  · simp [hforwarding] at hencode
  · exact hencoder

include hsignal in
/-- The controller and the log have taken what there was. -/
theorem ready_of_rest (hq : q ≠ .resize) (hinput : ∀ device, q ≠ .input device) : s.Ready q := by
  have hcontrol : s.Ready .control := fun hopen => absurd (encoder_of_rest hrest hsignal) hopen
  cases q with
  | resize => exact absurd rfl hq
  | input device => exact absurd rfl (hinput device)
  | control => exact hcontrol
  | event =>
    have happly := hrest .apply rfl
    have hadapt := hrest (.adapt false) rfl
    have happlying : s.applying = false := by
      cases happlying : s.applying with
      | false => rfl
      | true => simp [machine, State.step, happlying, hcontrol] at happly
    have hempty : s.queue .event = 0 := by simpa [machine, State.step, happlying] using hadapt
    intro _
    rw [hempty]
    decide
  | latency =>
    have hlog := hrest .log rfl
    have hempty : s.queue .latency = 0 := by simpa [machine, State.step] using hlog
    intro _
    rw [hempty]
    decide

include hsignal in
/-- **A handler has ended or waits**, for its client or for an input queue. -/
theorem handler_of_rest {h : Handler} (hmem : h ∈ s.handlers) :
    h = .ended ∨ h.WaitsForClient ∨ s.WaitsForRoom h := by
  obtain ⟨i, hi⟩ := List.mem_iff_getElem?.1 hmem
  have haway := hrest (.handler i .away) rfl
  have hdeliver := hrest (.handler i .deliver) rfl
  simp only [machine, State.step, hi, Option.bind_some, State.handlerStep] at haway hdeliver
  cases h with
  | burst left => exact .inr (.inl trivial)
  | delivering q rest =>
    simp only [ite_eq_right_iff, reduceCtorEq, imp_false] at hdeliver
    refine .inr (.inr ⟨hdeliver, ?_⟩)
    by_contra hother
    rw [not_or, not_exists] at hother
    exact hdeliver (ready_of_rest hrest hsignal hother.1 hother.2)
  | serving => simp [hsignal] at haway
  | writing => exact .inr (.inl trivial)
  | leaving => exact .inr (.inl trivial)
  | cancelling =>
    simp only [ite_eq_right_iff, reduceCtorEq, imp_false] at hdeliver
    exact .inr (.inr hdeliver)
  | ended => exact .inl rfl

include hsignal in
/-- **`main` waits for handlers**, if for anything. -/
theorem main_of_rest : s.main = .done ∨ s.main = .joinServer ∧ ∃ h ∈ s.handlers, h ≠ .ended := by
  have hloops := loops_of_rest hrest hsignal
  have hjoin := hrest .join rfl
  simp only [machine, State.step, State.join] at hjoin
  cases hmain : s.main with
  | joinForward => simp [hmain, forwarding_of_rest hrest hsignal] at hjoin
  | joinEncoder => simp [hmain, encoder_of_rest hrest hsignal] at hjoin
  | joinServer =>
    refine .inr ⟨rfl, ?_⟩
    simpa [hmain, accepting_of_rest hrest hsignal] using hjoin
  | joinSession => simp [hmain] at hjoin
  | done => exact .inl rfl
  | _ => simp [hmain, Main.loops] at hloops

include hsignal in
/-- At rest the server is settled. -/
theorem settled_of_rest : s.Settled where
  forwarding := forwarding_of_rest hrest hsignal
  encoder := encoder_of_rest hrest hsignal
  accepting := accepting_of_rest hrest hsignal
  handlers _ hmem := handler_of_rest hrest hsignal hmem
  main := main_of_rest hrest hsignal

end Rest

theorem credit_of_isOwn {a : Action} (h : a.isOwn = true) : a.credit adaptive = 0 := by
  cases a with
  | handler i a => cases a <;> first | rfl | cases h
  | submit packets => cases packets <;> first | rfl | cases h
  | _ => first | rfl | cases h

/-- **The shutdown comes to rest, and what is left waits for the clients.**
From the signal on, whatever is queued and wherever the parties stand:
no schedule is longer than the work there is and what comes from outside
while it runs; by its own steps the server comes to rest, without a
timeout; and wherever it rests, the forwarding task and the encoder
thread have ended, and so has each handler that waits neither for its
client nor for room in a full input queue. -/
theorem comes_to_rest (hsignal : s.shutdown = true) :
    (∀ acts s', (machine adaptive).exec s acts = some s' →
      acts.length + s'.work ≤ s.work + (acts.map (Action.credit adaptive)).sum) ∧
    (∃ acts s', (machine adaptive).Run (fun _ a => a.isOwn = true) s acts s' ∧
      Rests adaptive s') ∧
    ∀ acts s', (machine adaptive).exec s acts = some s' → Rests adaptive s' → s'.Settled := by
  refine ⟨fun acts s' hexec => (potential adaptive).length_le hsignal hexec, ?_,
    fun acts s' hexec hrest => ?_⟩
  · obtain ⟨acts, s', hrun, hrest, -⟩ :=
      (potential adaptive).exists_atRest (fun a ha => credit_of_isOwn ha) hsignal
    exact ⟨acts, s', hrun, hrest⟩
  · exact settled_of_rest hrest ((potential adaptive).keeps_exec hsignal hexec)

/-- A client resizes five times before the main loop takes one, and the
signal comes. -/
def fiveResizes : List Action :=
  [.connect false false false] ++ List.replicate 4 (.handler 0 (.written true)) ++
    [.handler 0 .deliver] ++
    (List.replicate 4 [.handler 0 (.hear .resize), .handler 0 .deliver]).flatten ++
    [.handler 0 (.hear .resize), .signal]

/-- What the server then does by itself. -/
def untilRest : List Action :=
  [.forwardEnds, .closeListener, .loop false, .join, .encode true, .encode true, .encode true,
    .encode true, .join]

/-- **A handler may be left waiting**: for room for the fifth request. -/
theorem comes_to_rest_fiveResizes : ∃ s s' : State, (machine true).Reachable s ∧
    (machine true).exec s untilRest = some s' ∧ s'.Settled ∧ s'.main = .joinServer ∧
      s'.handlers = [.delivering .resize []] := by
  have hrun : ∃ s s', (machine true).exec initial fiveResizes = some s ∧ s.shutdown = true ∧
      (machine true).exec s untilRest = some s' ∧ Rests true s' ∧ s'.main = .joinServer ∧
        s'.handlers = [.delivering .resize []] := by
    refine ⟨_, _, rfl, rfl, rfl, fun a ha => ?_, rfl, rfl⟩
    cases a with
    | handler i a =>
      cases i with
      | zero => cases a <;> rfl
      | succ i => rfl
    | submit packets => rfl
    | _ => first | rfl | cases ha
  obtain ⟨s, s', hexec, hsignal, hrest, hrests, hmain, hhandlers⟩ := hrun
  exact ⟨s, s', Machine.reach_of_exec _ (.start rfl) hexec, hrest,
    (comes_to_rest hsignal).2.2 untilRest s' hrest hrests, hmain, hhandlers⟩

end Shutdown

end WaylandWebStream
