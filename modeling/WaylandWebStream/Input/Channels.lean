import Mathlib.Logic.Function.Basic
import WaylandWebStream.Lib.Machine
import WaylandWebStream.Input.TouchStream

/-!
# Input — from the sockets to the seat

One ordered socket per connection is fanned out into three bounded
channels the connections share, and the render loop drains them one
after the other: touch until it is empty, then the pointer, then keys.
A move that finds its channel full is dropped; anything else waits, and
so does the cancel a connection's teardown sends.

The steps of the handlers and of the loop interleave freely. `log` is
what the handlers have dispatched, in order, and `injected` what the loop
has taken; neither is read by a step.
-/

namespace WaylandWebStream

namespace Input

/-- The three channels. -/
inductive Device
  | touch
  | pointer
  | key
  deriving DecidableEq

/-- A client's input message. -/
inductive InputMessage
  | touch (event : TouchEvent)
  | pointer (event : MouseEvent)
  | key (event : KeyboardEvent)
  deriving DecidableEq

namespace InputMessage

/-- The channel a message goes to. -/
def device : InputMessage → Device
  | touch _ => .touch
  | pointer _ => .pointer
  | key _ => .key

/-- The messages sent with `try_send`: touch and pointer moves. -/
def isMove : InputMessage → Bool
  | touch (.touchmove _) | pointer (.move _) => true
  | _ => false

end InputMessage

/-- The channels' capacities. -/
def capacity : Device → ℕ
  | .touch => 32
  | .pointer => 64
  | .key => 64

/-- A dispatched message: the connection it came from, whether a channel
took it, and how many drain passes had begun and ended by then. -/
structure Entry where
  conn : ℕ
  message : InputMessage
  accepted : Bool
  begun : ℕ
  ended : ℕ
  deriving DecidableEq

/-- The handlers the loop feeds. -/
structure Handlers where
  touch : TouchHandler
  mouse : Dimensions

namespace Handlers

/-- Both handlers for an output. -/
def new (d : Dimensions) : Handlers := ⟨.new d, d⟩

/-- A message handled. -/
def handle (h : Handlers) : InputMessage → Handlers × List SeatCall
  | .touch event => ({ h with touch := (h.touch.handleEvent event).1 }, (h.touch.handleEvent event).2)
  | .pointer event => (h, mouseHandleEvent h.mouse event)
  | .key event => (h, keyboardHandleEvent event)

/-- Messages handled in turn, and the seat their calls leave. -/
def inject (hs : Handlers × Seat) (messages : List InputMessage) : Handlers × Seat :=
  messages.foldl (fun hs m => ((hs.1.handle m).1, hs.2.run (hs.1.handle m).2)) hs

end Handlers

/-- Where a connection stands; its identity is its generation. -/
inductive Phase
  /-- Not accepted yet. -/
  | absent
  /-- Accepted, not in its loop. -/
  | greeting
  /-- In the loop that receives messages. -/
  | serving
  /-- Out of the loop: kicked, dropped or shut down. -/
  | closing
  /-- Over. -/
  | gone
  deriving DecidableEq

/-- The connections, the channels and the loop. -/
structure State where
  generation : ℕ
  phase : ℕ → Phase
  channel : Device → List Entry
  /-- The channel the loop is draining, if it is draining. -/
  stage : Option Device
  handlers : Handlers
  seat : Seat
  begun : ℕ
  ended : ℕ
  log : List Entry
  injected : List Entry

/-- The steps of the connections' handlers and of the render loop. -/
inductive Action
  /-- A connection is accepted. -/
  | connect
  /-- A connection enters its loop. -/
  | serve (i : ℕ)
  /-- A connection's handler returns before its loop. -/
  | refuse (i : ℕ)
  /-- A connection receives and dispatches an input message. -/
  | receive (i : ℕ) (message : InputMessage)
  /-- A connection leaves its loop. -/
  | leave (i : ℕ)
  /-- A connection's teardown: the touch cancel. -/
  | teardown (i : ℕ)
  /-- The loop begins a drain pass. -/
  | beginPass
  /-- The loop takes a message from the channel it is draining. -/
  | take
  /-- The loop finds that channel empty. -/
  | advance

namespace State

variable (s : State)

/-- The entry of a message dispatched now. -/
def entry (i : ℕ) (message : InputMessage) (accepted : Bool) : Entry :=
  ⟨i, message, accepted, s.begun, s.ended⟩

/-- A message put in its channel. -/
def enqueue (e : Entry) : State :=
  { s with
    channel := Function.update s.channel e.message.device (s.channel e.message.device ++ [e])
    log := s.log ++ [e] }

/-- A message dropped. -/
def drop (e : Entry) : State := { s with log := s.log ++ [e] }

/-- The input arms of `dispatch_signaling_message`: `try_send` for a
move, `send` for the rest, which waits while the channel is full. -/
def dispatch (i : ℕ) (message : InputMessage) : Option State :=
  if (s.channel message.device).length < capacity message.device then
    some (s.enqueue (s.entry i message true))
  else if message.isMove then some (s.drop (s.entry i message false))
  else none

/-- A connection in another phase. -/
def setPhase (i : ℕ) (p : Phase) : State := { s with phase := Function.update s.phase i p }

/-- The message taken from the channel being drained. -/
def inject (device : Device) (e : Entry) (rest : List Entry) : State :=
  { s with
    channel := Function.update s.channel device rest
    handlers := (s.handlers.handle e.message).1
    seat := s.seat.run (s.handlers.handle e.message).2
    injected := s.injected ++ [e] }

/-- The loop past a channel it has emptied. -/
def passed : Device → State
  | .touch => { s with stage := some .pointer }
  | .pointer => { s with stage := some .key }
  | .key => { s with stage := none, ended := s.ended + 1 }

/-- One step of a handler or of the loop. -/
def step : Action → Option State
  | .connect =>
    some ({ s with generation := s.generation + 1 }.setPhase (s.generation + 1) .greeting)
  | .serve i => if s.phase i = .greeting then some (s.setPhase i .serving) else none
  | .refuse i => if s.phase i = .greeting then some (s.setPhase i .gone) else none
  | .receive i message => if s.phase i = .serving then s.dispatch i message else none
  | .leave i => if s.phase i = .serving then some (s.setPhase i .closing) else none
  | .teardown i =>
    if s.phase i = .closing then
      (s.dispatch i (.touch (.touchcancel []))).map fun s' => s'.setPhase i .gone
    else none
  | .beginPass =>
    if s.stage = none then some { s with stage := some .touch, begun := s.begun + 1 } else none
  | .take =>
    match s.stage with
    | none => none
    | some device =>
      match s.channel device with
      | [] => none
      | e :: rest => some (s.inject device e rest)
  | .advance =>
    match s.stage with
    | none => none
    | some device => if s.channel device = [] then some (s.passed device) else none

/-- Every channel is empty. -/
def Drained : Prop := ∀ device, s.channel device = []

/-- Every connection has ended. -/
def Deserted : Prop := ∀ i, s.phase i = .absent ∨ s.phase i = .gone

end State

/-- No connection yet, nothing queued, nothing held. -/
def initial (d : Dimensions) : State where
  generation := 0
  phase _ := .absent
  channel _ := []
  stage := none
  handlers := .new d
  seat := .new
  begun := 0
  ended := 0
  log := []
  injected := []

/-- The whole input path, for an output of the given size. -/
def machine (d : Dimensions) : Machine State Action where
  init s := s = initial d
  step := State.step

/-! ## The transitions -/

/-- **The transitions**, by what they do to the channels. -/
inductive Trans (s : State) : Action → State → Prop
  | connect : Trans s .connect
      ({ s with generation := s.generation + 1 }.setPhase (s.generation + 1) .greeting)
  | serve {i} (hphase : s.phase i = .greeting) : Trans s (.serve i) (s.setPhase i .serving)
  | refuse {i} (hphase : s.phase i = .greeting) : Trans s (.refuse i) (s.setPhase i .gone)
  | queued {i message} (hphase : s.phase i = .serving)
      (hroom : (s.channel message.device).length < capacity message.device) :
      Trans s (.receive i message) (s.enqueue (s.entry i message true))
  | dropped {i message} (hphase : s.phase i = .serving)
      (hfull : capacity message.device ≤ (s.channel message.device).length)
      (hmove : message.isMove) :
      Trans s (.receive i message) (s.drop (s.entry i message false))
  | leave {i} (hphase : s.phase i = .serving) : Trans s (.leave i) (s.setPhase i .closing)
  | teardown {i} (hphase : s.phase i = .closing)
      (hroom : (s.channel .touch).length < capacity .touch) :
      Trans s (.teardown i)
        ((s.enqueue (s.entry i (.touch (.touchcancel [])) true)).setPhase i .gone)
  | beginPass (hstage : s.stage = none) :
      Trans s .beginPass { s with stage := some .touch, begun := s.begun + 1 }
  | take {device e rest} (hstage : s.stage = some device) (hchannel : s.channel device = e :: rest) :
      Trans s .take (s.inject device e rest)
  | advance {device} (hstage : s.stage = some device) (hchannel : s.channel device = []) :
      Trans s .advance (s.passed device)

variable {s s' : State} {a : Action} {d : Dimensions} {i : ℕ} {message : InputMessage}

/-- What a dispatch does. -/
theorem dispatch_cases (h : s.dispatch i message = some s') :
    ((s.channel message.device).length < capacity message.device ∧
      s' = s.enqueue (s.entry i message true)) ∨
    (capacity message.device ≤ (s.channel message.device).length ∧ message.isMove ∧
      s' = s.drop (s.entry i message false)) := by
  unfold State.dispatch at h
  split_ifs at h with hroom hmove
  · exact .inl ⟨hroom, (Option.some.inj h).symm⟩
  · exact .inr ⟨not_lt.1 hroom, hmove, (Option.some.inj h).symm⟩

/-- Every step is one of the transitions. -/
theorem trans_of_step (h : s.step a = some s') : Trans s a s' := by
  cases a with
  | connect => obtain rfl := Option.some.inj h; exact .connect
  | serve i =>
    simp only [State.step] at h
    split_ifs at h with hphase
    obtain rfl := Option.some.inj h
    exact .serve hphase
  | refuse i =>
    simp only [State.step] at h
    split_ifs at h with hphase
    obtain rfl := Option.some.inj h
    exact .refuse hphase
  | receive i message =>
    simp only [State.step] at h
    split_ifs at h with hphase
    obtain ⟨hroom, rfl⟩ | ⟨hfull, hmove, rfl⟩ := dispatch_cases h
    · exact .queued hphase hroom
    · exact .dropped hphase hfull hmove
  | leave i =>
    simp only [State.step] at h
    split_ifs at h with hphase
    obtain rfl := Option.some.inj h
    exact .leave hphase
  | teardown i =>
    simp only [State.step] at h
    split_ifs at h with hphase
    obtain ⟨t, ht, rfl⟩ := Option.map_eq_some_iff.1 h
    obtain ⟨hroom, rfl⟩ | ⟨-, hmove, -⟩ := dispatch_cases ht
    · exact .teardown hphase hroom
    · -- the teardown awaits room: its cancel is no move
      cases hmove
  | beginPass =>
    simp only [State.step] at h
    split_ifs at h with hstage
    obtain rfl := Option.some.inj h
    exact .beginPass hstage
  | take =>
    simp only [State.step] at h
    split at h
    · cases h
    · rename_i device hstage
      split at h
      · cases h
      · rename_i e rest hchannel
        obtain rfl := Option.some.inj h
        exact .take hstage hchannel
  | advance =>
    simp only [State.step] at h
    split at h
    · cases h
    · rename_i device hstage
      split_ifs at h with hchannel
      obtain rfl := Option.some.inj h
      exact .advance hstage hchannel

/-! ## Nothing is lost but moves -/

/-- The entry is for the channel, and the channel took it. -/
def Entry.queuedIn (device : Device) (e : Entry) : Bool :=
  e.accepted && (e.message.device == device)

/-- The entry is for the channel. -/
def Entry.goesTo (device : Device) (e : Entry) : Bool := e.message.device == device

theorem filter_goesTo_accepted (device : Device) (l : List Entry) :
    (l.filter Entry.accepted).filter (Entry.goesTo device) = l.filter (Entry.queuedIn device) := by
  rw [List.filter_filter]
  refine List.filter_congr fun e _ => ?_
  rw [Bool.and_comm]
  rfl

/-- **The account of the channels.** What a channel took is what the loop
has taken from it, then what it holds; what was not taken was a move; and
the seat is what the messages injected make of it. -/
structure Accounted (d : Dimensions) (s : State) : Prop where
  channel_eq : ∀ device,
    s.log.filter (Entry.queuedIn device) = s.injected.filter (Entry.goesTo device) ++ s.channel device
  of_device : ∀ device, ∀ e ∈ s.channel device, e.message.device = device
  dropped_move : ∀ e ∈ s.log, e.accepted = false → e.message.isMove
  seat_eq : (s.handlers, s.seat) =
    Handlers.inject (.new d, .new) (s.injected.map (·.message))

/-- A message put in a channel. -/
theorem Accounted.enqueue (h : Accounted d s) (e : Entry) (haccepted : e.accepted = true) :
    Accounted d (s.enqueue e) := by
  refine ⟨fun device => ?_, fun device f hf => ?_, fun f hf hno => ?_, h.seat_eq⟩
  · -- the new entry ends its own channel and the account of that channel; the others stay
    have hold := h.channel_eq device
    by_cases hdevice : e.message.device = device
    · subst hdevice
      simp [State.enqueue, List.filter_append, hold, Entry.queuedIn, haccepted]
    · have hother : device ≠ e.message.device := fun heq => hdevice heq.symm
      simp [State.enqueue, List.filter_append, hold, Entry.queuedIn, hdevice, hother]
  · by_cases hdevice : device = e.message.device
    · subst hdevice
      simp only [State.enqueue, Function.update_self, List.mem_append, List.mem_singleton] at hf
      rcases hf with hf | rfl
      · exact h.of_device _ f hf
      · rfl
    · simp only [State.enqueue, Function.update_of_ne hdevice] at hf
      exact h.of_device device f hf
  · simp only [State.enqueue, List.mem_append, List.mem_singleton] at hf
    rcases hf with hf | rfl
    · exact h.dropped_move f hf hno
    · rw [haccepted] at hno
      cases hno

/-- A move dropped. -/
theorem Accounted.drop (h : Accounted d s) (e : Entry) (haccepted : e.accepted = false)
    (hmove : e.message.isMove) : Accounted d (s.drop e) := by
  refine ⟨fun device => ?_, h.of_device, fun f hf hno => ?_, h.seat_eq⟩
  · have hold := h.channel_eq device
    simp [State.drop, List.filter_append, hold, Entry.queuedIn, haccepted]
  · simp only [State.drop, List.mem_append, List.mem_singleton] at hf
    rcases hf with hf | rfl
    · exact h.dropped_move f hf hno
    · exact hmove

/-- A message taken. -/
theorem Accounted.inject (h : Accounted d s) {device : Device} {e : Entry} {rest : List Entry}
    (hchannel : s.channel device = e :: rest) : Accounted d (s.inject device e rest) := by
  have hdevice : e.message.device = device := h.of_device device e (by simp [hchannel])
  refine ⟨fun dev => ?_, fun dev f hf => ?_, h.dropped_move, ?_⟩
  · have hold := h.channel_eq dev
    by_cases hdev : dev = device
    · subst hdev
      rw [hchannel] at hold
      simp [State.inject, List.filter_append, hold, Entry.goesTo, hdevice]
    · have hother : e.message.device ≠ dev := fun heq => hdev (heq.symm.trans hdevice)
      simp [State.inject, List.filter_append, hold, Entry.goesTo, hother, hdev]
  · by_cases hdev : dev = device
    · subst hdev
      simp only [State.inject, Function.update_self] at hf
      exact h.of_device dev f (by rw [hchannel]; exact List.mem_cons_of_mem _ hf)
    · simp only [State.inject, Function.update_of_ne hdev] at hf
      exact h.of_device dev f hf
  · -- what is injected is handled at once, so the seat follows the list entry by entry
    have hold := h.seat_eq
    simp only [Handlers.inject] at hold
    simp only [State.inject, Handlers.inject, List.map_append, List.map_cons, List.map_nil,
      List.foldl_append, ← hold, List.foldl_cons, List.foldl_nil]

/-- Every step keeps the account. -/
theorem Accounted.step (h : Accounted d s) (hstep : s.step a = some s') : Accounted d s' := by
  cases trans_of_step hstep with
  | connect => exact ⟨h.channel_eq, h.of_device, h.dropped_move, h.seat_eq⟩
  | serve _ => exact ⟨h.channel_eq, h.of_device, h.dropped_move, h.seat_eq⟩
  | refuse _ => exact ⟨h.channel_eq, h.of_device, h.dropped_move, h.seat_eq⟩
  | queued _ _ => exact h.enqueue _ rfl
  | dropped _ _ hmove => exact h.drop _ rfl hmove
  | leave _ => exact ⟨h.channel_eq, h.of_device, h.dropped_move, h.seat_eq⟩
  | @teardown i _ _ =>
    have hqueued := h.enqueue (s.entry i (.touch (.touchcancel [])) true) rfl
    exact ⟨hqueued.channel_eq, hqueued.of_device, hqueued.dropped_move, hqueued.seat_eq⟩
  | beginPass _ => exact ⟨h.channel_eq, h.of_device, h.dropped_move, h.seat_eq⟩
  | take _ hchannel => exact h.inject hchannel
  | @advance device _ _ =>
    cases device <;> exact ⟨h.channel_eq, h.of_device, h.dropped_move, h.seat_eq⟩

/-- **In every run the account holds.** -/
theorem accounted (h : (machine d).Reachable s) : Accounted d s := by
  refine Machine.Reachable.invariant ?_ (fun s a s' hstep hs => Accounted.step hs hstep) h
  rintro s rfl
  exact ⟨fun _ => rfl, fun _ _ he => absurd he List.not_mem_nil,
    fun _ he => absurd he List.not_mem_nil, rfl⟩

/-- Drained, a channel has passed on everything it took. -/
theorem Accounted.injected_eq (h : Accounted d s) (hdrained : s.Drained) (device : Device) :
    s.injected.filter (Entry.goesTo device) = s.log.filter (Entry.queuedIn device) := by
  rw [h.channel_eq device, hdrained device, List.append_nil]

end Input

end WaylandWebStream
