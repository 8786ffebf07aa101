import WaylandWebStream.Bitrate.Reports
import WaylandWebStream.Input.Channels
import WaylandWebStream.Lib.Machine
import WaylandWebStream.Pipeline.Model

/-!
# The server's parties — who waits for whom

The main loop, the encoder thread, the forwarding task, the bitrate
controller and the connections' handlers hand each other what they make
through bounded queues, and a send to a full queue waits. This is the
whole of the waiting, while the server runs and while it shuts down: what
is sent is left out, but for how much of it there is. A queue whose
receiver is gone takes nothing and keeps no one waiting.
-/

namespace WaylandWebStream

namespace Shutdown

open Input (Device)

/-! ## The queues -/

/-- The queues a handler or the controller sends to. -/
inductive Queue
  | resize
  | input (device : Device)
  | control
  /-- `bitrate_event_tx`. -/
  | event
  | latency
  deriving DecidableEq

/-- The capacities `main` and `spawn_encoder` make them with. -/
def Queue.capacity : Queue → ℕ
  | .resize => 4
  | .input device => Input.capacity device
  | .control => Pipeline.controlCapacity
  | .event => Bitrate.eventCapacity
  | .latency => 16

/-- The packet queue's capacity. -/
def packetCapacity : ℕ := 16

/-- A client's message, as far as its dispatch depends on it. -/
inductive Signal
  | ready
  | resize
  | touch (isMove : Bool)
  | pointer (isMove : Bool)
  | key
  | clipboard
  /-- `honoured` where the cooldown is over. -/
  | requestKeyframe (honoured : Bool)
  | ping
  /-- `decoding` where there is a decode latency, `bursty` where there are
  enough bursts. -/
  | latency (decoding bursty : Bool)
  deriving DecidableEq

namespace Signal

/-- The queue a move goes to by `try_send`. -/
def tries : Signal → Option Queue
  | .touch true => some (.input .touch)
  | .pointer true => some (.input .pointer)
  | _ => none

/-- `dispatch_signaling_message`: the queues a message goes to by `send`, in
order. There is an event queue only with adaptive bitrate. -/
def sends (adaptive : Bool) : Signal → List Queue
  | .resize => [.resize]
  | .touch false => [.input .touch]
  | .pointer false => [.input .pointer]
  | .key => [.input .key]
  | .requestKeyframe true => [.control]
  | .latency decoding bursty =>
    (if adaptive && decoding then [.event] else []) ++
      (if adaptive && bursty then [.event] else []) ++ [.latency]
  | _ => []

end Signal

/-! ## The parties -/

/-- Where a connection's handler stands. -/
inductive Handler
  /-- Writes a message of the connect burst, with so many after it. -/
  | burst (left : ℕ)
  /-- Waits to send to a queue, and to others then. -/
  | delivering (queue : Queue) (rest : List Queue)
  /-- At the `select!`. -/
  | serving
  /-- Writes what one of the arms has to send. -/
  | writing
  /-- Writes the close frame. -/
  | leaving
  /-- Out of the loop: waits to send the touch cancel. -/
  | cancelling
  | ended
  deriving DecidableEq

/-- Where the encoder thread stands. -/
inductive EncoderThread
  /-- Drains the control queue. -/
  | control
  /-- Looks for a resize. -/
  | resize
  /-- Drains the frames of the old size, then reinitializes. -/
  | flushing
  /-- In `blocking_recv`. -/
  | receiving
  /-- `skip_to_newest_frame`. -/
  | skipping
  /-- Has a frame, and drains the control queue again. -/
  | holding
  /-- Sends the packets it got. -/
  | sending (left : ℕ)
  | exited
  deriving DecidableEq

/-- Where `main` stands: in the loop, or at one of the steps of the
shutdown that are bounded by a timeout. -/
inductive Main
  | top
  | draining (device : Device)
  | capture
  | joinForward
  | joinEncoder
  | joinServer
  | joinSession
  | done
  deriving DecidableEq

/-- The loop is not left, nor its frame sender dropped. -/
def Main.loops : Main → Bool
  | .top | .draining _ | .capture => true
  | _ => false

/-- The server. -/
structure State where
  shutdown : Bool
  main : Main
  encoder : EncoderThread
  /-- The forwarding task has its `EncoderHandle`. -/
  forwarding : Bool
  /-- `axum::serve` accepts connections. -/
  accepting : Bool
  handlers : List Handler
  /-- The controller waits to send a rate. -/
  applying : Bool
  /-- The clipboard bridge is there, which has the sender of its watch. -/
  bridge : Bool
  frames : ℕ
  packets : ℕ
  /-- The resize watch has a value the encoder thread has not seen. -/
  resizing : Bool
  queue : Queue → ℕ

/-- What happens to a handler. -/
inductive HandlerAction
  /-- The socket has taken what it writes, or failed. -/
  | written (ok : Bool)
  /-- It reads a message. -/
  | hear (message : Signal)
  /-- The socket is closed. -/
  | hangUp
  /-- An arm has something to write. -/
  | arm
  /-- It lags behind the video. -/
  | lag
  /-- An arm whose sender is gone. -/
  | spin
  /-- There is a newer client. -/
  | replaced
  /-- The server is shutting down. -/
  | away
  /-- The send it waits for goes through. -/
  | deliver
  deriving DecidableEq

/-- The steps of the parties, and what comes from outside. -/
inductive Action
  /-- Ctrl+C, a SIGTERM or the end of the session's child. -/
  | signal
  /-- A client connects: which parts of the burst depend on a value. -/
  | connect (favicon clipboard locked : Bool)
  /-- The server stops to accept connections. -/
  | closeListener
  | handler (i : ℕ) (a : HandlerAction)
  /-- `main` at the top of its loop, where a resize may be too small. -/
  | loop (rejected : Bool)
  /-- A turn of its input drains. -/
  | drain
  /-- The end of an iteration: a keyframe may be asked for, and a frame sent. -/
  | capture (keyframe frame : Bool)
  /-- `main` has what it waits for. -/
  | join
  /-- Or is tired of waiting. -/
  | timeout
  /-- The encoder thread; `ok` where it does not fail to reinitialize. -/
  | encode (ok : Bool)
  /-- A submit returns so many packets. -/
  | submit (packets : ℕ)
  | forward
  /-- The forwarding task ends. -/
  | forwardEnds
  /-- The controller takes an event, and may have a rate to apply. -/
  | adapt (applies : Bool)
  /-- A tick with a rate to apply. -/
  | tick
  | apply
  /-- The latency log takes a report. -/
  | log
  | bridgeEnds
  deriving DecidableEq

namespace State

variable (s : State)

/-- The receiver is there. -/
def IsOpen : Queue → Prop
  | .control => s.encoder ≠ .exited
  | .resize | .input _ => s.main ≠ .done
  | .event | .latency => True

instance : DecidablePred s.IsOpen
  | .control => inferInstanceAs (Decidable (_ ≠ _))
  | .resize | .input _ => inferInstanceAs (Decidable (_ ≠ _))
  | .event | .latency => inferInstanceAs (Decidable True)

/-- A send does not wait: there is room, or no one to take it. -/
def Ready (q : Queue) : Prop := s.IsOpen q → s.queue q < q.capacity

instance : DecidablePred s.Ready := fun _ => inferInstanceAs (Decidable (_ → _))

/-- A queue with so many messages. -/
def setQueue (q : Queue) (n : ℕ) : State := { s with queue := Function.update s.queue q n }

/-- `send`, once it does not wait. -/
def push (q : Queue) : State := if s.IsOpen q then s.setQueue q (s.queue q + 1) else s

/-- `try_send`. -/
def tryPush (q : Queue) : State := if s.Ready q then s.push q else s

/-- The controller has a rate to send, or no more. -/
def setApplying (applying : Bool) : State := { s with applying }

/-- A handler moves on. -/
def put (i : ℕ) (h : Handler) : State := { s with handlers := s.handlers.set i h }

/-- Some sender of frames is there: that of the loop, or that of the handle. -/
def HasSender : Prop := s.main.loops = true ∨ s.forwarding = true

instance : Decidable s.HasSender := inferInstanceAs (Decidable (_ ∨ _))

/-! ## The steps -/

/-- Where a handler goes after a send. -/
def afterSend : List Queue → Handler
  | [] => .serving
  | q :: rest => .delivering q rest

/-- `unified_client_handler`. -/
def handlerStep (adaptive : Bool) (i : ℕ) (h : Handler) : HandlerAction → Option State
  | .written ok =>
    match h with
    | .burst 0 => some (s.put i (if ok then .delivering .control [] else .ended))
    | .burst (left + 1) => some (s.put i (if ok then .burst left else .ended))
    | .writing => some (s.put i (if ok then .serving else .cancelling))
    | .leaving => some (s.put i .cancelling)
    | _ => none
  | .hear message =>
    if h = .serving then
      match message.tries with
      | some q => some (s.tryPush q)
      | none => some (s.put i (afterSend (message.sends adaptive)))
    else none
  | .hangUp => if h = .serving then some (s.put i .cancelling) else none
  | .arm => if h = .serving then some (s.put i .writing) else none
  | .lag =>
    if h = .serving then some (if adaptive then s.tryPush .event else s) else none
  | .spin =>
    if h = .serving ∧ (s.encoder = .exited ∨ s.bridge = false) then some s else none
  | .replaced => if h = .serving then some (s.put i .leaving) else none
  | .away => if h = .serving ∧ s.shutdown = true then some (s.put i .leaving) else none
  | .deliver =>
    match h with
    | .delivering q rest => if s.Ready q then some ((s.push q).put i (afterSend rest)) else none
    | .cancelling =>
      if s.Ready (.input .touch) then some ((s.push (.input .touch)).put i .ended) else none
    | _ => none

/-- The drain after one that is done. -/
def afterDrain : Device → Main
  | .touch => .draining .pointer
  | .pointer => .draining .key
  | .key => .capture

/-- The top of the loop: out of it, or through the resize request. -/
def loop (rejected : Bool) : Option State :=
  if s.main ≠ .top then none
  else if s.shutdown then some { s with main := .joinForward }
  else if s.queue .resize = 0 then some { s with main := .draining .touch }
  else if rejected then some (s.setQueue .resize (s.queue .resize - 1))
  else some { s.setQueue .resize (s.queue .resize - 1) with
    main := .draining .touch
    resizing := true }

def drain : Option State :=
  match s.main with
  | .draining device =>
    if s.queue (.input device) = 0 then some { s with main := afterDrain device }
    else some (s.setQueue (.input device) (s.queue (.input device) - 1))
  | _ => none

/-- `frame_sender.try_send`. -/
def trySendFrame : State :=
  if s.encoder ≠ .exited ∧ s.frames < Pipeline.frameCapacity then { s with frames := s.frames + 1 }
  else s

def capture (keyframe frame : Bool) : Option State :=
  if s.main = .capture then
    let s := if keyframe then s.tryPush .control else s
    let s := if frame then s.trySendFrame else s
    some { s with main := .top }
  else none

/-- The shutdown, step by step. The server is done when it accepts no more
and every handler has returned. -/
def join : Option State :=
  match s.main with
  | .joinForward => if s.forwarding then none else some { s with main := .joinEncoder }
  | .joinEncoder => if s.encoder = .exited then some { s with main := .joinServer } else none
  | .joinServer =>
    if s.accepting = false ∧ ∀ h ∈ s.handlers, h = .ended then some { s with main := .joinSession }
    else none
  | .joinSession => some { s with main := .done }
  | _ => none

def timeout : Option State :=
  match s.main with
  | .joinForward => some { s with main := .joinEncoder }
  | .joinEncoder => some { s with main := .joinServer }
  | .joinServer => some { s with main := .joinSession }
  | .joinSession => some { s with main := .done }
  | _ => none

/-- The encoder thread returns, and drops its ends of the queues. -/
def exit : State := { s.setQueue .control 0 with encoder := .exited, frames := 0 }

/-- `encoder_thread`. -/
def encode (ok : Bool) : Option State :=
  match s.encoder with
  | .control =>
    if s.queue .control = 0 then some { s with encoder := .resize }
    else some (s.setQueue .control (s.queue .control - 1))
  | .resize =>
    if s.resizing then some { s with encoder := .flushing, resizing := false }
    else some { s with encoder := .receiving }
  | .flushing =>
    if s.frames = 0 then some (if ok then { s with encoder := .receiving } else s.exit)
    else some { s with frames := s.frames - 1 }
  | .receiving =>
    if s.frames = 0 then
      if s.HasSender then none else some s.exit
    else some { s with encoder := .skipping, frames := s.frames - 1 }
  | .skipping =>
    if s.frames = 0 then some (if ok then { s with encoder := .holding } else s.exit)
    else some { s with frames := s.frames - 1 }
  | .holding =>
    if s.queue .control = 0 then none
    else some (s.setQueue .control (s.queue .control - 1))
  | .sending 0 => some { s with encoder := .control }
  | .sending (left + 1) =>
    if s.forwarding = false then some s.exit
    else if s.packets < packetCapacity then
      some { s with encoder := .sending left, packets := s.packets + 1 }
    else none
  | .exited => none

/-- The end of `holding`: the frame is submitted. -/
def submit (packets : ℕ) : Option State :=
  if s.encoder = .holding ∧ s.queue .control = 0 then
    some { s with encoder := .sending packets }
  else none

end State

/-- How many messages of the burst come after the first: the codec, the
cursor and the title, and those that are sent only with a value. -/
def burstLeft (favicon clipboard locked : Bool) : ℕ :=
  3 + favicon.toNat + clipboard.toNat + locked.toNat

/-- One step. -/
def State.step (s : State) (adaptive : Bool) : Action → Option State
  | .signal => some { s with shutdown := true }
  | .connect favicon clipboard locked =>
    if s.accepting then
      some { s with handlers := s.handlers ++ [.burst (burstLeft favicon clipboard locked)] }
    else none
  | .closeListener =>
    if s.accepting ∧ s.shutdown then some { s with accepting := false } else none
  | .handler i a => s.handlers[i]?.bind fun h => s.handlerStep adaptive i h a
  | .loop rejected => s.loop rejected
  | .drain => s.drain
  | .capture keyframe frame => s.capture keyframe frame
  | .join => s.join
  | .timeout => s.timeout
  | .encode ok => s.encode ok
  | .submit packets => s.submit packets
  | .forward =>
    if s.forwarding ∧ s.packets ≠ 0 then some { s with packets := s.packets - 1 } else none
  | .forwardEnds =>
    if s.forwarding ∧ (s.shutdown ∨ s.packets = 0 ∧ s.encoder = .exited) then
      some { s with forwarding := false, packets := 0 }
    else none
  | .adapt applies =>
    if s.applying = false ∧ s.queue .event ≠ 0 then
      some ((s.setQueue .event (s.queue .event - 1)).setApplying applies)
    else none
  | .tick => if adaptive ∧ s.applying = false then some (s.setApplying true) else none
  | .apply =>
    if s.applying ∧ s.Ready .control then some ((s.push .control).setApplying false) else none
  | .log =>
    if s.queue .latency ≠ 0 then some (s.setQueue .latency (s.queue .latency - 1)) else none
  | .bridgeEnds => if s.bridge then some { s with bridge := false } else none

/-- A server just started. -/
def initial : State where
  shutdown := false
  main := .top
  encoder := .control
  forwarding := true
  accepting := true
  handlers := []
  applying := false
  bridge := true
  frames := 0
  packets := 0
  resizing := false
  queue _ := 0

/-- **The server**, with adaptive bitrate or without. -/
def machine (adaptive : Bool) : Machine State Action where
  init s := s = initial
  step s a := s.step adaptive a

/-- The server's own steps: nothing comes from a client, a timer, the
encoder or anyone else. -/
def Action.isOwn : Action → Bool
  | .handler _ .away | .handler _ .deliver => true
  | .closeListener | .loop _ | .drain | .capture _ _ | .join | .encode _ | .submit 0 => true
  | .forward | .forwardEnds | .adapt _ | .apply | .log => true
  | _ => false

end Shutdown

end WaylandWebStream
