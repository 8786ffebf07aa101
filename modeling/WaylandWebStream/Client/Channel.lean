import WaylandWebStream.Clipboard.Sync
import WaylandWebStream.Lib.Machine
import WaylandWebStream.Wire.Model

/-!
# The client's channel — one queue and one phase, over a socket at a time

`ClientChannel` opens a `WebSocket` and hangs its handlers on it. The
handlers of every socket work on the one channel: whichever socket opens
sets the phase, sends `ready` on the current one and the queue on itself;
whichever closes clears the lot. The sockets are numbered in the order they
are made, the last one is the newest, and the browser decides when each
opens, starts to close and is closed.
-/

namespace WaylandWebStream

namespace ClientChannel

open Clipboard (Phase)

/-- `WebSocket.readyState`. -/
inductive ReadyState
  | connecting
  | open
  | closing
  | closed
  deriving DecidableEq

/-- A framed message, with what is told of it: which call of `send` or
`sendClipboardImage` it is of, `none` for the `ready` of a socket that opens,
and which socket that call was for. -/
structure Frame where
  call : Option ℕ
  socket : Option ℕ
  bytes : Bytes
  deriving DecidableEq

/-- A socket, with what is told of it. -/
structure Socket where
  readyState : ReadyState := .connecting
  /-- It has had its `open` event. -/
  opened : Bool := false
  /-- The channel has closed it. -/
  shut : Bool := false
  /-- What went out on it. -/
  delivered : List Frame := []
  deriving DecidableEq

namespace Socket

variable (k : Socket)

/-- What is sent on a socket that is not open is discarded. -/
def send (frame : Frame) : Socket :=
  if k.readyState = .open then { k with delivered := k.delivered ++ [frame] } else k

/-- The connection is established. -/
def establish : Socket := { k with readyState := .open, opened := true }

/-- `WebSocket.close`. -/
def close : Socket :=
  { k with
    shut := true
    readyState := if k.readyState = .closed then .closed else .closing }

/-- The phase its events and the channel's own `close` make of a socket. -/
def phase : Phase :=
  if k.shut ∨ k.readyState = .closed then .closed else if k.opened then .open else .connecting

end Socket

/-- The messages of the protocol: `JSON.stringify` of each, and the one that
is sent on every open. -/
structure Protocol (μ : Type*) where
  stringify : μ → String
  ready : μ

/-- `encodeClientMessage`. -/
def Protocol.encodeClientMessage {μ : Type*} (proto : Protocol μ) (msg : μ) : Bytes :=
  Wire.Web.encodeUnifiedFrame Wire.msgClientMsg 0 (Utf8.encode (proto.stringify msg))

/-- The frame of the `ready` a socket opens with. -/
def Protocol.readyFrame {μ : Type*} (proto : Protocol μ) : Frame :=
  ⟨none, none, proto.encodeClientMessage proto.ready⟩

/-- The channel, the sockets it has made, and the calls of its `send`s. -/
structure State where
  ws : Option ℕ := none
  sendQueue : List Frame := []
  phase : Phase := .idle
  closedByCaller : Bool := false
  sockets : List Socket := []
  sends : List Frame := []

namespace State

variable {μ : Type*} (proto : Protocol μ) (s : State)

/-! ## The newest socket -/

/-- The number of the newest socket, or of the one to come. -/
def newest : ℕ := s.sockets.length - 1

/-- What the channel should be in: what the newest socket is in, and before
there is one, whether the caller has closed it. -/
def newestPhase : Phase :=
  match s.sockets[s.newest]? with
  | some k => k.phase
  | none => if s.closedByCaller then .closed else .idle

/-- The current socket is open. -/
def IsOpen (k : Option ℕ) : Prop :=
  (k.bind fun k => s.sockets[k]?).map Socket.readyState = some .open

instance (k : Option ℕ) : Decidable (s.IsOpen k) := inferInstanceAs (Decidable (_ = _))

/-- The socket a call is for: the one to come, the one that is connecting, or
the one that is open; none once it is closing or closed. -/
def target : Option ℕ :=
  match s.newestPhase with
  | .idle | .connecting => some s.newest
  | .open => if s.IsOpen (some s.newest) then some s.newest else none
  | .closed => none

/-- What was sent for a socket, in the order of the calls. -/
def sentFor (k : ℕ) : List Frame := s.sends.filter fun frame => frame.socket = some k

/-! ## The channel -/

/-- `openSocket`. -/
def openSocket : State :=
  { s with
    phase := .connecting
    sockets := s.sockets ++ [{}]
    ws := some s.sockets.length }

def connect : State := { s with closedByCaller := false }.openSocket

def reconnect : State := if s.phase ≠ .closed ∨ s.closedByCaller then s else s.openSocket

def handleClose : State := { s with ws := none, phase := .closed, sendQueue := [] }

/-- What `send` and `sendClipboardImage` do with a framed message. -/
def post (frame : Frame) : State :=
  if s.phase = .open ∧ s.IsOpen s.ws then
    match s.ws with
    | some k => { s with sockets := s.sockets.modify k (·.send frame) }
    | none => s
  else if s.phase = .idle ∨ s.phase = .connecting then
    { s with sendQueue := s.sendQueue ++ [frame] }
  else s

/-- A call from outside, which is remembered. -/
def call (bytes : Bytes) : State :=
  let frame : Frame := ⟨some s.sends.length, s.target, bytes⟩
  { s with sends := s.sends ++ [frame] }.post frame

def send (msg : μ) : State := s.call (proto.encodeClientMessage msg)

def sendClipboardImage (mime : String) (bytes : Bytes) : State :=
  s.call (Wire.Web.encodeClipboardImageMessage mime bytes)

/-- What was sent for a first socket, closed before it is made, is for none. -/
def close : State :=
  { s with
    closedByCaller := true
    phase := .closed
    sendQueue := []
    sockets := match s.ws with
      | some k => s.sockets.modify k Socket.close
      | none => s.sockets
    ws := none
    sends := if s.sockets = [] then s.sends.map fun frame => { frame with socket := none }
      else s.sends }

/-- `ws.onopen`, of whichever socket. -/
def onOpen (k : ℕ) : State :=
  let s' := { s with phase := .open }.post proto.readyFrame
  { s' with
    sendQueue := []
    sockets := s'.sockets.modify k fun ws => s'.sendQueue.foldl Socket.send ws }

end State

/-! ## The machine -/

/-- Calls on the channel, and what happens to its sockets. -/
inductive Action (μ : Type*)
  | connect
  | reconnect
  | close
  | send (msg : μ)
  | sendClipboardImage (mime : String) (bytes : Bytes)
  /-- The connection is established: the `open` event. -/
  | opens (k : ℕ)
  /-- The other end, or a failure, begins to close the connection. -/
  | closing (k : ℕ)
  /-- The connection is closed: the `close` event. -/
  | closes (k : ℕ)

variable {μ : Type*} (proto : Protocol μ)

/-- One step; a socket opens only while it is connecting, and closes once. -/
def step (s : State) : Action μ → Option State
  | .connect => some s.connect
  | .reconnect => some s.reconnect
  | .close => some s.close
  | .send msg => some (s.send proto msg)
  | .sendClipboardImage mime bytes => some (s.sendClipboardImage mime bytes)
  | .opens k =>
    match s.sockets[k]? with
    | some ws =>
      if ws.readyState = .connecting then
        some ({ s with sockets := s.sockets.modify k Socket.establish }.onOpen proto k)
      else none
    | none => none
  | .closing k =>
    match s.sockets[k]? with
    | some ws =>
      if ws.readyState = .connecting ∨ ws.readyState = .open then
        some { s with sockets := s.sockets.modify k fun ws => { ws with readyState := .closing } }
      else none
    | none => none
  | .closes k =>
    match s.sockets[k]? with
    | some ws =>
      if ws.readyState ≠ .closed then
        some { s with
          sockets := s.sockets.modify k fun ws => { ws with readyState := .closed } }.handleClose
      else none
    | none => none

def machine : Machine State (Action μ) where
  init s := s = {}
  step := step proto

end ClientChannel

end WaylandWebStream
