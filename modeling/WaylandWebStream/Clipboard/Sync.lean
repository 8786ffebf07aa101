import WaylandWebStream.Wire.Messages
import WaylandWebStream.Clipboard.Page
import WaylandWebStream.Clipboard.Contents

/-!
# Clipboard — device, page, server and nest together

The whole way between the two clipboards, as one machine. A payload of
the device is read by the page, sent over the connection (or queued
while that opens, or dropped while it is closed), tried into the
server's bounded channel, and relayed to the bridge thread. A copy in
the nest is read by the bridge into the watch channel, whose current
value every new connection is sent, and every change of which the open
one is; the page writes it to the device, now or on a gesture.

What the browser does on its own time (reads and writes of the device's
clipboard) is under way in `reads` and `writes` until it is done. Each
copy a user makes has a stamp; nothing of the program reads it, and it
tells which copy a payload passed on goes back to.
-/

namespace WaylandWebStream

namespace Clipboard

open Wire (ClipboardData maxClipboardBytes)

/-! ## The state -/

/-- What the device's clipboard holds. -/
structure DeviceClip where
  data : ClipboardData
  /-- The stamp of the user's copy, none where the page wrote it. -/
  copy : Option ℕ
  deriving DecidableEq

/-- A read of the device's clipboard under way. -/
structure Read where
  /-- What the browser gave, once it has. -/
  snapshot : Option DeviceClip
  /-- Whether a deferred write is flushed after it. -/
  thenFlush : Bool
  deriving DecidableEq

/-- The states of a `ClientChannel`. -/
inductive Phase
  | idle
  | connecting
  | open
  | closed
  deriving DecidableEq

/-- A payload one of the bridges passed on as new. -/
structure Sent where
  /-- The user's copy it was read from, if it was one. -/
  copy : Option ℕ
  data : ClipboardData
  deriving DecidableEq

structure State where
  device : Option DeviceClip := none
  page : ClipboardBridge := {}
  /-- Reads and writes of the device's clipboard the browser is at. -/
  reads : List Read := []
  writes : List ClipboardData := []
  phase : Phase := .idle
  /-- Messages sent before the socket is open. -/
  sendQueue : List ClipboardData := []
  /-- Messages on the open connection. -/
  toServer : List ClipboardData := []
  toBrowser : List ClipboardData := []
  /-- What the connection has seen of the watch channel. -/
  receiver : Watch.Receiver := ⟨0⟩
  /-- The server's channel, `clipboard_in`, and the one it is relayed to. -/
  inbox : List ClipboardData := []
  toRemote : List ClipboardData := []
  world : World := World.start none
  /-- Copies made so far, by the users of both sides. -/
  clock : ℕ := 0
  /-- The payload the page's key is of. -/
  seen : Option ClipboardData := none
  /-- The device's copies a read was finished of. -/
  readCopies : List ℕ := []
  /-- What the page forwarded and what the bridge pushed, in order. -/
  sends : List Sent := []

/-- What can happen next. -/
inductive Step
  /-- A user copies on the device, or in the nested session. -/
  | copyDevice (data : ClipboardData)
  | copyRemote (formats : List (String × Bytes))
  /-- A client of the nest pastes from the bridge's source. -/
  | pasteRemote
  /-- The nest gets to a request, the bridge to an event or a payload. -/
  | process
  | dispatch (delivered : Option Bytes)
  | deliver
  /-- The task between the server's channel and the bridge's. -/
  | relay
  /-- The browser's `paste` event, the tab's focus, a gesture. -/
  | paste
  | focus (granted : Bool)
  | gesture (fromTouch : Bool)
  /-- The browser is done with a part of a read, or with a write. -/
  | snapshot (i : ℕ)
  | readFails (i : ℕ)
  | finishRead (i : ℕ)
  | finishWrite (i : ℕ) (ok : Bool)
  /-- The socket is opened, is open, is gone. -/
  | connect
  | opened
  | closed
  /-- The server reads a message, the server pushes a change, the page
  handles a message. -/
  | receive
  | push
  | onMessage
  deriving DecidableEq

namespace State

variable (s : State)

/-! ## The page -/

/-- `ClientChannel::send`. -/
def send (p : ClipboardData) : State :=
  match s.phase with
  | .open => { s with toServer := s.toServer ++ [p] }
  | .idle | .connecting => { s with sendQueue := s.sendQueue ++ [p] }
  | .closed => s

/-- The end of a read: what was taken is forwarded if it is new. -/
def forward (clip : DeviceClip) : State :=
  let t := { s with
    page := (s.page.forward clip.data).1
    readCopies := if Taken clip.data then s.readCopies ++ clip.copy.toList else s.readCopies }
  match (s.page.forward clip.data).2 with
  | none => t
  | some p => ({ t with seen := some p, sends := s.sends ++ [⟨clip.copy, p⟩] } : State).send p

/-- A deferred write is tried again. -/
def flush : State :=
  { s with page := s.page.flush.1, writes := s.writes ++ s.page.flush.2.toList }

/-- What `onUserGesture` does after the read it waited for. -/
def thenFlush (flush : Bool) : State := if flush then s.flush else s

/-- `onPaste`: a text is there at once, an image is read first. -/
def paste (clip : DeviceClip) : State :=
  if s.page.enabled = false then s
  else
    match clip.data with
    | .text _ => s.forward clip
    | .image mime _ =>
      if mime = "image/png" then { s with reads := s.reads ++ [⟨some clip, false⟩] } else s

/-- `onFocus` and `onVisibility`. -/
def focus (granted : Bool) : State :=
  { s with
    page := (s.page.onFocus granted).1
    reads := if (s.page.onFocus granted).2 then s.reads ++ [⟨none, false⟩] else s.reads }

/-- `onUserGesture`. -/
def gesture (fromTouch : Bool) : State :=
  if s.page.enabled = false then s
  else if (s.page.onUserGesture fromTouch).2 then
    { s with
      page := (s.page.onUserGesture fromTouch).1
      reads := s.reads ++ [⟨none, true⟩] }
  else s.flush

/-- The browser is done with a write. -/
def finishWrite (i : ℕ) (p : ClipboardData) (ok : Bool) : State :=
  { s with
    device := if ok then some ⟨p, none⟩ else s.device
    writes := s.writes.eraseIdx i
    page := s.page.wrote p ok }

/-- The page handles a clipboard message. -/
def onMessage (p : ClipboardData) (rest : List ClipboardData) : State :=
  { s with
    toBrowser := rest
    page := (s.page.onPayload p).1
    seen := if (s.page.onPayload p).2.isSome then some p else s.seen
    writes := s.writes ++ (s.page.onPayload p).2.toList }

/-! ## The connection and the server -/

/-- The clipboard payload of a message. -/
def clipboardOf : Wire.Emission → Option ClipboardData
  | .control (.clipboard text) => some (.text text)
  | .clipboardImage mime bytes => some (.image mime bytes)
  | _ => none

/-- What `send_clipboard` puts on the connection. -/
def sent (p : ClipboardData) : List ClipboardData := (Wire.sendClipboard p).filterMap clipboardOf

/-- The watch channel of the nest's copies. -/
def watch : Watch ClipboardData := s.world.bridge.fromRemote

/-- The socket is open: what was queued goes out, and the server sends
the value its watch channel holds. The connection's receiver is a clone
of the first one, which never saw a change. -/
def opened : State :=
  { s with
    phase := .open
    toServer := s.sendQueue
    sendQueue := []
    toBrowser := sent s.watch.value
    receiver := ⟨0⟩ }

/-- The socket is gone, and with it what was under way. -/
def closed : State :=
  { s with phase := .closed, sendQueue := [], toServer := [], toBrowser := [] }

/-- Whether the server takes a message off the connection: an image's
frame must not be over the limit. -/
def Parsed : ClipboardData → Prop
  | .text _ => True
  | .image mime bytes =>
    (Wire.encodeClipboardImagePayload mime bytes).length ≤ maxClipboardBytes

instance : DecidablePred Parsed
  | .text _ => inferInstanceAs (Decidable True)
  | .image _ _ => inferInstanceAs (Decidable (_ ≤ _))

/-- The capacity of `clipboard_in`. -/
def inboxCapacity : ℕ := 16

/-- `try_send` into `clipboard_in`: a payload that does not fit is
dropped. -/
def receive (p : ClipboardData) (rest : List ClipboardData) : State :=
  { s with
    toServer := rest
    inbox := if Parsed p ∧ s.inbox.length < inboxCapacity then s.inbox ++ [p] else s.inbox }

/-- The server's arm for a change of the watch channel. -/
def push : State :=
  { s with toBrowser := s.toBrowser ++ sent s.watch.value, receiver := s.watch.subscribe }

/-! ## The bridge and the nest -/

/-- The copy behind an offer. -/
def copyOf (off : Offer) : Option ℕ :=
  match off.origin with
  | .foreign c => some c.stamp
  | .own _ _ => none

/-- The bridge dispatches an event; what it pushes is noted. -/
def dispatch (delivered : Option Bytes) (e : Event) (events : List Event) : State :=
  let w := s.world.dispatch delivered e events
  { s with
    world := w
    sends :=
      if w.bridge.fromRemote.version = s.watch.version then s.sends
      else s.sends ++ [⟨(s.world.reading e).bind copyOf, w.bridge.fromRemote.value⟩] }

/-! ## One step -/

/-- One step of the whole. -/
def step : Step → Option State
  | .copyDevice data => some { s with device := some ⟨data, some s.clock⟩, clock := s.clock + 1 }
  | .copyRemote formats =>
    some { s with
      world := s.world.select (some (.foreign ⟨s.clock, formats⟩))
      clock := s.clock + 1 }
  | .pasteRemote => (s.world.step .paste).map fun w => { s with world := w }
  | .process => (s.world.step .process).map fun w => { s with world := w }
  | .dispatch delivered =>
    match s.world.events with
    | [] => none
    | e :: events => some (s.dispatch delivered e events)
  | .deliver =>
    match s.toRemote with
    | [] => none
    | p :: rest => some { s with toRemote := rest, world := s.world.payload p }
  | .relay =>
    match s.inbox with
    | [] => none
    | p :: rest => some { s with inbox := rest, toRemote := s.toRemote ++ [p] }
  | .paste => s.device.map s.paste
  | .focus granted => some (s.focus granted)
  | .gesture fromTouch => some (s.gesture fromTouch)
  | .snapshot i =>
    match s.reads[i]?, s.device with
    | some ⟨none, flush⟩, some clip => some { s with reads := s.reads.set i ⟨some clip, flush⟩ }
    | _, _ => none
  | .readFails i =>
    match s.reads[i]? with
    | some ⟨none, flush⟩ => some ({ s with reads := s.reads.eraseIdx i }.thenFlush flush)
    | _ => none
  | .finishRead i =>
    match s.reads[i]? with
    | some ⟨some clip, flush⟩ =>
      some (({ s with reads := s.reads.eraseIdx i }.forward clip).thenFlush flush)
    | _ => none
  | .finishWrite i ok => s.writes[i]?.map fun p => s.finishWrite i p ok
  | .connect =>
    if s.phase = .idle ∨ s.phase = .closed then some { s with phase := .connecting } else none
  | .opened => if s.phase = .connecting then some s.opened else none
  | .closed => if s.phase = .connecting ∨ s.phase = .open then some s.closed else none
  | .receive =>
    match s.toServer with
    | [] => none
    | p :: rest => some (s.receive p rest)
  | .push => if s.phase = .open ∧ s.watch.hasChanged s.receiver then some s.push else none
  | .onMessage =>
    match s.toBrowser with
    | [] => none
    | p :: rest => some (s.onMessage p rest)

/-- **Device, page, server and nest.** -/
def machine : Machine State Step where
  init s := s = {}
  step := step

/-! ## What is under way, and what is held -/

/-- The payloads on the way from the page to the bridge. -/
def upstream : List ClipboardData := s.toRemote ++ s.inbox ++ s.toServer ++ s.sendQueue

/-- The change the open connection has not pushed yet. -/
def unpushed : List ClipboardData :=
  if s.phase = .open ∧ s.watch.hasChanged s.receiver then sent s.watch.value else []

/-- The payloads still to be written to the device, the deferred one
first. -/
def unwritten : List ClipboardData := s.page.pendingWrite.toList ++ s.writes

/-- Nothing is on its way to the device. -/
def DownstreamIdle : Prop := s.toBrowser = [] ∧ s.unpushed = [] ∧ s.unwritten = []

/-- A device's copy no read was finished of. -/
def Unread (clip : DeviceClip) : Prop := ∃ t, clip.copy = some t ∧ t ∉ s.readCopies

/-- **Everything is done**: the connection is open, nothing is under way
in either direction, and the copy on the device was read. -/
def Settled : Prop :=
  s.phase = .open ∧ s.upstream = [] ∧ s.DownstreamIdle ∧ s.reads = [] ∧ s.world.Quiescent ∧
    ∀ clip, s.device = some clip → ¬ s.Unread clip

/-- The most recent of the copies one side took for a change. -/
def MostRecent (e : Sent) : Prop :=
  e ∈ s.sends ∧ ∃ t, e.copy = some t ∧ ∀ e' ∈ s.sends, ∀ t', e'.copy = some t' → t' ≤ t

/-- **The two clipboards agree** once everything is done: both hold the
most recent copy. -/
def Converged : Prop :=
  s.Settled → ∀ e, s.MostRecent e →
    (s.device.map fun clip => bytesOf clip.data) = some (bytesOf e.data) ∧
    s.world.clipboard = some (bytesOf e.data)

/-- **Nothing is sent back**: what a side passes on is always a user's
copy, and no copy is passed on twice. -/
def NoEcho : Prop :=
  (∀ e ∈ s.sends, ∃ t, e.copy = some t) ∧ (s.sends.map Sent.copy).Nodup

end State

end Clipboard

end WaylandWebStream
