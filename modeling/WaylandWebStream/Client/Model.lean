import WaylandWebStream.Client.Stream
import WaylandWebStream.Lib.Broadcast
import WaylandWebStream.Pipeline.Model
import WaylandWebStream.Wire.RoundTrip

/-!
# The viewer — encoder, connection handlers, page

A packet the encoder returns goes through the forwarding task, the
broadcast channel, the handler of the page's connection, the socket and,
on the worker path, the worker's inbox, to the video stream; a keyframe
request goes back through the worker's outbox, the send queue and the
socket to the handler, and from there, unless its cooldown suppresses it,
to the encoder's control queue. A step is one party's turn at one of
these. The page may lose its connection and open another, and the
handlers of both may be there at once. Other clients and the render loop
appear by what they do to the shared state.
-/

namespace WaylandWebStream

namespace Client

open Encoder (EncodedPacket EncoderControl drainPackets)
open Pipeline (controlCapacity)

/-- `KEYFRAME_FORCE_COOLDOWN`: 500 ms, in nanoseconds. -/
def keyframeForceCooldown : ℕ := 500000000

/-! ## The parties -/

/-- What FFmpeg and the GPU make of a `submit`: packets, the first of them
that of the frame submitted, or a failure after some packets were
numbered. -/
inductive Submit
  | packets (first : Bytes × Bool) (more : List (Bytes × Bool))
  | failed (drained : ℕ)

/-- The packets a `submit` returns. A forced frame comes out as a keyframe. -/
def Submit.run (nextFrameId : UInt32) (force : Bool) : Submit → UInt32 × Option (List EncodedPacket)
  | packets first more =>
    let drained := drainPackets nextFrameId ((first.1, force || first.2) :: more)
    (nextFrameId + UInt32.ofNat drained.length, some drained)
  | failed drained => (nextFrameId + UInt32.ofNat drained, none)

/-- A frame on its way to the page: the packet, the connection it is sent
on, and its place in the broadcast. -/
structure Frame where
  packet : EncodedPacket
  connection : ℕ
  position : ℕ

/-- What `parseVideoFramePayload` surfaces of a frame. -/
def Frame.isKeyframe (f : Frame) : Bool := f.packet.isKeyframe

/-- What a handler sends that the video stream reads. -/
inductive Message
  | video (frame : Frame)
  | codec (codec : String)

/-- The frame of a message. -/
def Message.frame? : Message → Option Frame
  | video frame => some frame
  | codec _ => none

/-- Where a connection's handler stands. -/
inductive Handler
  /-- The socket has not reached it. -/
  | absent
  /-- Subscribed to the broadcast, about to force a keyframe for the new client. -/
  | subscribed
  /-- In its loop. -/
  | serving
  /-- Honours a request: sends `ForceKeyframe`, waiting for room. -/
  | forcing
  | ended
  deriving DecidableEq

/-- A receiver of the broadcast exists. -/
def Handler.listens : Handler → Bool
  | subscribed | serving | forcing => true
  | absent | ended => false

/-- A connection of the page: its handler, the handler's place in the
broadcast, the requests and the messages in the socket. -/
structure Conn where
  handler : Handler := .absent
  videoRx : ℕ := 0
  uplink : ℕ := 0
  downlink : List Message := []

/-- The `ClientChannel`'s connection lifecycle. -/
inductive Phase
  | idle
  | connecting
  | opened
  | closed
  deriving DecidableEq

/-- Whether the stream runs on the main thread or in the worker. -/
inductive VideoPipeline
  | main
  | worker
  deriving DecidableEq

/-- The server's shared state, the page's connections, and the page.
`lagged` is every lag a handler reported: its connection, the place it
was at and the place it went on at. `lost` has the places in the packet
sequence a failed `submit` took packets from. -/
structure State where
  now : ℕ
  lastKeyframeForce : ℕ
  control : List EncoderControl
  forceKeyframe : Bool
  nextFrameId : UInt32
  packets : List EncodedPacket
  videoTx : Broadcast EncodedPacket
  codecTx : String
  lagged : List (ℕ × ℕ × ℕ)
  lost : List ℕ
  conn : ℕ → Conn
  phase : Phase
  /-- The connection opened last; connections count from one. -/
  current : ℕ
  sendQueue : ℕ
  stream : VideoStream Frame
  workerIn : List Message
  workerOut : ℕ

/-- The steps. -/
inductive Action
  | wait (time : ℕ)
  | changeBitrate (bitrate : ℕ)
  /-- Another party asks for a keyframe. -/
  | force
  /-- Another client's request is honoured. -/
  | honour
  /-- The encoder thread takes a control message. -/
  | drain
  /-- The encoder thread submits a frame. -/
  | submit (outcome : Submit)
  /-- The forwarding task takes a packet. -/
  | forward
  | codec (codec : String)
  | accept (i : ℕ)
  /-- A handler's `ForceKeyframe` is accepted. -/
  | sendForce (i : ℕ)
  | recv (i : ℕ)
  | sendCodec (i : ℕ)
  /-- A handler reads a `RequestKeyframe`. -/
  | dispatch (i : ℕ)
  | endHandler (i : ℕ)
  | connect
  | opens
  /-- The socket's `onmessage`. -/
  | message (decodeQueueSize : ℕ) (decodes : Bool)
  | closes
  /-- The worker's `onmessage`. -/
  | work (decodeQueueSize : ℕ) (decodes : Bool)
  /-- The main thread takes a control message of the worker. -/
  | post
  /-- A decoder reports an error. -/
  | error

namespace State

variable (s : State)

/-- Replaces one connection. -/
def setConn (i : ℕ) (c : Conn) : State := { s with conn := Function.update s.conn i c }

/-- The control queue has room. -/
def HasRoom : Prop := s.control.length < controlCapacity

/-- `last.elapsed() >= KEYFRAME_FORCE_COOLDOWN`. -/
def CooledDown : Prop := keyframeForceCooldown ≤ s.now - s.lastKeyframeForce

instance : Decidable s.HasRoom := inferInstanceAs (Decidable (_ < _))

instance : Decidable s.CooledDown := inferInstanceAs (Decidable (_ ≤ _))

/-- A packet is submitted, or lost. -/
def submit (outcome : Submit) : State :=
  let (nextFrameId, packets) := outcome.run s.nextFrameId s.forceKeyframe
  match packets with
  | some packets =>
    { s with nextFrameId, packets := s.packets ++ packets, forceKeyframe := false }
  | none =>
    let place := (s.videoTx.sent ++ s.packets).length
    { s with
      nextFrameId
      lost := if nextFrameId = s.nextFrameId then s.lost else place :: s.lost
      forceKeyframe := false }

/-- A turn of a handler's loop: `video_rx.recv()`. -/
def recv (i : ℕ) : Option State :=
  let c := s.conn i
  match s.videoTx.recv c.videoRx with
  | .pending => none
  | .lagged next =>
    some ({ s with lagged := (i, c.videoRx, next) :: s.lagged }.setConn i { c with videoRx := next })
  | .value packet =>
    some (s.setConn i { c with
      videoRx := c.videoRx + 1, downlink := c.downlink ++ [.video ⟨packet, i, c.videoRx⟩] })

/-- A turn of a handler's loop: a `RequestKeyframe`. -/
def dispatch (i : ℕ) : State :=
  let c := s.conn i
  if s.CooledDown then
    { s with lastKeyframeForce := s.now }.setConn i
      { c with uplink := c.uplink - 1, handler := .forcing }
  else s.setConn i { c with uplink := c.uplink - 1 }

/-- `ClientChannel.send`, of a `request_keyframe`. -/
def send : State :=
  match s.phase with
  | .opened =>
    let c := s.conn s.current
    s.setConn s.current { c with uplink := c.uplink + 1 }
  | .idle | .connecting => { s with sendQueue := s.sendQueue + 1 }
  | .closed => s

/-- What the stream did: its requests go to the channel, or to the worker's outbox. -/
def after (pipeline : VideoPipeline) (r : VideoStream Frame × Bool) : State :=
  let s := { s with stream := r.1 }
  if r.2 then
    match pipeline with
    | .main => s.send
    | .worker => { s with workerOut := s.workerOut + 1 }
  else s

end State

/-- A message reaches the stream. -/
def Message.apply (decodeQueueSize : ℕ) (decodes : Bool) (stream : VideoStream Frame) :
    Message → VideoStream Frame × Bool
  | video frame => stream.handleVideoFrame Frame.isKeyframe frame decodeQueueSize decodes
  | codec name => stream.setCodec name

namespace State

variable (pipeline : VideoPipeline) (s : State)

/-- The socket's `onmessage`: the stream takes the message, or the worker's inbox does. -/
def message (decodeQueueSize : ℕ) (decodes : Bool) (m : Message) : State :=
  match pipeline with
  | .main => s.after .main (m.apply decodeQueueSize decodes s.stream)
  | .worker => { s with workerIn := s.workerIn ++ [m] }

/-- One step of one party. -/
def step : Action → Option State
  | .wait time => some { s with now := s.now + time }
  | .changeBitrate bitrate =>
    if s.HasRoom then some { s with control := s.control ++ [.changeBitrate bitrate] } else none
  | .force =>
    if s.HasRoom then some { s with control := s.control ++ [.forceKeyframe] } else none
  | .honour => if s.CooledDown then some { s with lastKeyframeForce := s.now } else none
  | .drain =>
    match s.control with
    | [] => none
    | m :: control =>
      some { s with control, forceKeyframe := s.forceKeyframe || decide (m = EncoderControl.forceKeyframe) }
  | .submit outcome => some (s.submit outcome)
  | .forward =>
    match s.packets with
    | [] => none
    | packet :: packets => some { s with packets, videoTx := s.videoTx.send packet }
  | .codec codec => some { s with codecTx := codec }
  | .accept i =>
    if 0 < i ∧ i ≤ s.current ∧ (s.conn i).handler = .absent then
      some (s.setConn i
        { s.conn i with handler := .subscribed, videoRx := s.videoTx.subscribe })
    else none
  | .sendForce i =>
    if ((s.conn i).handler = .subscribed ∨ (s.conn i).handler = .forcing) ∧ s.HasRoom then
      some ({ s with control := s.control ++ [EncoderControl.forceKeyframe] }.setConn i
        { s.conn i with handler := .serving })
    else none
  | .recv i => if (s.conn i).handler = .serving then s.recv i else none
  | .sendCodec i =>
    if (s.conn i).handler = .subscribed ∨ (s.conn i).handler = .serving then
      some (s.setConn i
        { s.conn i with downlink := (s.conn i).downlink ++ [.codec s.codecTx] })
    else none
  | .dispatch i =>
    if (s.conn i).handler = .serving ∧ 0 < (s.conn i).uplink then some (s.dispatch i) else none
  | .endHandler i =>
    if 0 < i ∧ i ≤ s.current ∧ (s.conn i).handler ≠ .forcing ∧
        (s.conn i).handler ≠ .ended then
      some (s.setConn i { s.conn i with handler := .ended })
    else none
  | .connect =>
    if s.phase = .idle ∨ s.phase = .closed then
      some { s with phase := .connecting, current := s.current + 1 }
    else none
  | .opens =>
    if s.phase = .connecting then
      some ({ s with phase := .opened, sendQueue := 0 }.setConn s.current
        { s.conn s.current with uplink := (s.conn s.current).uplink + s.sendQueue })
    else none
  | .message decodeQueueSize decodes =>
    match s.phase, (s.conn s.current).downlink with
    | .opened, m :: downlink =>
      some ((s.setConn s.current { s.conn s.current with downlink }).message pipeline
        decodeQueueSize decodes m)
    | _, _ => none
  | .closes =>
    if s.phase = .connecting ∨ s.phase = .opened then
      some { s with phase := .closed, sendQueue := 0 }
    else none
  | .work decodeQueueSize decodes =>
    match s.workerIn with
    | [] => none
    | m :: workerIn =>
      some ({ s with workerIn }.after .worker (m.apply decodeQueueSize decodes s.stream))
  | .post => if 0 < s.workerOut then some { s with workerOut := s.workerOut - 1 }.send else none
  | .error => some (s.after pipeline s.stream.recoverDecoder)

end State

/-- The server as it starts, and a page whose pipeline is ready and whose
channel is not connected. The first request is never suppressed. -/
def start (capacity : ℕ) (decoderConfig codec : String) : State where
  now := keyframeForceCooldown
  lastKeyframeForce := 0
  control := []
  forceKeyframe := false
  nextFrameId := 0
  packets := []
  videoTx := .channel capacity
  codecTx := codec
  lagged := []
  lost := []
  conn _ := {}
  phase := .idle
  current := 0
  sendQueue := 0
  stream := (VideoStream.new decoderConfig).start
  workerIn := []
  workerOut := 0

/-- The startup default of `DECODER_CONFIG`. -/
def decoderConfig : String := "avc1.42E01F"

/-- **The viewer as a machine**, for a capacity of the broadcast channel
and a pipeline. -/
def machine (capacity : ℕ) (pipeline : VideoPipeline) : Machine State Action where
  init s := ∃ codec, s = start capacity decoderConfig codec
  step := State.step pipeline

/-- A packet of an unchanged picture, for fixed runs. -/
def somePacket : Action := .submit (.packets ([], false) [])

/-- A page connects and is shown its first keyframe, for fixed runs. -/
def connects : List Action :=
  [.connect, .accept 1, .opens, .sendForce 1, .drain, somePacket, .forward, .recv 1, .message 0 true]

/-! ## What the model stands on -/

theorem encodeFrame_run (scaler : Encoder.Scaler) (e : Encoder.X264Encoder)
    (raw : Encoder.RawFrame) (force full : Bool) (ffmpeg : Encoder.Ffmpeg) :
    ∃ outcome : Submit, outcome.run e.nextFrameId force =
      ((e.encodeFrame scaler raw force full ffmpeg).1.nextFrameId,
        (e.encodeFrame scaler raw force full ffmpeg).2) := by
  have hfailed : Submit.run e.nextFrameId force (.failed 0) = (e.nextFrameId, none) := by
    simp [Submit.run]
  unfold Encoder.X264Encoder.encodeFrame
  dsimp only
  split
  · exact ⟨.failed 0, hfailed⟩
  split
  · exact ⟨.failed 0, hfailed⟩
  split
  · exact ⟨.failed 0, hfailed⟩
  split
  · exact ⟨.packets ffmpeg.packet ffmpeg.more, rfl⟩
  · exact ⟨.failed _, rfl⟩

/-- **The x264 backend submits so.** -/
theorem submit_run (scaler : Encoder.Scaler) (e : Encoder.X264Encoder)
    (frame : Encoder.CapturedFrame) (force : Bool) (ffmpeg : Encoder.Ffmpeg) :
    ∃ outcome : Submit, outcome.run e.nextFrameId force =
      ((e.submit scaler frame force ffmpeg).1.nextFrameId,
        (e.submit scaler frame force ffmpeg).2) := by
  cases frame with
  | gpu dmabuf width height => exact ⟨.failed 0, by simp [Submit.run, Encoder.X264Encoder.submit]⟩
  | cpu raw =>
    obtain ⟨outcome, h⟩ := encodeFrame_run scaler e raw force e.needsFullConvert ffmpeg
    refine ⟨outcome, h.trans ?_⟩
    simp only [Encoder.X264Encoder.submit]
    split
    · rename_i hencode
      rw [hencode]
    · rename_i hencode
      rw [hencode]

/-- **The page reads so** of a packet's bytes: the keyframe flag, and the
data; the frame id is on the wire and in neither. -/
theorem surfaced (f : Frame) (packet : Wire.EncodedPacket) (cb : Wire.Web.Callbacks)
    (hdata : packet.data = f.packet.data) (hkey : packet.isKeyframe = f.packet.isKeyframe)
    (hcb : cb.onVideoFrame = true) :
    ∃ payload, Wire.Web.onUnifiedFrame cb (Wire.encodeUnifiedVideoFrame packet) =
        .ok (some (.video payload)) ∧
      payload.isKeyframe = f.isKeyframe ∧ payload.data.bytes = f.packet.data := by
  obtain ⟨payload, hparse, hk, -, hd⟩ := Wire.Web.onUnifiedFrame_video packet hcb
  exact ⟨payload, hparse, hk.trans hkey, hd.trans hdata⟩

end Client

end WaylandWebStream
