import WaylandWebStream.Compositor.Commit
import WaylandWebStream.Encoder.X264
import WaylandWebStream.Lib.Watch

/-!
# The capture pipeline — render loop, encoder thread, control senders

Three parties share two bounded queues, a watch channel and a flag: the
render loop, which owns the compositor and sends frames; the encoder
thread, which owns the encoder and reads frames, resizes and control
messages; and the connection handlers, which ask for keyframes. A step is
one access to what is shared, with the party's own work up to the next
one, so a run is an interleaving of the three.
-/

namespace WaylandWebStream

namespace Pipeline

open Compositor (Rect DamageRect Window)
open Encoder

/-! ## The screen: the compositor and its render backends -/

/-- The render backends. -/
inductive Backend
  | sw
  | gl (produceGpuFrames : Bool)
  deriving DecidableEq

/-- What is fixed for a run. GL is outside the repository: `draw` is what
it draws of a window list at a size. -/
structure Config where
  backend : Backend
  draw : ℕ → ℕ → List Window → Bytes
  keyframeInterval : ℕ

/-- The GL backend's state for one output size: its two dmabuf targets. -/
structure SizedState where
  size : ℕ × ℕ
  targets : Fin 2 → ℕ
  nextTarget : Fin 2

/-- The GL backend, and what each dmabuf it allocated holds. -/
structure Gl where
  sized : Option SizedState
  allocated : ℕ
  memory : ℕ → Bytes

namespace Gl

/-- Two fresh targets. -/
def build (g : Gl) (size : ℕ × ℕ) : SizedState where
  size
  targets i := g.allocated + i
  nextTarget := 0

/-- `ensure_sized`: the target pool for a size, and the dmabufs allocated by then. -/
def ensureSized (g : Gl) (size : ℕ × ℕ) : SizedState × ℕ :=
  match g.sized with
  | some s => if s.size = size then (s, g.allocated) else (g.build size, g.allocated + 2)
  | none => (g.build size, g.allocated + 2)

/-- Takes the next target of the pool and leaves `picture` in it. -/
def render (g : Gl) (size : ℕ × ℕ) (picture : Bytes) : ℕ × Gl :=
  let (s, allocated) := g.ensureSized size
  let target := s.targets s.nextTarget
  (target, {
    sized := some { s with nextTarget := s.nextTarget + 1 }
    allocated
    memory := Function.update g.memory target picture })

end Gl

/-- How a GL render ends: drawn, or without a target pool, or failed with
something in the target. -/
inductive RenderOutcome
  | drawn
  | notSized
  | notDrawn (left : Bytes)

/-- The compositor's state, the region `take_dirty` stashed, and the backend's state. -/
structure Screen (ι : Type*) where
  state : Compositor.State ι
  repaintRegion : List Rect
  gl : Gl

namespace Screen

variable {ι : Type*} (s : Screen ι)

/-- `take_dirty`, but for the flag it returns. -/
def takeDirty : Screen ι :=
  { s with state := { s.state with damage := [] }, repaintRegion := s.state.damage }

/-- The software renderer, with the stashed region. -/
def renderer : Compositor.Renderer := { s.state with damage := s.repaintRegion }.renderer

/-- What GL draws of the compositor's windows. -/
def drawn (c : Config) : Bytes := c.draw s.state.width s.state.height s.state.windows

/-- `render`, of either backend. -/
def render (c : Config) (outcome : RenderOutcome) : Option CapturedFrame × Screen ι :=
  let size := (s.state.width, s.state.height)
  match c.backend with
  | .sw =>
    let (data, renderer) := s.renderer.render
    (some (.cpu ⟨data, size.1, size.2, renderer.lastRepaintRects⟩),
      { s with state := { s.state with canvas := data }, repaintRegion := [] })
  | .gl produceGpuFrames =>
    match outcome with
    | .notSized => (none, s)
    | .notDrawn left => (none, { s with gl := (s.gl.render size left).2 })
    | .drawn =>
      let (target, gl) := s.gl.render size (s.drawn c)
      (some (if produceGpuFrames then .gpu target size.1 size.2
        else .cpu ⟨s.drawn c, size.1, size.2, []⟩), { s with gl })

/-- `readd_damage`: full-width rows. -/
def readdDamage (rects : List DamageRect) : Screen ι :=
  { s with state := rects.foldl (fun state r => state.addDamage ⟨0, r.y, state.width, r.height⟩) s.state }

/-- What `submit` finds in a frame: its size and its pixels. A dmabuf
holds what was last drawn into it. -/
def view : CapturedFrame → (ℕ × ℕ) × Bytes
  | .cpu raw => ((raw.width, raw.height), raw.data)
  | .gpu dmabuf width height => ((width, height), s.gl.memory dmabuf)

end Screen

/-! ## The parties -/

/-- Where the render loop stands. -/
inductive Loop
  /-- Dispatching clients, between two captures. -/
  | top
  /-- The output is resized, the encoder not told yet. -/
  | resizing (width height : ℕ)
  /-- Captures, and asks for a keyframe first. -/
  | requesting
  | rendering
  | sending (frame : CapturedFrame)

/-- Where the encoder thread stands. -/
inductive Thread
  | control
  | checkResize
  | draining (width height : ℕ)
  | receiving
  | skipping (frame : CapturedFrame)
  | matching (frame : CapturedFrame)
  /-- Draining the control messages again, with a frame in hand. -/
  | controlAgain (frame : CapturedFrame)
  | submitting (frame : CapturedFrame)
  | exited

/-- The encoder thread is gone, and with it the receiving ends. -/
def Thread.isExited : Thread → Bool
  | exited => true
  | _ => false

/-- The frame the encoder thread has in hand. -/
def Thread.inHand : Thread → List CapturedFrame
  | skipping frame | matching frame | controlAgain frame | submitting frame => [frame]
  | control | checkResize | draining _ _ | receiving | exited => []

/-- A keyframe request of some connection handler. -/
inductive Request
  | notMade
  /-- `force_render` is stored. -/
  | stored
  /-- And `ForceKeyframe` is sent. -/
  | sent
  /-- A keyframe was encoded after that. -/
  | answered
  deriving DecidableEq

/-- The pipeline: the shared objects, the loop's and the thread's own
state, and what was last given to `submit`. -/
structure State (ι ρ E : Type*) where
  forceRender : Bool
  control : List EncoderControl
  frames : List CapturedFrame
  resizeTx : Watch (Option (ℕ × ℕ))
  requests : ρ → Request
  loop : Loop
  screen : Screen ι
  ticksSinceRender : ℕ
  keyframePending : Bool
  thread : Thread
  resizeRx : Watch.Receiver
  videoEncoder : E
  forceKeyframe : Bool
  submitted : Option ((ℕ × ℕ) × Bytes)

/-- The steps. The render loop chooses at its top; below it, and in the
encoder thread, what comes next is determined, but for what the libraries
do. -/
inductive Action (ι ρ Ω : Type*)
  | client (op : Compositor.Op ι)
  | resize (width height : ℕ)
  | tick
  | loop (outcome : RenderOutcome)
  | encoder (outcome : Ω)
  | store (r : ρ)
  | send (r : ρ)
  | changeBitrate (bitrate : ℕ)

/-- The frame queue's capacity. -/
def frameCapacity : ℕ := 4

/-- The control queue's capacity. -/
def controlCapacity : ℕ := 8

section Step

variable {ι ρ E Ω : Type*} [DecidableEq ι] [DecidableEq ρ] (c : Config) (V : VideoEncoder E Ω)

namespace State

variable (s : State ι ρ E)

/-- The frames accepted and not submitted yet, in order. -/
def inFlight : List CapturedFrame := s.thread.inHand ++ s.frames

/-- The render loop is on its way from the dirty flag to the queue. -/
def Capturing : Prop := s.loop = .requesting ∨ s.loop = .rendering ∨ ∃ frame, s.loop = .sending frame

/-- The content will be captured. -/
def Owed : Prop := s.screen.state.damage ≠ [] ∨ s.forceRender = true ∨ s.Capturing

/-- **A quiescent state**: no damage, no forced render, an empty queue, the
encoder thread waiting for a frame and the loop between two captures. -/
structure Quiescent : Prop where
  damage : s.screen.state.damage = []
  forceRender : s.forceRender = false
  frames : s.frames = []
  thread : s.thread = .receiving
  loop : s.loop = .top

/-- A capture begins: `take_dirty`, the swap of `force_render`, and
whether there is anything to capture. -/
def tick : State ι ρ E :=
  let screenDirty := !s.screen.state.damage.isEmpty
  let newClient := s.forceRender
  let keyframePending := s.keyframePending || decide (c.keyframeInterval ≤ s.ticksSinceRender)
  let work := screenDirty || newClient
  { s with
    screen := s.screen.takeDirty
    forceRender := false
    keyframePending
    loop := if work then (if keyframePending then .requesting else .rendering) else .top
    ticksSinceRender := if work then s.ticksSinceRender else s.ticksSinceRender + 1 }

/-- A control message, if there is room for it and someone to read it. -/
def pushControl (m : EncoderControl) : List EncoderControl :=
  if s.thread.isExited || decide (controlCapacity ≤ s.control.length) then s.control
  else s.control ++ [m]

/-- The render loop goes on. -/
def stepLoop (outcome : RenderOutcome) : Option (State ι ρ E) :=
  match s.loop with
  | .top => none
  | .resizing width height =>
    some { s with resizeTx := s.resizeTx.send (some (width, height)), loop := .top }
  | .requesting =>
    some { s with
      control := s.pushControl .forceKeyframe
      keyframePending := false
      loop := .rendering }
  | .rendering =>
    match s.screen.render c outcome with
    | (some frame, screen) => some { s with screen, loop := .sending frame }
    | (none, screen) => some { s with screen, loop := .top }
  | .sending frame =>
    if s.thread.isExited then
      some { s with ticksSinceRender := s.ticksSinceRender + 1, loop := .top }
    else if s.frames.length < frameCapacity then
      some { s with frames := s.frames ++ [frame], ticksSinceRender := 0, loop := .top }
    else
      let screen := match frame with
        | .cpu raw => s.screen.readdDamage raw.damage
        | .gpu _ _ _ => s.screen
      some { s with screen, ticksSinceRender := s.ticksSinceRender + 1, loop := .top }

/-- A control message is applied. -/
def applyControl (outcome : Ω) : EncoderControl → State ι ρ E
  | .forceKeyframe => { s with forceKeyframe := true }
  | .changeBitrate bitrate =>
    { s with videoEncoder := V.changeBitrate s.videoEncoder bitrate outcome }

/-- The encoder is rebuilt for a size, or the thread ends. -/
def rebuild (outcome : Ω) (size : ℕ × ℕ) (next : Thread) : State ι ρ E :=
  match V.reinitialize s.videoEncoder size.1 size.2 outcome with
  | some videoEncoder => { s with videoEncoder, thread := next }
  | none => { s with thread := .exited }

/-- Requests sent are answered by a keyframe. -/
def answer (packets : Option (List EncodedPacket)) : ρ → Request := fun r =>
  if s.requests r = .sent ∧ (packets.getD []).any (fun p => p.isKeyframe) then .answered
  else s.requests r

/-- The encoder thread goes on. -/
def stepEncoder (outcome : Ω) : Option (State ι ρ E) :=
  match s.thread with
  | .control =>
    match s.control with
    | m :: control => some ({ s with control }.applyControl V outcome m)
    | [] => some { s with thread := .checkResize }
  | .checkResize =>
    if s.resizeTx.hasChanged s.resizeRx then
      let s := { s with resizeRx := s.resizeTx.subscribe }
      match s.resizeTx.value with
      | some (width, height) => some { s with thread := .draining width height }
      | none => some { s with thread := .receiving }
    else some { s with thread := .receiving }
  | .draining width height =>
    match s.frames with
    | _ :: frames => some { s with frames }
    | [] => some (s.rebuild V outcome (width, height) .receiving)
  | .receiving =>
    match s.frames with
    | frame :: frames => some { s with frames, thread := .skipping frame }
    | [] => none
  | .skipping frame =>
    match s.frames with
    | newer :: frames => some { s with frames, thread := .skipping (frame.skip newer) }
    | [] => some { s with thread := .matching frame }
  | .matching frame =>
    if frame.dimensions = (V.width s.videoEncoder, V.height s.videoEncoder) then
      some { s with thread := .controlAgain frame }
    else some (s.rebuild V outcome frame.dimensions (.controlAgain frame))
  | .controlAgain frame =>
    match s.control with
    | m :: control => some ({ s with control }.applyControl V outcome m)
    | [] => some { s with thread := .submitting frame }
  | .submitting frame =>
    let (videoEncoder, packets) := V.submit s.videoEncoder frame s.forceKeyframe outcome
    some { s with
      videoEncoder
      forceKeyframe := false
      submitted := some (s.screen.view frame)
      requests := s.answer packets
      thread := .control }
  | .exited => none

/-- One step of one party. -/
def step : Action ι ρ Ω → Option (State ι ρ E)
  | .client op =>
    match s.loop with
    | .top =>
      if op.isClient then
        (s.screen.state.step op).map fun state => { s with screen := { s.screen with state } }
      else none
    | _ => none
  | .resize width height =>
    match s.loop with
    | .top =>
      if 0 < width ∧ 0 < height then
        (s.screen.state.step (.resizeOutput width height)).map fun state =>
          { s with screen := { s.screen with state }, loop := .resizing width height }
      else none
    | _ => none
  | .tick =>
    match s.loop with
    | .top => some (s.tick c)
    | _ => none
  | .loop outcome => s.stepLoop c outcome
  | .encoder outcome => s.stepEncoder V outcome
  | .store r =>
    if s.requests r = .notMade then
      some { s with forceRender := true, requests := Function.update s.requests r .stored }
    else none
  | .send r =>
    if s.requests r = .stored ∧ (s.thread.isExited ∨ s.control.length < controlCapacity) then
      some { s with
        control := s.pushControl .forceKeyframe
        requests := Function.update s.requests r .sent }
    else none
  | .changeBitrate bitrate =>
    if s.thread.isExited ∨ s.control.length < controlCapacity then
      some { s with control := s.pushControl (.changeBitrate bitrate) }
    else none

end State

/-- Neither render nor submit fails. -/
def NoFailure (V : VideoEncoder E Ω) (s : State ι ρ E) : Action ι ρ Ω → Prop
  | .loop outcome => s.loop = .rendering → outcome = .drawn
  | .encoder outcome => ∀ frame, s.thread = .submitting frame →
      (V.submit s.videoEncoder frame s.forceKeyframe outcome).2 ≠ none
  | _ => True

/-- The pipeline, started: an output of some size with nothing on it, all
of it damaged, and an encoder as its constructor leaves it. -/
structure Started (s : State ι ρ E) : Prop where
  forceRender : s.forceRender = false
  control : s.control = []
  frames : s.frames = []
  resizeTx : s.resizeTx = Watch.channel none
  requests : s.requests = fun _ => .notMade
  loop : s.loop = .top
  size : 0 < s.screen.state.width ∧ 0 < s.screen.state.height
  state : (Compositor.machine ι).init s.screen.state
  gl : s.screen.gl.sized = none
  thread : s.thread = .control
  resizeRx : s.resizeRx = s.resizeTx.subscribe
  videoEncoder : V.Started s.videoEncoder
  forceKeyframe : s.forceKeyframe = false
  submitted : s.submitted = none

omit [DecidableEq ρ] in
theorem Started.sane {s : State ι ρ E} (h : Started V s) : Compositor.Sane s.screen.state :=
  Compositor.reachable_sane (.start h.state)

/-- The pipeline as it starts on an output of a given size. -/
def start (width height : ℕ) (videoEncoder : E) : State ι ρ E where
  forceRender := false
  control := []
  frames := []
  resizeTx := Watch.channel none
  requests _ := .notMade
  loop := .top
  screen := {
    state := ⟨width, height, fun _ => none, [], [Compositor.fullOutputDamage width height], []⟩
    repaintRegion := []
    gl := ⟨none, 0, fun _ => []⟩ }
  ticksSinceRender := 0
  keyframePending := false
  thread := .control
  resizeRx := (Watch.channel (none : Option (ℕ × ℕ))).subscribe
  videoEncoder
  forceKeyframe := false
  submitted := none

omit [DecidableEq ρ] in
theorem started_start {width height : ℕ} {e : E} (hsize : 0 < width ∧ 0 < height)
    (hbytes : width * height * 4 < 2 ^ 32) (he : V.Started e) :
    Started V (start width height e : State ι ρ E) :=
  ⟨rfl, rfl, rfl, rfl, rfl, rfl, hsize, ⟨hbytes, rfl, rfl, rfl, rfl⟩, rfl, rfl, rfl, he, rfl, rfl⟩

variable (ι ρ) in
/-- The pipeline as a machine. -/
def machine : Machine (State ι ρ E) (Action ι ρ Ω) where
  init := Started V
  step s a := s.step c V a

end Step

/-! ## A small pipeline, for fixed runs -/

/-- A scaler for fixed runs. -/
def someScaler : Scaler := fun _ row _ => ⟨row, row, [], []⟩

/-- An encoder for fixed runs. -/
def someEncoder : X264Encoder :=
  X264Encoder.new ⟨2, 4, .bitrate 1000⟩ ⟨fun _ => [], fun _ => [], fun _ => []⟩

/-- The software backend, for fixed runs. -/
def someConfig : Config := ⟨.sw, fun _ _ _ => [], 60⟩

/-- A white buffer of the output's size with a third row of its own, for
fixed runs. -/
def someBuffer (third : UInt8) : Compositor.Buffer :=
  .shm ⟨List.replicate 16 255 ++ List.replicate 8 third ++ List.replicate 8 255, 0, 2, 4, 8⟩

theorem someStarted : Started (x264 someScaler) (start 2 4 someEncoder : State Unit Unit X264Encoder) :=
  started_start _ (by decide) (by decide) ⟨_, _, rfl⟩

end Pipeline

end WaylandWebStream
