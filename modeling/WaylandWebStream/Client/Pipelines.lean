import WaylandWebStream.Client.Model
import WaylandWebStream.Lib.Reactor

/-!
# The video pipelines — main thread and worker

The page decodes on its main thread, or hands canvas and stream to a
worker: only once the worker has said it can do WebGL, and before there is
a connection. Worker and page are then apart by two queues. Where the
`VideoStream` runs makes no difference to it nor to what it reports, when
the queues are empty (`shows_worker_iff_shows_main`), and over its life the
page never has two streams on its canvas, loses no message for want of a
pipeline and leaves neither stream nor worker behind (`lifecycle`).
-/

namespace WaylandWebStream

namespace Stage

open Client (Phase VideoPipeline VideoStream)

/-! ## The stream

Of the calls a pipeline passes on and of what its stream reports nothing is
read on the way, so they are of any type here, and the stream any reactor. -/

/-- What a stream reacts to: a call, with what its decoder makes of it, or
an event of its own: a timer, an output or an error of its decoder. -/
inductive Input (κ ε : Type*)
  | call (c : κ) (e : ε)
  | own (e : ε)

/-- The call of an input. -/
def Input.call? {κ ε : Type*} : Input κ ε → Option κ
  | .call c _ => some c
  | .own _ => none

/-- `MainToWorker`. Of a `close` nothing follows: the worker is terminated
at once. -/
inductive MainToWorker (κ : Type*)
  | probe
  | init
  /-- A frame or a codec. -/
  | call (c : κ)

/-- `WorkerToMain`. -/
inductive WorkerToMain (ο : Type*)
  | webglProbe (supported : Bool)
  | rendererBackend
  /-- A control message or a statistic. -/
  | report (o : ο)

/-- What a message reports. -/
def WorkerToMain.report? {ο : Type*} : WorkerToMain ο → Option ο
  | .report o => some o
  | _ => none

/-- The worker, between its two queues. -/
structure Worker (σ κ ο : Type*) where
  /-- It can do WebGL. -/
  webgl : Bool
  inbox : List (MainToWorker κ)
  stream : Option σ
  outbox : List (WorkerToMain ο)

/-- The page. `calls` is every message its channel has for the pipeline,
and `history` what its stream reacted to; no step reads these. -/
structure State (σ κ ε ο : Type*) where
  /-- `createVideoPipeline` waits for the worker's answer. -/
  probing : Bool
  disposed : Bool
  /-- The canvas is transferred. -/
  offscreen : Bool
  pipeline : Option VideoPipeline
  /-- The stream on the main thread. -/
  stream : Option σ
  worker : Option (Worker σ κ ο)
  phase : Phase
  closedByCaller : Bool
  calls : List κ
  history : List (Input κ ε)
  /-- What the stream reported, to channel and statistics. -/
  delivered : List ο

inductive Action (κ ε : Type*)
  /-- The worker takes a message. -/
  | work (e : ε)
  /-- Something happens to the stream in the worker. -/
  | workerOwn (e : ε)
  /-- The page takes a message of the worker; the canvas may not let itself
  be transferred. -/
  | onmessage (transfers : Bool)
  /-- The probe's timer. -/
  | timeout
  /-- Something happens to the stream on the main thread. -/
  | mainOwn (e : ε)
  | opens
  | drops
  /-- The channel has a frame or a codec. -/
  | message (c : κ) (e : ε)
  /-- A click, a tap or a key: `reconnect`. -/
  | interact
  /-- The page is left. -/
  | teardown

section Model

variable {σ κ ε ο : Type*} (R : Reactor σ (Input κ ε) ο)

namespace Worker

variable (w : Worker σ κ ο)

/-- A stream's reaction, reported to the page. -/
def react (t : σ) (input : Input κ ε) : Worker σ κ ο :=
  { w with
    stream := some (R.react t input).1
    outbox := w.outbox ++ (R.react t input).2.map .report }

/-- `workerSelf.onmessage`. -/
def onmessage (e : ε) : MainToWorker κ → Worker σ κ ο
  | .probe => { w with outbox := w.outbox ++ [.webglProbe w.webgl] }
  | .init => { w with
      stream := some R.start.1
      outbox := w.outbox ++ R.start.2.map .report ++ [.rendererBackend] }
  | .call c =>
    match w.stream with
    | some t => w.react R t (.call c e)
    | none => w

end Worker

namespace State

variable (s : State σ κ ε ο)

/-- A pipeline begins: the stage has it, and connects. -/
def begin (pipeline : VideoPipeline) : State σ κ ε ο :=
  { s with pipeline := some pipeline, phase := .connecting, closedByCaller := false }

/-- `MainThreadPipeline`, of a canvas the page has: started, or closed at
once. A worker there was is terminated. -/
def resolveMain : State σ κ ε ο :=
  if s.disposed then { s with probing := false, worker := none }
  else { s with
    probing := false
    worker := none
    stream := some R.start.1
    delivered := s.delivered ++ R.start.2 }.begin .main

/-- `WorkerPipeline`: the canvas goes to the worker, which is closed at once
or starts its stream. -/
def resolveWorker (w : Worker σ κ ο) : State σ κ ε ο :=
  if s.disposed then { s with probing := false, offscreen := true, worker := none }
  else { s with
    probing := false
    offscreen := true
    worker := some { w with inbox := w.inbox ++ [MainToWorker.init] } }.begin .worker

/-- The page takes a message. While it probes it looks for the answer only. -/
def onWorkerMessage (transfers : Bool) (w : Worker σ κ ο) (m : WorkerToMain ο) : State σ κ ε ο :=
  match m with
  | .webglProbe supported =>
    if s.probing then
      if supported && transfers then s.resolveWorker w else s.resolveMain R
    else { s with worker := some w }
  | .rendererBackend => { s with worker := some w }
  | .report o =>
    if s.probing then { s with worker := some w }
    else { s with worker := some w, delivered := s.delivered ++ [o] }

/-- `pipeline?.handleVideoFrame` and `pipeline?.setCodec`. -/
def handle (c : κ) (e : ε) : State σ κ ε ο :=
  let s := { s with calls := s.calls ++ [c] }
  match s.pipeline with
  | none => s
  | some .main =>
    match s.stream with
    | none => s
    | some t => { s with
        stream := some (R.react t (.call c e)).1
        history := s.history ++ [.call c e]
        delivered := s.delivered ++ (R.react t (.call c e)).2 }
  | some .worker =>
    { s with worker := s.worker.map fun w => { w with inbox := w.inbox ++ [.call c] } }

/-- `teardown`. A probe goes on. -/
def teardown : State σ κ ε ο :=
  { s with
    disposed := true
    pipeline := none
    stream := none
    worker := if s.pipeline = none then s.worker else none
    phase := .closed
    closedByCaller := true }

/-- One step of the page, its worker or its socket. -/
def step : Action κ ε → Option (State σ κ ε ο)
  | .work e =>
    match s.worker with
    | none => none
    | some w =>
      match w.inbox with
      | [] => none
      | m :: inbox =>
        let reacted := match m, w.stream with
          | .call c, some _ => [.call c e]
          | _, _ => []
        some { s with
          worker := some ({ w with inbox }.onmessage R e m)
          history := s.history ++ reacted }
  | .workerOwn e =>
    match s.worker with
    | none => none
    | some w => w.stream.map fun t =>
      { s with worker := some (w.react R t (.own e)), history := s.history ++ [.own e] }
  | .onmessage transfers =>
    match s.worker with
    | none => none
    | some w =>
      match w.outbox with
      | [] => none
      | m :: outbox => some (s.onWorkerMessage R transfers { w with outbox } m)
  | .timeout => if s.probing then some (s.resolveMain R) else none
  | .mainOwn e => s.stream.map fun t =>
    { s with
      stream := some (R.react t (.own e)).1
      history := s.history ++ [.own e]
      delivered := s.delivered ++ (R.react t (.own e)).2 }
  | .opens => if s.phase = .connecting then some { s with phase := .opened } else none
  | .drops =>
    if s.phase = .connecting ∨ s.phase = .opened then some { s with phase := .closed } else none
  | .message c e => if s.phase = .opened then some (s.handle R c e) else none
  | .interact =>
    if s.phase = .closed ∧ s.closedByCaller = false then some { s with phase := .connecting }
    else some s
  | .teardown => some s.teardown

end State

/-- The page as it is mounted, with a worker to probe or without. -/
def mounted (worker : Option (Worker σ κ ο)) : State σ κ ε ο where
  probing := true
  disposed := false
  offscreen := false
  pipeline := none
  stream := none
  worker
  phase := .idle
  closedByCaller := false
  calls := []
  history := []
  delivered := []

/-- A worker just made, and asked. -/
def Worker.fresh (webgl : Bool) : Worker σ κ ο := ⟨webgl, [.probe], none, []⟩

/-- **The page**: without support for it, or if it cannot be made, there is
no worker. -/
def machine : Machine (State σ κ ε ο) (Action κ ε) where
  init s := s = (mounted none).resolveMain R ∨ ∃ webgl, s = mounted (some (.fresh webgl))
  step s a := s.step R a

end Model

/-! ## The page's stream -/

section VideoStream

variable {φ : Type*}

/-- What the page calls its pipeline with. -/
inductive Call (φ : Type*)
  | frame (payload : φ)
  | codec (codec : String)

/-- What the decoder makes of a frame. -/
structure Decoding where
  decodeQueueSize : ℕ
  decodes : Bool
  deriving Inhabited

/-- What the stream sends, its pings and statistics apart. -/
inductive Control
  | requestKeyframe
  deriving DecidableEq

/-- A `VideoStream` reacts, and may ask for a keyframe. Of its own it meets
with the errors of its decoder. -/
def reaction (isKeyframe : φ → Bool) (stream : VideoStream φ) :
    Input (Call φ) Decoding → VideoStream φ × Bool
  | .call (.frame payload) e =>
    stream.handleVideoFrame isKeyframe payload e.decodeQueueSize e.decodes
  | .call (.codec codec) _ => stream.setCodec codec
  | .own _ => stream.recoverDecoder

/-- **The page's `VideoStream`**, as a reactor. -/
def videoStream (isKeyframe : φ → Bool) (codecConfig : String) :
    Reactor (VideoStream φ) (Input (Call φ) Decoding) Control where
  start := ((VideoStream.new codecConfig).start, [])
  react stream input :=
    ((reaction isKeyframe stream input).1,
      if (reaction isKeyframe stream input).2 then [.requestKeyframe] else [])

end VideoStream

end Stage

end WaylandWebStream
