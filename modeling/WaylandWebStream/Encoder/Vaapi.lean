import WaylandWebStream.Encoder.X264

/-!
# The VAAPI backend

The hardware backend owns one pipeline, for CPU frames or for dmabufs as
it was configured, and rebuilds it whole for a new size or a new rate.
What FFmpeg and the driver make of a call is an argument of the call.
`LiveEncoder` is either backend, as the encoder thread holds it.
-/

namespace WaylandWebStream

namespace Encoder

open Compositor (u32)

/-- What FFmpeg and the driver do during one call. -/
structure Vaapi where
  /-- `build_pipeline_for` succeeds. -/
  opens : Bool := true
  /-- The frame is taken, or mapped and taken, by the filtergraph. -/
  feeds : Bool := true
  /-- The packets of what the filtergraph yields, and whether they are keyframes. -/
  yields : List (Bytes × Bool) := []
  /-- Filtergraph and encoder run dry, and do not fail. -/
  drains : Bool := true

/-- The two pipelines, each with the configuration it was opened with. -/
inductive VaapiPipeline
  | cpu (encoder : EncoderConfig)
  | gpu (encoder : EncoderConfig)
  deriving DecidableEq

/-- The configuration of the live encoder. -/
def VaapiPipeline.encoder : VaapiPipeline → EncoderConfig
  | cpu encoder => encoder
  | gpu encoder => encoder

/-- The VAAPI backend. -/
structure VaapiEncoder where
  config : EncoderConfig
  gpuFrames : Bool
  pipeline : VaapiPipeline
  frameCount : ℕ
  nextFrameId : UInt32

/-- `build_pipeline_for`. -/
def buildPipelineFor (config : EncoderConfig) (gpuFrames opens : Bool) : Option VaapiPipeline :=
  if opens then some (if gpuFrames then .gpu config else .cpu config) else none

namespace VaapiEncoder

/-- `drain_filtergraph`. -/
def drainFiltergraph (e : VaapiEncoder) (vaapi : Vaapi) :
    VaapiEncoder × Option (List EncodedPacket) :=
  let packets := drainPackets e.nextFrameId vaapi.yields
  let e := { e with nextFrameId := e.nextFrameId + UInt32.ofNat packets.length }
  if vaapi.drains then (e, some packets) else (e, none)

/-- `encode_cpu_frame`. -/
def encodeCpuFrame (e : VaapiEncoder) (raw : RawFrame) (vaapi : Vaapi) :
    VaapiEncoder × Option (List EncodedPacket) :=
  let expectedLen := u32 (u32 (e.pipeline.encoder.width * e.pipeline.encoder.height) * 4)
  if raw.data.length < expectedLen then (e, none)
  else if !vaapi.feeds then (e, none)
  else e.drainFiltergraph vaapi

/-- `encode_gpu_frame`. -/
def encodeGpuFrame (e : VaapiEncoder) (vaapi : Vaapi) :
    VaapiEncoder × Option (List EncodedPacket) :=
  if !vaapi.feeds then (e, none) else e.drainFiltergraph vaapi

/-- `submit`: a frame of the other kind is refused. -/
def submit (e : VaapiEncoder) (frame : CapturedFrame) (_forceKeyframe : Bool) (vaapi : Vaapi) :
    VaapiEncoder × Option (List EncodedPacket) :=
  let (e, result) :=
    match e.pipeline, frame with
    | .cpu _, .cpu raw => e.encodeCpuFrame raw vaapi
    | .gpu _, .gpu _ _ _ => e.encodeGpuFrame vaapi
    | .cpu _, .gpu _ _ _ => (e, none)
    | .gpu _, .cpu _ => (e, none)
  match result with
  | some packets => ({ e with frameCount := e.frameCount + 1 }, some packets)
  | none => (e, none)

/-- `reinitialize`. -/
def reinitialize (e : VaapiEncoder) (width height : ℕ) (vaapi : Vaapi) : Option VaapiEncoder :=
  let config := { e.config with width, height }
  (buildPipelineFor config e.gpuFrames vaapi.opens).map fun pipeline =>
    { e with config, pipeline, frameCount := 0 }

/-- `change_bitrate`. -/
def changeBitrate (e : VaapiEncoder) (bitrate : ℕ) (vaapi : Vaapi) : VaapiEncoder :=
  if e.config.rateControl = .bitrate bitrate then e
  else
    match e.config.rateControl with
    | .quality _ => e
    | .bitrate _ =>
      let config := { e.config with rateControl := .bitrate bitrate }
      match buildPipelineFor config e.gpuFrames vaapi.opens with
      | some pipeline => { e with config, pipeline, frameCount := 0 }
      | none => { e with config }

/-- `VaapiEncoder::new`, with a device and a pipeline. -/
def new (config : EncoderConfig) (gpuFrames : Bool) : VaapiEncoder where
  config
  gpuFrames
  pipeline := if gpuFrames then .gpu config else .cpu config
  frameCount := 0
  nextFrameId := 0

end VaapiEncoder

/-- The VAAPI backend as an encoder. -/
def vaapi : VideoEncoder VaapiEncoder Vaapi where
  Started e := ∃ config gpuFrames, e = VaapiEncoder.new config gpuFrames
  width e := e.config.width
  height e := e.config.height
  submit := VaapiEncoder.submit
  reinitialize := VaapiEncoder.reinitialize
  changeBitrate := VaapiEncoder.changeBitrate

/-! ## Either backend -/

/-- The encoder `build_video_encoder` makes, of either backend. -/
inductive LiveEncoder
  | x264 (e : X264Encoder)
  | vaapi (e : VaapiEncoder)

namespace LiveEncoder

/-- The rate control recorded in `config`. -/
def recorded : LiveEncoder → RateControl
  | x264 e => e.config.rateControl
  | vaapi e => e.config.rateControl

/-- The rate control the codec was opened with. -/
def inForce : LiveEncoder → RateControl
  | x264 e => e.encoder.rateControl
  | vaapi e => e.pipeline.encoder.rateControl

/-- `change_bitrate`, on a rebuild that succeeds or fails. -/
def changeBitrate (bitrate : ℕ) (opens : Bool) : LiveEncoder → LiveEncoder
  | x264 e => .x264 (e.changeBitrate bitrate { opens })
  | vaapi e => .vaapi (e.changeBitrate bitrate { opens })

/-- `reinitialize`, which leaves no encoder where it fails. -/
def reinitialize (width height : ℕ) (ffmpeg : Ffmpeg) : LiveEncoder → Option LiveEncoder
  | x264 e => Option.map .x264 <| e.reinitialize width height ffmpeg
  | vaapi e => Option.map .vaapi <| e.reinitialize width height { opens := ffmpeg.opens }

def width : LiveEncoder → ℕ
  | x264 e => e.config.width
  | vaapi e => e.config.width

def height : LiveEncoder → ℕ
  | x264 e => e.config.height
  | vaapi e => e.config.height

/-- `submit`. -/
def submit (scaler : Scaler) (frame : CapturedFrame) (forceKeyframe : Bool) (ffmpeg : Ffmpeg)
    (va : Vaapi) : LiveEncoder → LiveEncoder × Option (List EncodedPacket)
  | x264 e => Prod.map .x264 id (e.submit scaler frame forceKeyframe ffmpeg)
  | vaapi e => Prod.map .vaapi id (e.submit frame forceKeyframe va)

/-- Whether `submit` sends the frame's buffer back on `buffer_return_tx`,
arm by arm: after encoding, or before it refuses the frame. -/
def returnsBuffer (frame : CapturedFrame) : LiveEncoder → Bool
  | x264 _ =>
    match frame with
    | .cpu _ => true
    | .gpu _ _ _ => false
  | vaapi e =>
    match e.pipeline, frame with
    | .cpu _, .cpu _ => true
    | .gpu _, .gpu _ _ _ => false
    | .cpu _, .gpu _ _ _ => false
    | .gpu _, .cpu _ => true

/-- As the constructors leave it. -/
def Started (e : LiveEncoder) : Prop :=
  (∃ config fresh, e = .x264 (X264Encoder.new config fresh)) ∨
    ∃ config gpuFrames, e = .vaapi (VaapiEncoder.new config gpuFrames)

variable {e e' : LiveEncoder} {bitrate : ℕ} {opens : Bool}

/-- **Every CPU frame's buffer is sent back**, by either backend and by
either pipeline. -/
theorem returnsBuffer_cpu (e : LiveEncoder) (raw : RawFrame) :
    e.returnsBuffer (.cpu raw) = true := by
  cases e with
  | x264 e => rfl
  | vaapi e =>
    obtain ⟨config, gpuFrames, pipeline, frameCount, nextFrameId⟩ := e
    cases pipeline <;> rfl

/-- An encoder starts at the rate recorded. -/
theorem Started.inForce_eq (h : e.Started) : e.inForce = e.recorded := by
  rcases h with ⟨config, fresh, rfl⟩ | ⟨config, gpuFrames, rfl⟩
  · rfl
  · cases gpuFrames <;> rfl

/-- A request for the recorded rate does nothing. -/
theorem changeBitrate_same (h : e.recorded = .bitrate bitrate) :
    e.changeBitrate bitrate opens = e := by
  cases e with
  | x264 e =>
    rw [recorded] at h
    rw [changeBitrate, X264Encoder.changeBitrate, if_pos h]
  | vaapi e =>
    rw [recorded] at h
    rw [changeBitrate, VaapiEncoder.changeBitrate, if_pos h]

/-- **A request for another rate** is recorded whether or not the rebuild
for it succeeds, and in force only if it does. -/
theorem changeBitrate_other {r : ℕ} (opens : Bool) (h : e.recorded = .bitrate r)
    (hne : r ≠ bitrate) :
    (e.changeBitrate bitrate opens).recorded = .bitrate bitrate ∧
      (e.changeBitrate bitrate opens).inForce =
        if opens then .bitrate bitrate else e.inForce := by
  have hother : RateControl.bitrate r ≠ .bitrate bitrate := fun heq => hne (by cases heq; rfl)
  cases e with
  | x264 e =>
    rw [recorded] at h
    rw [changeBitrate, X264Encoder.changeBitrate, h, if_neg hother]
    cases opens <;> exact ⟨rfl, rfl⟩
  | vaapi e =>
    rw [recorded] at h
    rw [changeBitrate, VaapiEncoder.changeBitrate, h, if_neg hother]
    cases opens
    · exact ⟨rfl, rfl⟩
    · cases e.gpuFrames <;> exact ⟨rfl, rfl⟩

/-- A rebuild for a size puts the recorded rate in force. -/
theorem reinitialize_rates {width height : ℕ} {ffmpeg : Ffmpeg}
    (h : e.reinitialize width height ffmpeg = some e') :
    e'.recorded = e.recorded ∧ e'.inForce = e.recorded := by
  cases e with
  | x264 e =>
    obtain ⟨e₁, hopen, rfl⟩ := Option.map_eq_some_iff.1 h
    unfold X264Encoder.reinitialize at hopen
    dsimp only at hopen
    split at hopen
    · cases hopen
      exact ⟨rfl, rfl⟩
    · cases hopen
  | vaapi e =>
    obtain ⟨e₁, hopen, rfl⟩ := Option.map_eq_some_iff.1 h
    obtain ⟨pipeline, hpipeline, rfl⟩ := Option.map_eq_some_iff.1 hopen
    rw [buildPipelineFor] at hpipeline
    split_ifs at hpipeline
    · cases hpipeline
      exact ⟨rfl, rfl⟩
    · cases hpipeline
      exact ⟨rfl, rfl⟩

end LiveEncoder

end Encoder

end WaylandWebStream
