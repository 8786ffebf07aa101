import WaylandWebStream.Encoder.Convert

/-!
# Encoder backends

A captured frame is a CPU buffer or a dmabuf; an encoder backend submits
frames, is rebuilt for a new size and changes its bitrate. FFmpeg is
outside the repository: what it makes of a call is an argument of the
call. The x264 backend is given in full.
-/

namespace WaylandWebStream

namespace Encoder

open Compositor (DamageRect u32)

/-- What a render backend hands on: a CPU frame, or the id of a dmabuf. -/
inductive CapturedFrame
  | cpu (raw : RawFrame)
  | gpu (dmabuf : ℕ) (width height : ℕ)

/-- `dimensions()`. -/
def CapturedFrame.dimensions : CapturedFrame → ℕ × ℕ
  | cpu raw => (raw.width, raw.height)
  | gpu _ width height => (width, height)

/-- One turn of `skip_to_newest_frame`: the newer frame, with the stale
one's damage carried forward. No damage means the whole frame on either
side. -/
def CapturedFrame.skip (stale newer : CapturedFrame) : CapturedFrame :=
  match stale, newer with
  | cpu raw, cpu keep =>
    cpu { keep with
      damage := if keep.damage.isEmpty || raw.damage.isEmpty then [] else keep.damage ++ raw.damage }
  | cpu _, gpu dmabuf width height => gpu dmabuf width height
  | gpu _ _ _, newer => newer

/-- A packet as the encoder thread sends it on. -/
structure EncodedPacket where
  data : Bytes
  isKeyframe : Bool
  frameId : UInt32

/-- Control messages for the encoder. -/
inductive EncoderControl
  | forceKeyframe
  | changeBitrate (bitrate : ℕ)
  deriving DecidableEq

/-- The encoder interface, over the encoder's state and what its
libraries do during one call. `submit` may fail, and so may
`reinitialize`, which then ends the encoder thread. -/
structure VideoEncoder (E Ω : Type*) where
  /-- What a constructor leaves. -/
  Started : E → Prop
  width : E → ℕ
  height : E → ℕ
  submit : E → CapturedFrame → Bool → Ω → E × Option (List EncodedPacket)
  reinitialize : E → ℕ → ℕ → Ω → Option E
  changeBitrate : E → ℕ → Ω → E

/-- A constant rate, or a constant quality. -/
inductive RateControl
  | bitrate (bitsPerSecond : ℕ)
  | quality (crf : ℕ)
  deriving DecidableEq

structure EncoderConfig where
  width : ℕ
  height : ℕ
  rateControl : RateControl
  deriving DecidableEq

/-- What FFmpeg does during one call. -/
structure Ffmpeg where
  /-- `create_encoder` and what is allocated with it succeed. -/
  opens : Bool := true
  /-- What a newly allocated frame holds. -/
  fresh : YuvFrame := ⟨fun _ => [], fun _ => [], fun _ => []⟩
  /-- `scaler.run` succeeds. -/
  converts : Bool := true
  /-- What a conversion that failed left in the frame, if anything. -/
  halfConverted : Option YuvFrame := none
  /-- `send_frame` succeeds. -/
  sends : Bool := true
  /-- The packet of the frame sent, and whether it is a keyframe unasked. -/
  packet : Bytes × Bool := ([], false)
  /-- Packets beyond it. -/
  more : List (Bytes × Bool) := []
  /-- `receive_packet` runs dry, and does not fail. -/
  drains : Bool := true

/-- The x264 backend. -/
structure X264Encoder where
  config : EncoderConfig
  /-- The configuration the live encoder was opened with. -/
  encoder : EncoderConfig
  /-- The size of the input frame and of the scaler. -/
  inputFrame : ℕ × ℕ
  yuvFrame : YuvFrame
  frameCount : ℕ
  nextFrameId : UInt32
  needsFullConvert : Bool

/-- `drain_packets`: numbers the packets FFmpeg returns. -/
def drainPackets (nextFrameId : UInt32) : List (Bytes × Bool) → List EncodedPacket
  | [] => []
  | (data, isKey) :: rest => ⟨data, isKey, nextFrameId⟩ :: drainPackets (nextFrameId + 1) rest

namespace X264Encoder

variable (scaler : Scaler)

/-- `encode_frame`. A frame tagged `I` comes out as a keyframe. -/
def encodeFrame (e : X264Encoder) (raw : RawFrame) (forceKeyframe forceFullConvert : Bool)
    (ffmpeg : Ffmpeg) : X264Encoder × Option (List EncodedPacket) :=
  let expectedLen := u32 (u32 (e.inputFrame.1 * e.inputFrame.2) * 4)
  if raw.data.length < expectedLen then (e, none)
  else
    let full := forceFullConvert || forceKeyframe || raw.damage.isEmpty
    if full && !ffmpeg.converts then
      ({ e with yuvFrame := ffmpeg.halfConverted.getD e.yuvFrame }, none)
    else
      let yuvFrame :=
        if full then swsScale scaler e.inputFrame.1 raw.data 0 e.inputFrame.2 e.yuvFrame
        else convertDamagedRows scaler e.inputFrame.1 raw.data raw.damage raw.height e.yuvFrame
      let e := { e with yuvFrame }
      if !ffmpeg.sends then (e, none)
      else
        let packets := drainPackets e.nextFrameId
          ((ffmpeg.packet.1, forceKeyframe || ffmpeg.packet.2) :: ffmpeg.more)
        let e := { e with nextFrameId := e.nextFrameId + UInt32.ofNat packets.length }
        if ffmpeg.drains then (e, some packets) else (e, none)

/-- `submit`: a GPU frame is refused. -/
def submit (e : X264Encoder) (frame : CapturedFrame) (forceKeyframe : Bool) (ffmpeg : Ffmpeg) :
    X264Encoder × Option (List EncodedPacket) :=
  match frame with
  | .gpu _ _ _ => (e, none)
  | .cpu raw =>
    match e.encodeFrame scaler raw forceKeyframe e.needsFullConvert ffmpeg with
    | (e, some packets) =>
      ({ e with needsFullConvert := false, frameCount := e.frameCount + 1 }, some packets)
    | (e, none) => (e, none)

/-- `reinitialize`. -/
def reinitialize (e : X264Encoder) (width height : ℕ) (ffmpeg : Ffmpeg) : Option X264Encoder :=
  let config := { e.config with width, height }
  if ffmpeg.opens then
    some { e with
      config
      encoder := config
      inputFrame := (width, height)
      yuvFrame := ffmpeg.fresh
      frameCount := 0
      needsFullConvert := true }
  else none

/-- `change_bitrate`: ignored in constant-quality mode; a new rate is
recorded, and the live encoder replaced if a new one opens. -/
def changeBitrate (e : X264Encoder) (bitrate : ℕ) (ffmpeg : Ffmpeg) : X264Encoder :=
  if e.config.rateControl = .bitrate bitrate then e
  else
    match e.config.rateControl with
    | .quality _ => e
    | .bitrate _ =>
      let config := { e.config with rateControl := .bitrate bitrate }
      if ffmpeg.opens then { e with config, encoder := config, frameCount := 0 }
      else { e with config }

/-- `X264Encoder::new`. -/
def new (config : EncoderConfig) (fresh : YuvFrame) : X264Encoder where
  config
  encoder := config
  inputFrame := (config.width, config.height)
  yuvFrame := fresh
  frameCount := 0
  nextFrameId := 0
  needsFullConvert := true

end X264Encoder

/-- The x264 backend as an encoder. -/
def x264 (scaler : Scaler) : VideoEncoder X264Encoder Ffmpeg where
  Started e := ∃ config fresh, e = X264Encoder.new config fresh
  width e := e.config.width
  height e := e.config.height
  submit := X264Encoder.submit scaler
  reinitialize := X264Encoder.reinitialize
  changeBitrate := X264Encoder.changeBitrate

/-! ## What a submit does -/

namespace X264Encoder

variable {scaler : Scaler} {e e' : X264Encoder} {raw : RawFrame} {force : Bool} {ffmpeg : Ffmpeg}
  {packets : List EncodedPacket}

/-- **A successful submit** has converted the frame, in full or by its
damage, and clears the flag that asks for a full conversion. -/
theorem submit_cpu (h : e.submit scaler (.cpu raw) force ffmpeg = (e', some packets)) :
    e'.config = e.config ∧ e'.inputFrame = e.inputFrame ∧ e'.needsFullConvert = false ∧
    e'.yuvFrame =
      if e.needsFullConvert || force || raw.damage.isEmpty then
        swsScale scaler e.inputFrame.1 raw.data 0 e.inputFrame.2 e.yuvFrame
      else convertDamagedRows scaler e.inputFrame.1 raw.data raw.damage raw.height e.yuvFrame := by
  simp only [submit, encodeFrame] at h
  split at h
  · rename_i e₁ packets' hencode
    split at hencode
    · cases hencode
    split at hencode
    · cases hencode
    split at hencode
    · cases hencode
    split at hencode
    · cases hencode
      cases h
      exact ⟨rfl, rfl, rfl, rfl⟩
    · cases hencode
  · cases h

/-- **A forced keyframe is a keyframe.** -/
theorem submit_forced (h : e.submit scaler (.cpu raw) true ffmpeg = (e', some packets)) :
    ∃ p ∈ packets, p.isKeyframe = true := by
  simp only [submit, encodeFrame] at h
  split at h
  · rename_i e₁ packets' hencode
    split at hencode
    · cases hencode
    split at hencode
    · cases hencode
    split at hencode
    · cases hencode
    split at hencode
    · cases hencode
      cases h
      exact ⟨_, List.mem_cons_self, rfl⟩
    · cases hencode
  · cases h

/-- A bitrate change leaves the sizes and the YUV frame alone. -/
theorem changeBitrate_keeps (e : X264Encoder) (bitrate : ℕ) (ffmpeg : Ffmpeg) :
    let e' := e.changeBitrate bitrate ffmpeg
    e'.config.width = e.config.width ∧ e'.config.height = e.config.height ∧
    e'.inputFrame = e.inputFrame ∧ e'.yuvFrame = e.yuvFrame ∧
    e'.needsFullConvert = e.needsFullConvert := by
  dsimp only
  unfold changeBitrate
  split
  · exact ⟨rfl, rfl, rfl, rfl, rfl⟩
  split
  · exact ⟨rfl, rfl, rfl, rfl, rfl⟩
  · dsimp only
    split
    · exact ⟨rfl, rfl, rfl, rfl, rfl⟩
    · exact ⟨rfl, rfl, rfl, rfl, rfl⟩

/-- After a rebuild the next conversion is a full one, at the new size. -/
theorem reinitialize_eq {width height : ℕ} (h : e.reinitialize width height ffmpeg = some e') :
    e'.config.width = width ∧ e'.config.height = height ∧ e'.inputFrame = (width, height) ∧
    e'.needsFullConvert = true := by
  unfold reinitialize at h
  dsimp only at h
  split at h
  · cases h
    exact ⟨rfl, rfl, rfl, rfl⟩
  · cases h

end X264Encoder

end Encoder

end WaylandWebStream
