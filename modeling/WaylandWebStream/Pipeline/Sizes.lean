import WaylandWebStream.Compositor.OutputSize
import WaylandWebStream.Encoder.Vaapi
import WaylandWebStream.Lib.Logged
import WaylandWebStream.Pipeline.Steps

/-!
# The size in force — output, encoder and announced codec

The output is resized by the render loop, the encoder by its own thread,
which learns of a size twice: from the watch channel, and from the frames
themselves. Wherever the thread has nothing unseen in the channel, the
encoder, the frames on their way to it and the output have one size
(`in_step`); and a packet never leaves the thread before the codec string
of its size (`codec_announced`).
-/

namespace WaylandWebStream

namespace Encoder

variable {E Ω : Type*}

/-- The size an encoder is configured for. -/
def VideoEncoder.size (V : VideoEncoder E Ω) (e : E) : ℕ × ℕ := (V.width e, V.height e)

/-- **A size changes by `reinitialize` only.** -/
structure VideoEncoder.Sized (V : VideoEncoder E Ω) : Prop where
  submit : ∀ e frame force o, V.size (V.submit e frame force o).1 = V.size e
  changeBitrate : ∀ e bitrate o, V.size (V.changeBitrate e bitrate o) = V.size e
  reinitialize : ∀ e width height o e', V.reinitialize e width height o = some e' →
    V.size e' = (width, height)

namespace X264Encoder

variable (scaler : Scaler) (e : X264Encoder) (force : Bool) (ffmpeg : Ffmpeg)

theorem encodeFrame_config (raw : RawFrame) (full : Bool) :
    (e.encodeFrame scaler raw force full ffmpeg).1.config = e.config := by
  unfold encodeFrame
  dsimp only
  split
  · rfl
  split
  · rfl
  split
  · rfl
  split <;> rfl

theorem submit_config (frame : CapturedFrame) :
    (e.submit scaler frame force ffmpeg).1.config = e.config := by
  cases frame with
  | gpu dmabuf width height => rfl
  | cpu raw =>
    have hconfig := encodeFrame_config scaler e force ffmpeg raw e.needsFullConvert
    unfold submit
    dsimp only
    split
    · rename_i hencode
      rw [hencode] at hconfig
      exact hconfig
    · rename_i hencode
      rw [hencode] at hconfig
      exact hconfig

end X264Encoder

namespace VaapiEncoder

variable (e : VaapiEncoder) (vaapi : Vaapi)

theorem drainFiltergraph_config : (e.drainFiltergraph vaapi).1.config = e.config := by
  unfold drainFiltergraph
  dsimp only
  split <;> rfl

theorem encodeCpuFrame_config (raw : RawFrame) :
    (e.encodeCpuFrame raw vaapi).1.config = e.config := by
  unfold encodeCpuFrame
  dsimp only
  split
  · rfl
  split
  · rfl
  · exact drainFiltergraph_config e vaapi

theorem encodeGpuFrame_config : (e.encodeGpuFrame vaapi).1.config = e.config := by
  unfold encodeGpuFrame
  split
  · rfl
  · exact drainFiltergraph_config e vaapi

theorem submit_config (frame : CapturedFrame) (force : Bool) :
    (e.submit frame force vaapi).1.config = e.config := by
  have hcpu := encodeCpuFrame_config e vaapi
  have hgpu := encodeGpuFrame_config e vaapi
  unfold submit
  cases e.pipeline <;> cases frame <;> dsimp only
  · split
    · exact hcpu _
    · exact hcpu _
  · split
    · exact hgpu
    · exact hgpu

theorem changeBitrate_size (bitrate : ℕ) :
    (e.changeBitrate bitrate vaapi).config.width = e.config.width ∧
      (e.changeBitrate bitrate vaapi).config.height = e.config.height := by
  unfold changeBitrate
  split
  · exact ⟨rfl, rfl⟩
  split
  · exact ⟨rfl, rfl⟩
  · dsimp only
    split <;> exact ⟨rfl, rfl⟩

end VaapiEncoder

theorem x264_sized (scaler : Scaler) : (x264 scaler).Sized where
  submit e frame force o := by
    have hconfig : ((x264 scaler).submit e frame force o).1.config = e.config :=
      e.submit_config scaler force o frame
    simp only [VideoEncoder.size, x264] at hconfig ⊢
    rw [hconfig]
  changeBitrate e bitrate o := by
    obtain ⟨hwidth, hheight, -⟩ := X264Encoder.changeBitrate_keeps e bitrate o
    exact Prod.ext hwidth hheight
  reinitialize e width height o e' h := by
    obtain ⟨hwidth, hheight, -⟩ := X264Encoder.reinitialize_eq h
    exact Prod.ext hwidth hheight

theorem vaapi_sized : vaapi.Sized where
  submit e frame force o := by
    have hconfig : (vaapi.submit e frame force o).1.config = e.config :=
      e.submit_config o frame force
    simp only [VideoEncoder.size, vaapi] at hconfig ⊢
    rw [hconfig]
  changeBitrate e bitrate o := by
    obtain ⟨hwidth, hheight⟩ := e.changeBitrate_size o bitrate
    exact Prod.ext hwidth hheight
  reinitialize e width height o e' h := by
    obtain ⟨pipeline, -, rfl⟩ := Option.map_eq_some_iff.1 h
    rfl

end Encoder

namespace Pipeline

open Encoder

/-! ## The output and its frames -/

section Screen

variable {ι : Type*} {c : Config} {o : RenderOutcome} {s screen : Screen ι}

/-- The output's size. -/
def Screen.size (s : Screen ι) : ℕ × ℕ := (s.state.width, s.state.height)

/-- **A frame has the output's size**, and a render leaves that as it is. -/
theorem Screen.render_size {frame : Option CapturedFrame} (h : s.render c o = (frame, screen)) :
    screen.size = s.size ∧ ∀ f, frame = some f → f.dimensions = s.size := by
  unfold Screen.render at h
  cases hbackend : c.backend with
  | sw =>
    simp only [hbackend] at h
    cases h
    refine ⟨rfl, fun f hf => ?_⟩
    cases hf
    rfl
  | gl produceGpuFrames =>
    simp only [hbackend] at h
    cases o with
    | notSized =>
      cases h
      exact ⟨rfl, nofun⟩
    | notDrawn left =>
      cases h
      exact ⟨rfl, nofun⟩
    | drawn =>
      cases h
      refine ⟨rfl, fun f hf => ?_⟩
      cases hf
      cases produceGpuFrames <;> rfl

theorem Screen.readdDamage_size (s : Screen ι) (rects : List Compositor.DamageRect) :
    (s.readdDamage rects).size = s.size := by
  obtain ⟨damage, heq, -⟩ := s.readdDamage_eq rects
  rw [heq]
  rfl

/-- Of two frames of one size the newer one has that size still. -/
theorem dimensions_skip {frame newer : CapturedFrame} :
    (frame.skip newer).dimensions = newer.dimensions := by
  cases frame <;> cases newer <;> rfl

end Screen

/-! ## The codec string -/

/-- `{:02X}` of a number below 256. -/
def hex2 (n : ℕ) : String :=
  String.ofList [(Nat.digitChar (n / 16)).toUpper, (Nat.digitChar (n % 16)).toUpper]

/-- `h264_codec_string`. -/
def h264CodecString (size : ℕ × ℕ) (framerate : ℕ) : String :=
  "avc1.42E0" ++ hex2 (Compositor.selectH264Level size.1 size.2 framerate)

example : h264CodecString (1280, 720) 60 = "avc1.42E020" := by decide

/-- What the encoder thread sends: a codec string, or a packet and the
size it was encoded at. -/
inductive Output
  | codec (codec : String)
  | packet (size : ℕ × ℕ) (packet : EncodedPacket)

/-- The codec string in force after some outputs. -/
def codecAfter (codec : String) : List Output → String
  | [] => codec
  | .codec codec :: outputs => codecAfter codec outputs
  | .packet _ _ :: outputs => codecAfter codec outputs

/-- **Every packet comes after the codec string of its size**, and before
another one. -/
def Announced (framerate : ℕ) (codec : String) : List Output → Prop
  | [] => True
  | .codec codec :: outputs => Announced framerate codec outputs
  | .packet size _ :: outputs =>
    codec = h264CodecString size framerate ∧ Announced framerate codec outputs

section Output

variable {framerate : ℕ} {codec : String} {outputs outputs' : List Output} {size : ℕ × ℕ}

theorem codecAfter_append :
    codecAfter codec (outputs ++ outputs') = codecAfter (codecAfter codec outputs) outputs' := by
  induction outputs generalizing codec with
  | nil => rfl
  | cons output outputs ih => cases output <;> exact ih

theorem announced_append : Announced framerate codec (outputs ++ outputs') ↔
    Announced framerate codec outputs ∧
      Announced framerate (codecAfter codec outputs) outputs' := by
  induction outputs generalizing codec with
  | nil => simp [Announced, codecAfter]
  | cons output outputs ih =>
    cases output with
    | codec codec' => exact ih
    | packet size packet => exact (and_congr_right' ih).trans and_assoc.symm

/-- Packets of one size change nothing. -/
theorem codecAfter_packets (packets : List EncodedPacket) :
    codecAfter codec (packets.map (.packet size)) = codec := by
  induction packets with
  | nil => rfl
  | cons packet packets ih => exact ih

theorem announced_packets (packets : List EncodedPacket)
    (h : codec = h264CodecString size framerate) :
    Announced framerate codec (packets.map (.packet size)) := by
  induction packets with
  | nil => trivial
  | cons packet packets ih => exact ⟨h, ih⟩

end Output

/-! ## Told and seen -/

section Sizes

variable {ι ρ E Ω : Type*} (initial : ℕ × ℕ) (V : VideoEncoder E Ω) (s : State ι ρ E)

/-- The size the encoder was last told, of what it was opened with. -/
def State.toldSize : ℕ × ℕ := s.resizeTx.value.getD initial

/-- The channel holds nothing the encoder thread has not seen. -/
def State.Seen : Prop := s.resizeTx.hasChanged s.resizeRx = false

/-- **The loop's part**: it tells the encoder of a size before it captures
anything of it. -/
def SizeAhead : Prop :=
  match s.loop with
  | .resizing width height => s.screen.size = (width, height)
  | .sending frame => s.screen.size = s.toldSize initial ∧ frame.dimensions = s.screen.size
  | _ => s.screen.size = s.toldSize initial

/-- **The thread's part**, where it has seen all there is: the encoder and
every frame on its way to it are of the size told, or the encoder is about
to be. -/
structure Followed : Prop where
  draining : ∀ width height, s.thread = .draining width height →
    (width, height) = s.toldSize initial
  settled : s.thread.isExited = false → (∀ width height, s.thread ≠ .draining width height) →
    V.size s.videoEncoder = s.toldSize initial ∧
      ∀ frame ∈ s.inFlight, frame.dimensions = s.toldSize initial

/-- **Sizes in step.** -/
structure Sizes : Prop where
  ahead : SizeAhead initial s
  seen : s.resizeRx.seen ≤ s.resizeTx.version
  untold : s.resizeTx.value = none → s.resizeTx.version = 0
  matched : ∀ frame, s.thread = .controlAgain frame ∨ s.thread = .submitting frame →
    frame.dimensions = V.size s.videoEncoder
  followed : s.Seen → Followed initial V s

variable {initial V s} {s' : State ι ρ E}

/-- Where no size was told, there is none to see. -/
theorem Sizes.seen_of_none (h : Sizes initial V s) (hnone : s.resizeTx.value = none) : s.Seen := by
  have hversion := h.untold hnone
  have hle := h.seen
  have heq : s.resizeRx.seen = s.resizeTx.version := by omega
  exact bne_eq_false_iff_eq.2 heq

/-- A step of the loop or of a connection leaves the channel and the
thread alone, and queues frames of the size told only. -/
theorem Sizes.ofLoop (h : Sizes initial V s) (hahead : SizeAhead initial s')
    (htx : s'.resizeTx = s.resizeTx) (hrx : s'.resizeRx = s.resizeRx)
    (hencoder : s'.videoEncoder = s.videoEncoder) (hthread : s'.thread = s.thread)
    (hframes : ∀ frame ∈ s'.frames, frame ∈ s.frames ∨ frame.dimensions = s.toldSize initial) :
    Sizes initial V s' := by
  have htold : s'.toldSize initial = s.toldSize initial := by
    rw [State.toldSize, State.toldSize, htx]
  refine ⟨hahead, ?_, ?_, ?_, fun hseen => ?_⟩
  · rw [htx, hrx]
    exact h.seen
  · rw [htx]
    exact h.untold
  · rw [hthread, hencoder]
    exact h.matched
  · have hfollowed := h.followed (by rw [State.Seen, ← htx, ← hrx]; exact hseen)
    refine ⟨?_, ?_⟩
    · rw [hthread, htold]
      exact hfollowed.draining
    · rw [hthread, hencoder, htold]
      intro hlive hstill
      obtain ⟨hsize, hflight⟩ := hfollowed.settled hlive hstill
      refine ⟨hsize, fun frame hframe => ?_⟩
      rw [State.inFlight, hthread, List.mem_append] at hframe
      rcases hframe with hframe | hframe
      · exact hflight frame (List.mem_append_left _ hframe)
      · rcases hframes frame hframe with hold | hnew
        · exact hflight frame (List.mem_append_right _ hold)
        · exact hnew

/-- A step of the thread that leaves loop, screen and channel alone. -/
theorem Sizes.ofThread (h : Sizes initial V s) (hloop : s'.loop = s.loop)
    (hscreen : s'.screen = s.screen) (htx : s'.resizeTx = s.resizeTx)
    (hseen : s'.resizeRx.seen ≤ s'.resizeTx.version)
    (hmatched : ∀ frame, s'.thread = .controlAgain frame ∨ s'.thread = .submitting frame →
      frame.dimensions = V.size s'.videoEncoder)
    (hfollowed : s'.Seen → Followed initial V s') : Sizes initial V s' := by
  refine ⟨?_, hseen, ?_, hmatched, hfollowed⟩
  · have hahead := h.ahead
    unfold SizeAhead State.toldSize at hahead ⊢
    rw [hloop, hscreen, htx]
    exact hahead
  · rw [htx]
    exact h.untold

/-- A step of the thread between two looks at the channel: no frame of
another size comes in. -/
theorem Sizes.ofMove (h : Sizes initial V s) (hlive : s.thread.isExited = false)
    (hstill : ∀ width height, s.thread ≠ .draining width height)
    (hloop : s'.loop = s.loop) (hscreen : s'.screen = s.screen) (htx : s'.resizeTx = s.resizeTx)
    (hrx : s'.resizeRx = s.resizeRx)
    (hstill' : ∀ width height, s'.thread ≠ .draining width height)
    (hmatched : ∀ frame, s'.thread = .controlAgain frame ∨ s'.thread = .submitting frame →
      frame.dimensions = V.size s'.videoEncoder)
    (hsize : V.size s.videoEncoder = s.toldSize initial →
      (∀ frame ∈ s.inFlight, frame.dimensions = s.toldSize initial) →
      V.size s'.videoEncoder = s.toldSize initial)
    (hflight : ∀ frame ∈ s'.inFlight, ∃ old ∈ s.inFlight, frame.dimensions = old.dimensions) :
    Sizes initial V s' := by
  have htold : s'.toldSize initial = s.toldSize initial := by
    rw [State.toldSize, State.toldSize, htx]
  refine h.ofThread hloop hscreen htx ?_ hmatched fun hseen => ?_
  · rw [htx, hrx]
    exact h.seen
  · have hfollowed := h.followed (by rw [State.Seen, ← htx, ← hrx]; exact hseen)
    obtain ⟨hencoder, hframes⟩ := hfollowed.settled hlive hstill
    refine ⟨fun width height hdraining => absurd hdraining (hstill' width height), fun _ _ => ?_⟩
    rw [htold]
    refine ⟨hsize hencoder hframes, fun frame hframe => ?_⟩
    obtain ⟨old, hold, hdimensions⟩ := hflight frame hframe
    exact hdimensions.trans (hframes old hold)

variable [DecidableEq ι] [DecidableEq ρ] {c : Config} {a : Action ι ρ Ω}

/-- **Every step keeps the sizes in step.** -/
theorem Sizes.step (hV : V.Sized) (h : Sizes initial V s) (hstep : Trans c V s a s') :
    Sizes initial V s' := by
  have hahead := h.ahead
  unfold SizeAhead at hahead
  cases hstep with
  | client htop hop hstep =>
    obtain ⟨⟨hwidth, hheight, -⟩, -⟩ := Compositor.State.step_client hop hstep
    rw [htop] at hahead
    refine h.ofLoop ?_ rfl rfl rfl rfl fun frame => Or.inl
    rw [SizeAhead, htop]
    exact (Prod.ext hwidth hheight).trans hahead
  | resize htop hsize hstep =>
    obtain ⟨hwidth, hheight, -⟩ := Compositor.State.step_resize hstep
    exact h.ofLoop (Prod.ext hwidth hheight) rfl rfl rfl rfl fun frame => Or.inl
  | tickIdle htop hclean hforce =>
    rw [htop] at hahead
    exact h.ofLoop hahead rfl rfl rfl rfl fun frame => Or.inl
  | tickWork htop hwork hnext =>
    rw [htop] at hahead
    refine h.ofLoop ?_ rfl rfl rfl rfl fun frame => Or.inl
    rcases hnext with rfl | rfl
    · exact hahead
    · exact hahead
  | told hloop =>
    rw [hloop] at hahead
    refine ⟨hahead, Nat.le_succ_of_le h.seen, nofun, h.matched, fun hseen => ?_⟩
    rw [State.Seen, Watch.hasChanged_send h.seen] at hseen
    cases hseen
  | requested hloop =>
    rw [hloop] at hahead
    exact h.ofLoop hahead rfl rfl rfl rfl fun frame => Or.inl
  | rendered hloop hrender =>
    rw [hloop] at hahead
    obtain ⟨hsame, hframe⟩ := Screen.render_size hrender
    exact h.ofLoop ⟨hsame.trans hahead, (hframe _ rfl).trans hsame.symm⟩ rfl rfl rfl rfl
      fun frame => Or.inl
  | notRendered hloop hrender =>
    rw [hloop] at hahead
    obtain ⟨hsame, -⟩ := Screen.render_size hrender
    exact h.ofLoop (hsame.trans hahead) rfl rfl rfl rfl fun frame => Or.inl
  | closed hloop hexit =>
    rw [hloop] at hahead
    exact h.ofLoop hahead.1 rfl rfl rfl rfl fun frame => Or.inl
  | accepted hloop hexit hroom =>
    rw [hloop] at hahead
    refine h.ofLoop hahead.1 rfl rfl rfl rfl fun frame hframe => ?_
    rcases List.mem_append.1 hframe with hframe | hframe
    · exact Or.inl hframe
    · rw [List.mem_singleton.1 hframe]
      exact Or.inr (hahead.2.trans hahead.1)
  | refusedCpu hloop hexit hfull =>
    rw [hloop] at hahead
    exact h.ofLoop ((Screen.readdDamage_size _ _).trans hahead.1) rfl rfl rfl rfl
      fun frame => Or.inl
  | refusedGpu hloop hexit hfull =>
    rw [hloop] at hahead
    exact h.ofLoop hahead.1 rfl rfl rfl rfl fun frame => Or.inl
  | @control o m rest hthread hcontrol =>
    have hsize : V.size (({ s with control := rest }.applyControl V o m).videoEncoder) =
        V.size s.videoEncoder := by
      cases m with
      | forceKeyframe => rfl
      | changeBitrate bitrate => exact hV.changeBitrate _ _ _
    have hsame : ({ s with control := rest }.applyControl V o m).thread = s.thread ∧
        ({ s with control := rest }.applyControl V o m).inFlight = s.inFlight ∧
        ({ s with control := rest }.applyControl V o m).loop = s.loop ∧
        ({ s with control := rest }.applyControl V o m).screen = s.screen ∧
        ({ s with control := rest }.applyControl V o m).resizeTx = s.resizeTx ∧
        ({ s with control := rest }.applyControl V o m).resizeRx = s.resizeRx := by
      cases m <;> exact ⟨rfl, rfl, rfl, rfl, rfl, rfl⟩
    obtain ⟨hthread', hflight, hloop, hscreen, htx, hrx⟩ := hsame
    have hlive : s.thread.isExited = false ∧ ∀ width height, s.thread ≠ .draining width height := by
      rcases hthread with hthread | ⟨frame, hthread⟩ <;> rw [hthread] <;> exact ⟨rfl, nofun⟩
    refine h.ofMove hlive.1 hlive.2 hloop hscreen htx hrx (by rw [hthread']; exact hlive.2) ?_
      (fun hencoder _ => hsize.trans hencoder) fun frame hframe => ⟨frame, hflight ▸ hframe, rfl⟩
    rw [hthread', hsize]
    exact h.matched
  | controlled hthread hcontrol =>
    refine h.ofMove (by rw [hthread]; rfl) (by rw [hthread]; nofun) rfl rfl rfl rfl nofun nofun
      (fun hencoder _ => hencoder) fun frame hframe => ⟨frame, ?_, rfl⟩
    exact List.mem_append_right _ hframe
  | @resized o width height hthread hchanged hvalue =>
    refine h.ofThread rfl rfl rfl le_rfl nofun fun _ => ⟨fun width' height' hdraining => ?_, ?_⟩
    · cases hdraining
      rw [State.toldSize, hvalue]
      rfl
    · exact fun _ hstill => absurd rfl (hstill width height)
  | notResized hthread hsame =>
    have hseen : s.Seen := by
      rcases hsame with ⟨-, hseen⟩ | ⟨-, hnone⟩
      · exact hseen
      · exact h.seen_of_none hnone
    obtain ⟨hencoder, hflight⟩ := (h.followed hseen).settled (by rw [hthread]; rfl)
      (by rw [hthread]; nofun)
    refine h.ofThread rfl rfl rfl ?_ nofun fun _ =>
      ⟨nofun, fun _ _ => ⟨hencoder, fun frame hframe => ?_⟩⟩
    · rcases hsame with ⟨rfl, -⟩ | ⟨rfl, -⟩
      · exact h.seen
      · exact le_rfl
    · exact hflight frame (List.mem_append_right _ hframe)
  | @drained o width height frame frames hthread hframes =>
    refine h.ofThread rfl rfl rfl h.seen ?_ fun hseen => ⟨(h.followed hseen).draining, ?_⟩
    · exact h.matched
    · exact fun _ hstill => absurd hthread (hstill width height)
  | reinitialized hthread hframes hinit =>
    refine h.ofThread rfl rfl rfl h.seen nofun fun hseen => ⟨nofun, fun _ _ => ⟨?_, ?_⟩⟩
    · exact (hV.reinitialize _ _ _ _ _ hinit).trans ((h.followed hseen).draining _ _ hthread)
    · intro frame hframe
      rw [State.inFlight, hframes] at hframe
      cases hframe
  | @received o frame frames hthread hframes =>
    refine h.ofMove (by rw [hthread]; rfl) (by rw [hthread]; nofun) rfl rfl rfl rfl nofun nofun
      (fun hencoder _ => hencoder) fun f hf => ⟨f, List.mem_append_right _ ?_, rfl⟩
    rw [hframes]
    exact hf
  | @skipped o frame newer frames hthread hframes =>
    refine h.ofMove (by rw [hthread]; rfl) (by rw [hthread]; nofun) rfl rfl rfl rfl nofun nofun
      (fun hencoder _ => hencoder) fun f hf => ?_
    rcases List.mem_cons.1 hf with rfl | hf
    · exact ⟨newer, List.mem_append_right _ (hframes ▸ List.mem_cons_self), dimensions_skip⟩
    · exact ⟨f, List.mem_append_right _ (hframes ▸ List.mem_cons_of_mem _ hf), rfl⟩
  | @newest o frame hthread hframes =>
    refine h.ofMove (by rw [hthread]; rfl) (by rw [hthread]; nofun) rfl rfl rfl rfl nofun nofun
      (fun hencoder _ => hencoder) fun f hf => ⟨f, ?_, rfl⟩
    rw [State.inFlight, hthread]
    exact hf
  | @matched o frame hthread hsize =>
    refine h.ofMove (by rw [hthread]; rfl) (by rw [hthread]; nofun) rfl rfl rfl rfl nofun ?_
      (fun hencoder _ => hencoder) fun f hf => ⟨f, ?_, rfl⟩
    · rintro f (hf | hf) <;> cases hf
      exact hsize
    · rw [State.inFlight, hthread]
      exact hf
  | @rebuilt o frame videoEncoder hthread hinit =>
    have hencoder := hV.reinitialize _ _ _ _ _ hinit
    refine h.ofMove (by rw [hthread]; rfl) (by rw [hthread]; nofun) rfl rfl rfl rfl nofun ?_
      (fun _ hflight => ?_) fun f hf => ⟨f, ?_, rfl⟩
    · rintro f (hf | hf) <;> cases hf
      exact hencoder.symm
    · refine hencoder.trans (hflight frame ?_)
      rw [State.inFlight, hthread]
      exact List.mem_cons_self
    · rw [State.inFlight, hthread]
      exact hf
  | failed hthread =>
    exact h.ofThread rfl rfl rfl h.seen nofun fun _ => ⟨nofun, nofun⟩
  | @controlledAgain o frame hthread hcontrol =>
    refine h.ofMove (by rw [hthread]; rfl) (by rw [hthread]; nofun) rfl rfl rfl rfl nofun ?_
      (fun hencoder _ => hencoder) fun f hf => ⟨f, ?_, rfl⟩
    · rintro f (hf | hf) <;> cases hf
      exact h.matched frame (Or.inl hthread)
    · rw [State.inFlight, hthread]
      exact hf
  | @submitted o frame videoEncoder packets hthread hsubmit =>
    have hsize : V.size videoEncoder = V.size s.videoEncoder := by
      have hsame := hV.submit s.videoEncoder frame s.forceKeyframe o
      rw [hsubmit] at hsame
      exact hsame
    refine h.ofMove (by rw [hthread]; rfl) (by rw [hthread]; nofun) rfl rfl rfl rfl nofun nofun
      (fun hencoder _ => hsize.trans hencoder) fun f hf => ⟨f, ?_, rfl⟩
    exact List.mem_append_right _ hf
  | store hr => exact h.ofLoop hahead rfl rfl rfl rfl fun frame => Or.inl
  | send hr hroom => exact h.ofLoop hahead rfl rfl rfl rfl fun frame => Or.inl
  | changeBitrate => exact h.ofLoop hahead rfl rfl rfl rfl fun frame => Or.inl

variable (ι ρ) in
/-- **The pipeline as `main` starts it**: output and encoder of one size. -/
def booted (c : Config) (V : VideoEncoder E Ω) (size : ℕ × ℕ) :
    Machine (State ι ρ E) (Action ι ρ Ω) where
  init s := Started V s ∧ s.screen.size = size ∧ V.size s.videoEncoder = size
  step s a := s.step c V a

omit [DecidableEq ρ] in
theorem Sizes.started (h : Started V s) (hscreen : s.screen.size = initial)
    (hencoder : V.size s.videoEncoder = initial) : Sizes initial V s := by
  have htold : s.toldSize initial = initial := by
    rw [State.toldSize, h.resizeTx]
    rfl
  have hthread := h.thread
  refine ⟨?_, ?_, ?_, ?_, fun _ => ⟨?_, fun _ _ => ⟨hencoder.trans htold.symm, ?_⟩⟩⟩
  · rw [SizeAhead, h.loop]
    exact hscreen.trans htold.symm
  · rw [h.resizeRx]
    exact le_rfl
  · rw [h.resizeTx]
    exact fun _ => rfl
  · rw [hthread]
    rintro frame (hframe | hframe) <;> cases hframe
  · rw [hthread]
    nofun
  · rw [State.inFlight, hthread, h.frames]
    nofun

theorem sizes_of_reach (hV : V.Sized) {ok : State ι ρ E → Action ι ρ Ω → Prop}
    (h : (booted ι ρ c V initial).Reach ok s) : Sizes initial V s :=
  h.invariant
    (fun _ (hinit : Started V _ ∧ _ = initial ∧ _ = initial) =>
      Sizes.started hinit.1 hinit.2.1 hinit.2.2)
    fun _ _ _ _ hstep hs => Sizes.step hV hs (trans_of_step hstep)

/-- **Output, encoder and frames in step.** Whatever the interleaving of
resizes, captures and the encoder thread: a frame is submitted to an
encoder of its own size; and where the thread has nothing unseen in the
resize channel and is not about to rebuild the encoder, the encoder and
every frame on its way to it are of the output's size, as soon as the loop
has passed that on. -/
theorem in_step (hV : V.Sized) (h : (booted ι ρ c V initial).Reachable s) :
    (∀ frame, s.thread = .submitting frame → frame.dimensions = V.size s.videoEncoder) ∧
      (s.Seen → s.thread.isExited = false → (∀ width height, s.thread ≠ .draining width height) →
        (∀ width height, s.loop ≠ .resizing width height) →
        V.size s.videoEncoder = s.screen.size ∧
          ∀ frame ∈ s.inFlight, frame.dimensions = s.screen.size) := by
  have hs := sizes_of_reach hV h
  refine ⟨fun frame hframe => hs.matched frame (Or.inr hframe),
    fun hseen hlive hstill hpassed => ?_⟩
  have hscreen : s.screen.size = s.toldSize initial := by
    have hahead := hs.ahead
    unfold SizeAhead at hahead
    split at hahead
    · rename_i hloop
      exact absurd hloop (hpassed _ _)
    · exact hahead.1
    · exact hahead
  rw [hscreen]
  exact (hs.followed hseen).settled hlive hstill

/-! ## Where sizes come from -/

/-- Every size there is in the pipeline, of a kind. -/
structure Everywhere (P : ℕ × ℕ → Prop) (V : VideoEncoder E Ω) (s : State ι ρ E) : Prop where
  screen : P s.screen.size
  resizing : ∀ width height, s.loop = .resizing width height → P (width, height)
  sending : ∀ frame, s.loop = .sending frame → P frame.dimensions
  told : ∀ size, s.resizeTx.value = some size → P size
  draining : ∀ width height, s.thread = .draining width height → P (width, height)
  frames : ∀ frame ∈ s.inFlight, P frame.dimensions
  encoder : P (V.size s.videoEncoder)

/-- A resize is to a size of the kind. -/
def ResizesTo (P : ℕ × ℕ → Prop) (_s : State ι ρ E) : Action ι ρ Ω → Prop
  | .resize width height => P (width, height)
  | _ => True

variable {P : ℕ × ℕ → Prop}

/-- **Sizes come from resizes**: no step brings in another. -/
theorem Everywhere.step (hV : V.Sized) (h : Everywhere P V s) (hok : ResizesTo P s a)
    (hstep : Trans c V s a s') : Everywhere P V s' := by
  cases hstep with
  | client htop hop hstep =>
    obtain ⟨⟨hwidth, hheight, -⟩, -⟩ := Compositor.State.step_client hop hstep
    have hsame : Screen.size { s.screen with state := _ } = s.screen.size :=
      Prod.ext hwidth hheight
    exact ⟨hsame ▸ h.screen, h.resizing, h.sending, h.told, h.draining, h.frames, h.encoder⟩
  | @resize width height state htop hsize hstep =>
    obtain ⟨hwidth, hheight, -⟩ := Compositor.State.step_resize hstep
    have hscreen : Screen.size { s.screen with state } = (width, height) :=
      Prod.ext hwidth hheight
    refine ⟨?_, fun w h' hloop => ?_, nofun, h.told, h.draining, h.frames, h.encoder⟩
    · rw [hscreen]
      exact hok
    · cases hloop
      exact hok
  | tickIdle htop hclean hforce =>
    exact ⟨h.screen, nofun, nofun, h.told, h.draining, h.frames, h.encoder⟩
  | tickWork htop hwork hnext =>
    rcases hnext with rfl | rfl <;>
      exact ⟨h.screen, nofun, nofun, h.told, h.draining, h.frames, h.encoder⟩
  | told hloop =>
    refine ⟨h.screen, nofun, nofun, fun size hvalue => ?_, h.draining, h.frames, h.encoder⟩
    cases hvalue
    exact h.resizing _ _ hloop
  | requested hloop =>
    exact ⟨h.screen, nofun, nofun, h.told, h.draining, h.frames, h.encoder⟩
  | rendered hloop hrender =>
    obtain ⟨hsame, hframe⟩ := Screen.render_size hrender
    refine ⟨?_, nofun, fun f hf => ?_, h.told, h.draining, h.frames, h.encoder⟩
    · exact hsame ▸ h.screen
    · cases hf
      rw [hframe _ rfl]
      exact h.screen
  | notRendered hloop hrender =>
    obtain ⟨hsame, -⟩ := Screen.render_size hrender
    exact ⟨hsame ▸ h.screen, nofun, nofun, h.told, h.draining, h.frames, h.encoder⟩
  | closed hloop hexit =>
    exact ⟨h.screen, nofun, nofun, h.told, h.draining, h.frames, h.encoder⟩
  | accepted hloop hexit hroom =>
    refine ⟨h.screen, nofun, nofun, h.told, h.draining, fun f hf => ?_, h.encoder⟩
    rw [State.inFlight, ← List.append_assoc] at hf
    rcases List.mem_append.1 hf with hf | hf
    · exact h.frames f hf
    · rw [List.mem_singleton.1 hf]
      exact h.sending _ hloop
  | refusedCpu hloop hexit hfull =>
    refine ⟨?_, nofun, nofun, h.told, h.draining, h.frames, h.encoder⟩
    exact (Screen.readdDamage_size s.screen _).symm ▸ h.screen
  | refusedGpu hloop hexit hfull =>
    exact ⟨h.screen, nofun, nofun, h.told, h.draining, h.frames, h.encoder⟩
  | @control o m rest hthread hcontrol =>
    cases m with
    | forceKeyframe =>
      exact ⟨h.screen, h.resizing, h.sending, h.told, h.draining, h.frames, h.encoder⟩
    | changeBitrate bitrate =>
      exact ⟨h.screen, h.resizing, h.sending, h.told, h.draining, h.frames,
        (hV.changeBitrate s.videoEncoder bitrate o).symm ▸ h.encoder⟩
  | controlled hthread hcontrol =>
    exact ⟨h.screen, h.resizing, h.sending, h.told, nofun,
      fun f hf => h.frames f (List.mem_append_right _ hf), h.encoder⟩
  | resized hthread hchanged hvalue =>
    refine ⟨h.screen, h.resizing, h.sending, h.told, fun w h' hdraining => ?_,
      fun f hf => h.frames f (List.mem_append_right _ hf), h.encoder⟩
    cases hdraining
    exact h.told _ hvalue
  | notResized hthread hsame =>
    exact ⟨h.screen, h.resizing, h.sending, h.told, nofun,
      fun f hf => h.frames f (List.mem_append_right _ hf), h.encoder⟩
  | drained hthread hframes =>
    refine ⟨h.screen, h.resizing, h.sending, h.told, h.draining, fun f hf => ?_, h.encoder⟩
    rw [State.inFlight, hthread] at hf
    exact h.frames f (List.mem_append_right _ (hframes ▸ List.mem_cons_of_mem _ hf))
  | reinitialized hthread hframes hinit =>
    refine ⟨h.screen, h.resizing, h.sending, h.told, nofun,
      fun f hf => h.frames f (List.mem_append_right _ hf), ?_⟩
    exact (hV.reinitialize _ _ _ _ _ hinit).symm ▸ h.draining _ _ hthread
  | received hthread hframes =>
    refine ⟨h.screen, h.resizing, h.sending, h.told, nofun, fun f hf => ?_, h.encoder⟩
    exact h.frames f (List.mem_append_right _ (hframes ▸ hf))
  | skipped hthread hframes =>
    refine ⟨h.screen, h.resizing, h.sending, h.told, nofun, fun f hf => ?_, h.encoder⟩
    rcases List.mem_cons.1 hf with rfl | hf
    · rw [dimensions_skip]
      exact h.frames _ (List.mem_append_right _ (hframes ▸ List.mem_cons_self))
    · exact h.frames f (List.mem_append_right _ (hframes ▸ List.mem_cons_of_mem _ hf))
  | newest hthread hframes =>
    refine ⟨h.screen, h.resizing, h.sending, h.told, nofun, fun f hf => h.frames f ?_, h.encoder⟩
    rw [State.inFlight, hthread]
    exact hf
  | matched hthread hsize =>
    refine ⟨h.screen, h.resizing, h.sending, h.told, nofun, fun f hf => h.frames f ?_, h.encoder⟩
    rw [State.inFlight, hthread]
    exact hf
  | rebuilt hthread hinit =>
    refine ⟨h.screen, h.resizing, h.sending, h.told, nofun, fun f hf => h.frames f ?_, ?_⟩
    · rw [State.inFlight, hthread]
      exact hf
    · rw [hV.reinitialize _ _ _ _ _ hinit]
      refine h.frames _ ?_
      rw [State.inFlight, hthread]
      exact List.mem_cons_self
  | failed hthread =>
    exact ⟨h.screen, h.resizing, h.sending, h.told, nofun,
      fun f hf => h.frames f (List.mem_append_right _ hf), h.encoder⟩
  | controlledAgain hthread hcontrol =>
    refine ⟨h.screen, h.resizing, h.sending, h.told, nofun, fun f hf => h.frames f ?_, h.encoder⟩
    rw [State.inFlight, hthread]
    exact hf
  | @submitted o frame videoEncoder packets hthread hsubmit =>
    refine ⟨h.screen, h.resizing, h.sending, h.told, nofun,
      fun f hf => h.frames f (List.mem_append_right _ hf), ?_⟩
    have hsame := hV.submit s.videoEncoder frame s.forceKeyframe o
    rw [hsubmit] at hsame
    exact hsame.symm ▸ h.encoder
  | store hr => exact ⟨h.screen, h.resizing, h.sending, h.told, h.draining, h.frames, h.encoder⟩
  | send hr hroom =>
    exact ⟨h.screen, h.resizing, h.sending, h.told, h.draining, h.frames, h.encoder⟩
  | changeBitrate =>
    exact ⟨h.screen, h.resizing, h.sending, h.told, h.draining, h.frames, h.encoder⟩

/-! ## What the thread sends -/

variable (V) in
/-- **What a step sends** on the codec channel and on the packet channel: a
codec string after a rebuild, the packets of a frame submitted. -/
def outputOf (framerate : ℕ) (s : State ι ρ E) (a : Action ι ρ Ω) (s' : State ι ρ E) :
    List Output :=
  match a, s.thread with
  | .encoder _, .draining _ _ =>
    if s.frames.isEmpty && !s'.thread.isExited then
      [.codec (h264CodecString (V.size s'.videoEncoder) framerate)]
    else []
  | .encoder _, .matching frame =>
    if frame.dimensions ≠ V.size s.videoEncoder ∧ !s'.thread.isExited then
      [.codec (h264CodecString (V.size s'.videoEncoder) framerate)]
    else []
  | .encoder o, .submitting frame =>
    ((V.submit s.videoEncoder frame s.forceKeyframe o).2.getD []).map
      (.packet (V.size s.videoEncoder))
  | _, _ => []

/-- **The codec string in force is the live encoder's**, and was each
packet's. -/
structure Codec (framerate : ℕ) (initial : ℕ × ℕ) (V : VideoEncoder E Ω) (s : State ι ρ E)
    (outputs : List Output) : Prop where
  live : s.thread.isExited = false →
    codecAfter (h264CodecString initial framerate) outputs =
      h264CodecString (V.size s.videoEncoder) framerate
  announced : Announced framerate (h264CodecString initial framerate) outputs

variable {framerate : ℕ} {outputs : List Output}

omit [DecidableEq ι] [DecidableEq ρ] in
/-- A step that sends nothing and keeps the encoder's size. -/
theorem Codec.silent (h : Codec framerate initial V s outputs)
    (houtput : outputOf V framerate s a s' = [])
    (hlive : s'.thread.isExited = false → s.thread.isExited = false)
    (hsize : V.size s'.videoEncoder = V.size s.videoEncoder) :
    Codec framerate initial V s' (outputs ++ outputOf V framerate s a s') := by
  rw [houtput, List.append_nil]
  exact ⟨fun hlive' => hsize ▸ h.live (hlive hlive'), h.announced⟩

omit [DecidableEq ι] [DecidableEq ρ] in
/-- A rebuild announces the codec string of the new size. -/
theorem Codec.rebuilt (h : Codec framerate initial V s outputs)
    (houtput : outputOf V framerate s a s' =
      [.codec (h264CodecString (V.size s'.videoEncoder) framerate)]) :
    Codec framerate initial V s' (outputs ++ outputOf V framerate s a s') := by
  rw [houtput]
  refine ⟨fun _ => ?_, announced_append.2 ⟨h.announced, trivial⟩⟩
  rw [codecAfter_append]
  rfl

/-- **No step sends a packet before the codec string of its size.** -/
theorem Codec.step (hV : V.Sized) (h : Codec framerate initial V s outputs)
    (hstep : Trans c V s a s') :
    Codec framerate initial V s' (outputs ++ outputOf V framerate s a s') := by
  cases hstep with
  | client htop hop hstep => exact h.silent rfl id rfl
  | resize htop hsize hstep => exact h.silent rfl id rfl
  | tickIdle htop hclean hforce => exact h.silent rfl id rfl
  | tickWork htop hwork hnext => exact h.silent rfl id rfl
  | told hloop => exact h.silent rfl id rfl
  | requested hloop => exact h.silent rfl id rfl
  | rendered hloop hrender => exact h.silent rfl id rfl
  | notRendered hloop hrender => exact h.silent rfl id rfl
  | closed hloop hexit => exact h.silent rfl id rfl
  | accepted hloop hexit hroom => exact h.silent rfl id rfl
  | refusedCpu hloop hexit hfull => exact h.silent rfl id rfl
  | refusedGpu hloop hexit hfull => exact h.silent rfl id rfl
  | @control o m rest hthread hcontrol =>
    refine h.silent ?_ (fun _ => ?_) ?_
    · rcases hthread with hthread | ⟨frame, hthread⟩ <;> simp only [outputOf, hthread]
    · rcases hthread with hthread | ⟨frame, hthread⟩ <;> rw [hthread] <;> rfl
    · cases m with
      | forceKeyframe => rfl
      | changeBitrate bitrate => exact hV.changeBitrate _ _ _
  | controlled hthread hcontrol =>
    exact h.silent (by simp only [outputOf, hthread]) (fun _ => by rw [hthread]; rfl) rfl
  | resized hthread hchanged hvalue =>
    exact h.silent (by simp only [outputOf, hthread]) (fun _ => by rw [hthread]; rfl) rfl
  | notResized hthread hsame =>
    exact h.silent (by simp only [outputOf, hthread]) (fun _ => by rw [hthread]; rfl) rfl
  | drained hthread hframes =>
    exact h.silent (by simp [outputOf, hthread, hframes]) (fun _ => by rw [hthread]; rfl) rfl
  | reinitialized hthread hframes hinit =>
    exact h.rebuilt (by simp [outputOf, hthread, hframes, Thread.isExited])
  | received hthread hframes =>
    exact h.silent (by simp only [outputOf, hthread]) (fun _ => by rw [hthread]; rfl) rfl
  | skipped hthread hframes =>
    exact h.silent (by simp only [outputOf, hthread]) (fun _ => by rw [hthread]; rfl) rfl
  | newest hthread hframes =>
    exact h.silent (by simp only [outputOf, hthread]) (fun _ => by rw [hthread]; rfl) rfl
  | matched hthread hsize =>
    refine h.silent ?_ (fun _ => by rw [hthread]; rfl) rfl
    have hsame : _ = V.size s.videoEncoder := hsize
    simp [outputOf, hthread, hsame]
  | @rebuilt o frame videoEncoder hthread hinit =>
    have hsize := hV.reinitialize _ _ _ _ _ hinit
    by_cases hsame : frame.dimensions = V.size s.videoEncoder
    · refine h.silent ?_ (fun _ => by rw [hthread]; rfl) (hsize.trans hsame)
      simp [outputOf, hthread, hsame]
    · exact h.rebuilt (by simp [outputOf, hthread, hsame, Thread.isExited])
  | failed hthread =>
    refine h.silent ?_ (fun hlive => ?_) rfl
    · rcases hthread with ⟨width, height, hthread⟩ | ⟨frame, hthread⟩ <;>
        simp [outputOf, hthread, Thread.isExited]
    · cases hlive
  | controlledAgain hthread hcontrol =>
    exact h.silent (by simp only [outputOf, hthread]) (fun _ => by rw [hthread]; rfl) rfl
  | @submitted o frame videoEncoder packets hthread hsubmit =>
    have hsize : V.size videoEncoder = V.size s.videoEncoder := by
      have hsame := hV.submit s.videoEncoder frame s.forceKeyframe o
      rw [hsubmit] at hsame
      exact hsame
    have hcodec := h.live (by rw [hthread]; rfl)
    have houtput : ∀ s', outputOf V framerate s (.encoder o) s' =
        (packets.getD []).map (.packet (V.size s.videoEncoder)) := fun s' => by
      simp only [outputOf, hthread, hsubmit]
    rw [houtput]
    refine ⟨fun _ => ?_, announced_append.2 ⟨h.announced, announced_packets _ hcodec⟩⟩
    rw [codecAfter_append, codecAfter_packets, hcodec, hsize]
  | store hr => exact h.silent rfl id rfl
  | send hr hroom => exact h.silent rfl id rfl
  | changeBitrate => exact h.silent rfl id rfl

omit [DecidableEq ι] [DecidableEq ρ] in
/-- A packet sent is of the encoder's size. -/
theorem mem_outputOf {size : ℕ × ℕ} {packet : EncodedPacket}
    (h : .packet size packet ∈ outputOf V framerate s a s') : size = V.size s.videoEncoder := by
  unfold outputOf at h
  split at h
  · split at h
    · cases List.mem_singleton.1 h
    · cases h
  · split at h
    · cases List.mem_singleton.1 h
    · cases h
  · obtain ⟨packet', -, heq⟩ := List.mem_map.1 h
    cases heq
    rfl
  · cases h

/-- A size the server grants some request. -/
def Granted (max size : ℕ × ℕ) : Prop := ∃ req, Compositor.sanitizeResolution req max = some size

/-- **A codec string before every packet.** In every run whose resizes are
the server's answers to requests, whatever the interleaving: each packet
is sent while the last codec string announced is that of the size it was
encoded at, which is the initial size or one a request can get; and the
codec string in force is that of the live encoder. -/
theorem codec_announced (hV : V.Sized) {max : ℕ × ℕ} {p : State ι ρ E × List Output}
    (h : ((booted ι ρ c V initial).logged (outputOf V framerate)).Reach
      (fun p a => ResizesTo (Granted max) p.1 a) p) :
    Announced framerate (h264CodecString initial framerate) p.2 ∧
      (p.1.thread.isExited = false → codecAfter (h264CodecString initial framerate) p.2 =
        h264CodecString (V.size p.1.videoEncoder) framerate) ∧
      ∀ size packet, .packet size packet ∈ p.2 → size = initial ∨ Compositor.Allowed max size := by
  let P : ℕ × ℕ → Prop := fun size => size = initial ∨ Compositor.Allowed max size
  have hsizes : ∀ s, (booted ι ρ c V initial).Reach (ResizesTo (Granted max)) s →
      Everywhere P V s := by
    intro s hs
    refine hs.invariant ?_ fun s a s' hok hstep hs => hs.step hV ?_ (trans_of_step hstep)
    · rintro s ⟨hstarted, hscreen, hencoder⟩
      refine ⟨.inl hscreen, ?_, ?_, ?_, ?_, ?_, .inl hencoder⟩
      · rw [hstarted.loop]
        nofun
      · rw [hstarted.loop]
        nofun
      · rw [hstarted.resizeTx]
        nofun
      · rw [hstarted.thread]
        nofun
      · rw [State.inFlight, hstarted.thread, hstarted.frames]
        nofun
    · cases a with
      | resize width height =>
        obtain ⟨req, hreq⟩ := hok
        exact .inr (Compositor.sanitizeResolution_allowed hreq)
      | _ => trivial
  have hcodec : Codec framerate initial V p.1 p.2 ∧
      ∀ size packet, .packet size packet ∈ p.2 → P size := by
    refine h.logged_invariant (P := fun p => Codec framerate initial V p.1 p.2 ∧
      ∀ size packet, .packet size packet ∈ p.2 → P size) hsizes ?_ ?_
    · rintro s ⟨hstarted, hscreen, hencoder⟩
      exact ⟨⟨fun _ => by rw [hencoder]; rfl, trivial⟩, fun _ _ hmem => by cases hmem⟩
    · rintro s outputs a s' hs - - hstep ⟨hcodec, hpackets⟩
      refine ⟨hcodec.step hV (trans_of_step hstep), fun size packet hmem => ?_⟩
      rcases List.mem_append.1 hmem with hmem | hmem
      · exact hpackets size packet hmem
      · rw [mem_outputOf hmem]
        exact hs.encoder
  exact ⟨hcodec.1.announced, hcodec.1.live, hcodec.2⟩

end Sizes

section Runs

theorem booted_start : (booted Unit Unit someConfig (x264 someScaler) (2, 4)).init
    (start 2 4 someEncoder) :=
  ⟨someStarted, rfl, rfl⟩

/-- The output is resized, and the encoder thread finds out. -/
theorem in_step_resized : ∃ s : State Unit Unit X264Encoder,
    s.screen.size = (16, 16) ∧ (x264 someScaler).size s.videoEncoder = s.screen.size := by
  have hrun : ∃ s, (booted Unit Unit someConfig (x264 someScaler) (2, 4)).Run (fun _ _ => True)
      (start 2 4 someEncoder) [.resize 16 16, .loop .drawn, .encoder {}, .encoder {}, .encoder {}]
      s ∧ s.Seen ∧ s.thread = .receiving ∧ s.loop = .top ∧ s.screen.size = (16, 16) :=
    ⟨_, ⟨trivial, _, rfl, trivial, _, rfl, trivial, _, rfl, trivial, _, rfl, trivial, _, rfl, rfl⟩,
      rfl, rfl, rfl, rfl⟩
  obtain ⟨s, hrun, hseen, hthread, hloop, hsize⟩ := hrun
  have hstep := in_step (x264_sized someScaler) (Machine.Reach.run _ (.start booted_start) hrun)
  exact ⟨s, hsize, (hstep.2 hseen (by rw [hthread]; rfl) (by rw [hthread]; nofun)
    (by rw [hloop]; nofun)).1⟩

/-- The first frame of a small output is submitted, and a resize follows. -/
theorem codec_announced_resized :
    ∃ p : State Unit Unit X264Encoder × List Output, p.2.length = 2 ∧
      Announced 60 (h264CodecString (2, 4) 60) p.2 := by
  have hgranted : Granted (1920, 1080) (16, 16) := ⟨(17, 16), rfl⟩
  have hrun : ∃ p, ((booted Unit Unit someConfig (x264 someScaler) (2, 4)).logged
      (outputOf (x264 someScaler) 60)).Run (fun p a => ResizesTo (Granted (1920, 1080)) p.1 a)
      (start 2 4 someEncoder, [])
      [.tick, .loop .drawn, .loop .drawn, .encoder {}, .encoder {}, .encoder {}, .encoder {},
        .encoder {}, .encoder {}, .encoder {}, .resize 16 16, .loop .drawn, .encoder {},
        .encoder {}, .encoder {}] p ∧ p.2.length = 2 :=
    ⟨_, ⟨trivial, _, rfl, trivial, _, rfl, trivial, _, rfl, trivial, _, rfl, trivial, _, rfl,
      trivial, _, rfl, trivial, _, rfl, trivial, _, rfl, trivial, _, rfl, trivial, _, rfl,
      hgranted, _, rfl, trivial, _, rfl, trivial, _, rfl, trivial, _, rfl, trivial, _, rfl, rfl⟩,
      rfl⟩
  obtain ⟨p, hrun, hlength⟩ := hrun
  exact ⟨p, hlength, (codec_announced (x264_sized someScaler)
    (Machine.Reach.run _ (.start ⟨booted_start, rfl⟩) hrun)).1⟩

end Runs

end Pipeline

end WaylandWebStream
