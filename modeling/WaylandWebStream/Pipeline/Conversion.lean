import WaylandWebStream.Pipeline.Steps

/-!
# Damage-driven conversion along a run

With the software renderer every frame differs from the one before it in
its damage only, whatever clients commit. The damage of frames that are
refused is put back, that of frames skipped is carried forward, and where
a chain of frames breaks the encoder was rebuilt: so the YUV frame the
encoder keeps is, after every submit, the full conversion of the frame
submitted.
-/

namespace WaylandWebStream

namespace Pipeline

open Compositor (Rect DamageRect Damaged Sane col row)
open Encoder

variable {ι ρ : Type*}

/-! ## Rows of the canvas -/

/-- The canvas as a frame. -/
def Screen.canvas (s : Screen ι) : RawFrame := ⟨s.state.canvas, s.state.width, s.state.height, []⟩

/-- Some pixel of row `k` is damaged. -/
def RowDamaged (width : ℕ) (set : List Rect) (k : ℕ) : Prop := ∃ x < width, Damaged set x k

/-- What is known of an output: it has pixels, and they can be addressed. -/
structure Fits (width height : ℕ) : Prop where
  width_pos : 0 < width
  height_pos : 0 < height
  size : width * height * 4 < 2 ^ 32

theorem Fits.height_lt {width height : ℕ} (h : Fits width height) : height < 2 ^ 30 := by
  have hle : 1 * height ≤ width * height := Nat.mul_le_mul_right _ h.width_pos
  have hsize := h.size
  omega

/-- Two byte strings that agree on the bytes of a row have the row in common. -/
theorem rowAt_congr {w k : ℕ} {a b : Bytes}
    (h : ∀ i, k * (w * 4) ≤ i → i < k * (w * 4) + w * 4 → a[i]? = b[i]?) :
    rowAt w a k = rowAt w b k := by
  refine List.ext_getElem? fun j => ?_
  simp only [rowAt, List.getElem?_take, List.getElem?_drop]
  split
  · exact h _ (Nat.le_add_right _ _) (by omega)
  · rfl

/-- The bytes of row `k` are the pixels of row `k`. -/
theorem row_of_bytes {w h k i : ℕ} (hk : k < h) (hi : k * (w * 4) ≤ i)
    (hi' : i < k * (w * 4) + w * 4) : i < w * h * 4 ∧ row w i = k := by
  have hassoc : k * (w * 4) = k * w * 4 := (Nat.mul_assoc _ _ _).symm
  have hmul : (k + 1) * w ≤ h * w := Nat.mul_le_mul_right w hk
  have hsucc : (k + 1) * w = k * w + w := by ring
  have hcomm : h * w = w * h := Nat.mul_comm h w
  refine ⟨by omega, ?_⟩
  refine Nat.div_eq_of_lt_le ?_ ?_ <;> omega

/-- **A software render changes the rows it reports.** -/
theorem render_rows {s : Compositor.Renderer} (hfits : Fits s.width s.height)
    (hwin : ∀ win ∈ s.windows, win.Addressable) {k : ℕ} (hk : k < s.height)
    (hout : ¬ Covered s.render.2.lastRepaintRects k) :
    ¬ RowDamaged s.width s.repaintRegion k ∧
      rowAt s.width s.canvas k = rowAt s.width s.render.1 k := by
  have hclip : ∀ i, row s.width i = k → ¬ ∃ clip ∈ s.clips, i ∈ clip.bytes s.width := by
    rintro i hi ⟨clip, hmem, -, hy0, hy1⟩
    rw [hi] at hy0 hy1
    refine hout ⟨⟨clip.y0, clip.y1 - clip.y0⟩, List.mem_map.2 ⟨clip, hmem, rfl⟩, hy0, ?_⟩
    show k < clip.y0 + (clip.y1 - clip.y0)
    omega
  constructor
  · rintro ⟨x, hx, hd⟩
    obtain ⟨hcol, hrow⟩ := Compositor.col_row_pixel (k := 0) (y := k) hx (by omega)
    have hle := Compositor.row_le (w := s.width) (h := s.height) (x := x + 1) hx hk
    have hdamage := (Compositor.Renderer.render_outside hfits.size hwin (by omega)
      (hclip _ hrow)).2.2.1
    rw [hcol, hrow] at hdamage
    exact hdamage hd
  · refine (rowAt_congr fun i hi hi' => ?_).symm
    obtain ⟨hlt, hrow⟩ := row_of_bytes hk hi hi'
    exact (Compositor.Renderer.render_outside hfits.size hwin hlt (hclip i hrow)).2.2.2

/-! ## The chain of frames -/

/-- A frame but for its damage. -/
def pixels (raw : RawFrame) : RawFrame := { raw with damage := [] }

theorem sameRow_pixels {b f : RawFrame} {k : ℕ} : (pixels b).SameRow f k ↔ b.SameRow f k :=
  ⟨fun h => ⟨h.width, h.height, h.row⟩, fun h => ⟨h.width, h.height, h.row⟩⟩

theorem follows_pixels {b f : RawFrame} : (pixels b).Follows f ↔ b.Follows f := by
  simp only [RawFrame.Follows, RawFrame.Covers, sameRow_pixels]

/-- **A chain of frames in flight**, from the frame last submitted (if the
YUV frame shows it) to the frame last accepted: each follows the one
before it. -/
def Chain : Option RawFrame → List CapturedFrame → Option RawFrame → Prop
  | base, [], last => base = last
  | base, frame :: frames, last => ∃ raw, frame = .cpu raw ∧ Fits raw.width raw.height ∧
      (∀ b, base = some b → b.Follows raw) ∧ Chain (some (pixels raw)) frames last

theorem Chain.snoc {base last : Option RawFrame} {frames : List CapturedFrame} {raw : RawFrame}
    (h : Chain base frames last) (hfits : Fits raw.width raw.height)
    (hlast : ∀ b, last = some b → b.Follows raw) :
    Chain base (frames ++ [.cpu raw]) (some (pixels raw)) := by
  induction frames generalizing base with
  | nil =>
    cases h
    exact ⟨raw, rfl, hfits, hlast, rfl⟩
  | cons frame frames ih =>
    obtain ⟨f, hf, hfits', hbase, h⟩ := h
    exact ⟨f, hf, hfits', hbase, ih h⟩

/-- The base may be forgotten; with nothing in flight the last frame is
forgotten with it. -/
theorem Chain.forget {base last : Option RawFrame} {frames : List CapturedFrame}
    (h : Chain base frames last) : ∃ last', Chain none frames last' ∧ (last' = last ∨ last' = none) := by
  cases frames with
  | nil => exact ⟨none, rfl, Or.inr rfl⟩
  | cons frame frames =>
    obtain ⟨raw, hraw, hfits, -, h⟩ := h
    exact ⟨last, ⟨raw, hraw, hfits, nofun, h⟩, Or.inl rfl⟩

/-- **Carrying damage forward keeps the chain.** -/
theorem follows_skip {b raw keep : RawFrame} (h : b.Follows raw) (h' : raw.Follows keep) :
    b.Follows { keep with damage :=
      if keep.damage.isEmpty || raw.damage.isEmpty then [] else keep.damage ++ raw.damage } := by
  by_cases hempty : (keep.damage.isEmpty || raw.damage.isEmpty) = true
  · exact Or.inl (if_pos hempty)
  have hparts : keep.damage ≠ [] ∧ raw.damage ≠ [] := by
    simpa [List.isEmpty_iff, not_or] using hempty
  refine Or.inr fun k hk => ?_
  simp only [if_neg hempty]
  rcases h'.resolve_left hparts.1 k hk with ⟨r, hmem, hr⟩ | hsame
  · exact Or.inl ⟨r, List.mem_append_left _ hmem, hr⟩
  · rcases h.resolve_left hparts.2 k (by rw [hsame.height]; exact hk) with ⟨r, hmem, hr⟩ | hsame'
    · exact Or.inl ⟨r, List.mem_append_right _ hmem, hr⟩
    · have htrans := hsame'.trans hsame
      exact Or.inr ⟨htrans.width, htrans.height, htrans.row⟩

theorem Chain.skip {base last : Option RawFrame} {frame newer : CapturedFrame}
    {frames : List CapturedFrame} (h : Chain base (frame :: newer :: frames) last) :
    Chain base (frame.skip newer :: frames) last := by
  obtain ⟨raw, rfl, hfits, hbase, keep, rfl, hfits', hnext, h⟩ := h
  exact ⟨_, rfl, hfits', fun b hb => follows_skip (hbase b hb)
    (follows_pixels.1 (hnext _ rfl)), h⟩

/-! ## The invariant -/

section Invariant

variable (scaler : Scaler) (s : State ι ρ X264Encoder)

/-- What the encoder keeps: the YUV frame shows the frame the chain starts
from, or the next conversion is a full one, or the queue is being drained
for a rebuild. -/
structure Encodes (base : Option RawFrame) : Prop where
  size : s.videoEncoder.inputFrame = (s.videoEncoder.config.width, s.videoEncoder.config.height)
  trusted : ∀ b, base = some b →
    s.videoEncoder.yuvFrame.Shows scaler b ∧ s.videoEncoder.inputFrame = (b.width, b.height)
  untrusted : base = none →
    s.videoEncoder.needsFullConvert = true ∨ ∃ width height, s.thread = .draining width height
  inHand : ∀ frame, s.thread = .controlAgain frame ∨ s.thread = .submitting frame →
    frame.dimensions = (s.videoEncoder.config.width, s.videoEncoder.config.height)

/-- Every row of the canvas is the last frame's, or is in `set`. -/
def Pending (set : List Rect) (last : Option RawFrame) : Prop :=
  ∀ b, last = some b → ∀ k < s.screen.state.height,
    RowDamaged s.screen.state.width set k ∨ b.SameRow s.screen.canvas k

/-- Where the render loop is with the next frame. -/
def Ahead (last : Option RawFrame) : Prop :=
  match s.loop with
  | .top => Pending s s.screen.state.damage last
  | .resizing _ _ => Pending s s.screen.state.damage last
  | .requesting => Pending s s.screen.repaintRegion last
  | .rendering => Pending s s.screen.repaintRegion last
  | .sending frame => ∃ raw, frame = .cpu raw ∧ pixels raw = s.screen.canvas ∧
      ∀ b, last = some b → b.Covers raw

/-- **The invariant**: while the encoder thread lives, one chain leads from
its YUV frame through the frames in flight to the canvas. -/
structure Converts : Prop where
  sane : Sane s.screen.state
  fits : Fits s.screen.state.width s.screen.state.height
  chain : s.thread.isExited = false →
    ∃ base last, Encodes scaler s base ∧ Chain base s.inFlight last ∧ Ahead s last

end Invariant

section Steps

variable {scaler : Scaler} {s s' : State ι ρ X264Encoder} {base last : Option RawFrame}

/-- A row stays accounted for while the output, its canvas and the rows'
damage stay. -/
theorem Pending.keep {set set' : List Rect} (h : Pending s set last)
    (hcanvas : s'.screen.canvas = s.screen.canvas)
    (hset : ∀ k < s.screen.state.height, RowDamaged s.screen.state.width set k →
      RowDamaged s.screen.state.width set' k) : Pending s' set' last := by
  have hw : s'.screen.state.width = s.screen.state.width := congrArg RawFrame.width hcanvas
  have hh : s'.screen.state.height = s.screen.state.height := congrArg RawFrame.height hcanvas
  intro b hb k hk
  rw [hh] at hk
  rw [hw, hcanvas]
  exact (h b hb k hk).imp_left (hset k hk)

theorem Ahead.forget (h : Ahead s last) : Ahead s none := by
  unfold Ahead at h ⊢
  split
  · exact nofun
  · exact nofun
  · exact nofun
  · exact nofun
  · rename_i hloop
    rw [hloop] at h
    obtain ⟨raw, hraw, hpixels, -⟩ := h
    exact ⟨raw, hraw, hpixels, nofun⟩

/-- The loop's part depends on the loop and the screen only. -/
theorem Ahead.congr (h : Ahead s last) (hloop : s'.loop = s.loop) (hscreen : s'.screen = s.screen) :
    Ahead s' last := by
  unfold Ahead Pending at h ⊢
  rw [hloop, hscreen]
  exact h

/-- A chain whose front is gone, or whose base cannot be trusted. -/
theorem Converts.untrusted (hsane : Sane s'.screen.state)
    (hfits : Fits s'.screen.state.width s'.screen.state.height)
    (hencodes : s'.thread.isExited = false → Encodes scaler s' none)
    (hchain : Chain base s'.inFlight last) (hahead : Ahead s' last) :
    Converts scaler s' := by
  refine ⟨hsane, hfits, fun hlive => ?_⟩
  obtain ⟨last', hchain', rfl | rfl⟩ := hchain.forget
  · exact ⟨none, last', hencodes hlive, hchain', hahead⟩
  · exact ⟨none, none, hencodes hlive, hchain', hahead.forget⟩

variable [DecidableEq ι] [DecidableEq ρ] {c : Config} {a : Action ι ρ Ffmpeg}

/-- Every submit that is made succeeds. -/
def SubmitSucceeds {E Ω : Type*} (V : VideoEncoder E Ω) (s : State ι ρ E) : Action ι ρ Ω → Prop
  | .encoder outcome => ∀ frame, s.thread = .submitting frame →
      (V.submit s.videoEncoder frame s.forceKeyframe outcome).2 ≠ none
  | _ => True

omit [DecidableEq ι] [DecidableEq ρ] in
/-- **A software render's frame covers what it changes**, and is the canvas. -/
theorem render_sw (hsw : c.backend = .sw) {o : RenderOutcome} {result : Option CapturedFrame}
    {screen : Screen ι} (hsane : Sane s.screen.state)
    (hfits : Fits s.screen.state.width s.screen.state.height)
    (hpending : Pending s s.screen.repaintRegion last)
    (hrender : s.screen.render c o = (result, screen)) :
    ∃ raw, result = some (.cpu raw) ∧ pixels raw = screen.canvas ∧
      (∀ b, last = some b → b.Covers raw) ∧ Sane screen.state ∧
      screen.state.width = s.screen.state.width ∧ screen.state.height = s.screen.state.height := by
  unfold Screen.render at hrender
  rw [hsw] at hrender
  cases hrender
  refine ⟨_, rfl, rfl, fun b hb k hk => ?_, ⟨hsane.size, hsane.location, hsane.buffers⟩, rfl, rfl⟩
  by_cases hcovered : Covered s.screen.renderer.render.2.lastRepaintRects k
  · exact Or.inl hcovered
  · obtain ⟨hclean, hrow⟩ := render_rows (s := s.screen.renderer) hfits hsane.windows_addressable hk hcovered
    have hsame := (hpending b hb k hk).resolve_left hclean
    exact Or.inr ⟨hsame.width, hsame.height, hsame.row.trans hrow⟩

/-! ## The render loop keeps the invariant -/

omit [DecidableEq ι] [DecidableEq ρ] in
/-- A step that leaves the encoder thread and the queue alone. -/
theorem Converts.ofLoop (h : Converts scaler s) (hthread : s'.thread = s.thread)
    (hencoder : s'.videoEncoder = s.videoEncoder) (hframes : s'.frames = s.frames)
    (hsane : Sane s'.screen.state) (hfits : Fits s'.screen.state.width s'.screen.state.height)
    (hahead : ∀ last, Ahead s last → Ahead s' last) : Converts scaler s' := by
  refine ⟨hsane, hfits, fun hlive => ?_⟩
  rw [hthread] at hlive
  obtain ⟨base, last, hencodes, hchain, hlast⟩ := h.chain hlive
  refine ⟨base, last, ⟨?_, ?_, ?_, ?_⟩, ?_, hahead last hlast⟩
  · rw [hencoder]
    exact hencodes.size
  · rw [hencoder]
    exact hencodes.trusted
  · rw [hencoder, hthread]
    exact hencodes.untrusted
  · rw [hencoder, hthread]
    exact hencodes.inHand
  · rw [State.inFlight, hthread, hframes]
    exact hchain

omit [DecidableEq ρ] in
theorem converts_client {op : Compositor.Op ι} {state : Compositor.State ι}
    (h : Converts scaler s) (htop : s.loop = .top) (hop : op.isClient = true)
    (hstep : s.screen.state.step op = some state) :
    Converts scaler { s with screen := { s.screen with state } } := by
  obtain ⟨⟨hw, hh, hcanvas⟩, -, hdamage⟩ := Compositor.State.step_client hop hstep
  have hframe : ({ s.screen with state } : Screen ι).canvas = s.screen.canvas := by
    rw [Screen.canvas, Screen.canvas, hw, hh, hcanvas]
  refine h.ofLoop rfl rfl rfl (Compositor.sane_step h.sane hstep) (by rw [hw, hh]; exact h.fits)
    fun last hlast => ?_
  unfold Ahead at hlast ⊢
  simp only [htop] at hlast ⊢
  exact hlast.keep hframe fun k hk ⟨x, hx, hd⟩ => ⟨x, hx, hdamage x k hx hk hd⟩

omit [DecidableEq ρ] in
theorem converts_resize {width height : ℕ} {state : Compositor.State ι}
    (h : Converts scaler s) (hsize : 0 < width ∧ 0 < height)
    (hstep : s.screen.state.step (.resizeOutput width height) = some state) :
    Converts scaler
      { s with screen := { s.screen with state }, loop := .resizing width height } := by
  obtain ⟨rfl, rfl, -, -, hfull⟩ := Compositor.State.step_resize hstep
  have hsane := Compositor.sane_step h.sane hstep
  refine h.ofLoop rfl rfl rfl hsane ⟨hsize.1, hsize.2, hsane.size⟩ fun last _ => ?_
  exact fun b _ k hk => Or.inl ⟨0, hsize.1, hfull 0 k hsize.1 hk⟩

omit [DecidableEq ι] [DecidableEq ρ] in
theorem converts_tick {next : Loop} (h : Converts scaler s) (htop : s.loop = .top)
    (hnext : next = .requesting ∨ next = .rendering) :
    Converts scaler { s.tick c with loop := next, forceRender := false } := by
  refine h.ofLoop rfl rfl rfl ⟨h.sane.size, h.sane.location, h.sane.buffers⟩ h.fits
    fun last hlast => ?_
  unfold Ahead at hlast ⊢
  simp only [htop] at hlast
  rcases hnext with rfl | rfl
  · exact hlast
  · exact hlast

omit [DecidableEq ι] [DecidableEq ρ] in
theorem converts_rendered (hsw : c.backend = .sw) (h : Converts scaler s)
    {o : RenderOutcome} {frame : CapturedFrame} {screen : Screen ι} (hloop : s.loop = .rendering)
    (hrender : s.screen.render c o = (some frame, screen)) :
    Converts scaler { s with screen, loop := .sending frame } := by
  have hnone : Pending s s.screen.repaintRegion none := nofun
  obtain ⟨_, -, -, -, hsane, hw, hh⟩ := render_sw hsw h.sane h.fits hnone hrender
  refine h.ofLoop rfl rfl rfl hsane (by rw [hw, hh]; exact h.fits) fun last hlast => ?_
  unfold Ahead at hlast ⊢
  simp only [hloop] at hlast
  obtain ⟨raw, hraw, hpixels, hcovers, -⟩ := render_sw hsw h.sane h.fits hlast hrender
  exact ⟨raw, Option.some.inj hraw, hpixels, hcovers⟩

omit [DecidableEq ι] [DecidableEq ρ] in
/-- **The queue takes a frame**: the chain grows by it, and the canvas is
what it shows. -/
theorem converts_accepted {frame : CapturedFrame} (h : Converts scaler s)
    (hloop : s.loop = .sending frame) (hlive : s.thread.isExited = false) :
    Converts scaler
      { s with frames := s.frames ++ [frame], ticksSinceRender := 0, loop := .top } := by
  refine ⟨h.sane, h.fits, fun _ => ?_⟩
  obtain ⟨base, last, hencodes, hchain, hahead⟩ := h.chain hlive
  unfold Ahead at hahead
  simp only [hloop] at hahead
  obtain ⟨raw, rfl, hpixels, hcovers⟩ := hahead
  have hsize : Fits raw.width raw.height := by
    have hw : raw.width = s.screen.state.width := congrArg RawFrame.width hpixels
    have hh : raw.height = s.screen.state.height := congrArg RawFrame.height hpixels
    rw [hw, hh]
    exact h.fits
  refine ⟨base, some (pixels raw), ⟨hencodes.size, hencodes.trusted, hencodes.untrusted,
    hencodes.inHand⟩, ?_, ?_⟩
  · have hsnoc := hchain.snoc hsize fun b hb => Or.inr (hcovers b hb)
    rw [State.inFlight, List.append_assoc] at hsnoc
    exact hsnoc
  · rintro b hb k -
    cases hb
    rw [hpixels]
    exact Or.inr ⟨rfl, rfl, rfl⟩

omit [DecidableEq ι] [DecidableEq ρ] in
/-- **A refused frame's rows are put back.** -/
theorem converts_refused {raw : RawFrame} (h : Converts scaler s)
    (hloop : s.loop = .sending (.cpu raw)) :
    Converts scaler { s with
      screen := s.screen.readdDamage raw.damage
      ticksSinceRender := s.ticksSinceRender + 1
      loop := .top } := by
  obtain ⟨damage, hscreen, -, hrows⟩ := s.screen.readdDamage_eq raw.damage
  rw [hscreen]
  refine h.ofLoop rfl rfl rfl ⟨h.sane.size, h.sane.location, h.sane.buffers⟩ h.fits
    fun last hlast => ?_
  unfold Ahead at hlast ⊢
  simp only [hloop] at hlast
  obtain ⟨raw', hraw, hpixels, hcovers⟩ := hlast
  cases hraw
  have hheight : raw.height = s.screen.state.height := congrArg RawFrame.height hpixels
  intro b hb k hk
  show RowDamaged s.screen.state.width damage k ∨ b.SameRow s.screen.canvas k
  rw [← hpixels]
  rcases hcovers b hb k (by rw [hheight]; exact hk) with hcovered | hsame
  · exact Or.inl ⟨0, h.fits.width_pos, hrows 0 k h.fits.width_pos hk (Or.inr hcovered)⟩
  · exact Or.inr ⟨hsame.width, hsame.height, hsame.row⟩

/-! ## The encoder thread keeps the invariant -/

omit [DecidableEq ι] [DecidableEq ρ] in
/-- A step that leaves the render loop and the screen alone. -/
theorem Converts.ofEncoder (h : Converts scaler s) (hscreen : s'.screen = s.screen)
    (hloop : s'.loop = s.loop)
    (hstep : s'.thread.isExited = false → s.thread.isExited = false ∧ ∀ base last,
      Encodes scaler s base → Chain base s.inFlight last → ∃ base' last', Encodes scaler s' base' ∧
        Chain base' s'.inFlight last' ∧ (last' = last ∨ last' = none)) :
    Converts scaler s' := by
  refine ⟨by rw [hscreen]; exact h.sane, by rw [hscreen]; exact h.fits, fun hlive' => ?_⟩
  obtain ⟨hlive, hstep⟩ := hstep hlive'
  obtain ⟨base, last, hencodes, hchain, hahead⟩ := h.chain hlive
  obtain ⟨base', last', hencodes', hchain', rfl | rfl⟩ := hstep base last hencodes hchain
  · exact ⟨base', last', hencodes', hchain', hahead.congr hloop hscreen⟩
  · exact ⟨base', none, hencodes', hchain', hahead.forget.congr hloop hscreen⟩

omit [DecidableEq ι] [DecidableEq ρ] in
theorem converts_control {o : Ffmpeg} {m : EncoderControl} {rest : List EncoderControl}
    (h : Converts scaler s) :
    Converts scaler ({ s with control := rest }.applyControl (x264 scaler) o m) := by
  cases m with
  | forceKeyframe =>
    exact h.ofEncoder rfl rfl fun hlive => ⟨hlive, fun base last hencodes hchain =>
      ⟨base, last, ⟨hencodes.size, hencodes.trusted, hencodes.untrusted, hencodes.inHand⟩, hchain,
        Or.inl rfl⟩⟩
  | changeBitrate bitrate =>
    obtain ⟨hw, hh, hinput, hyuv, hfull⟩ :=
      X264Encoder.changeBitrate_keeps s.videoEncoder bitrate o
    refine h.ofEncoder rfl rfl fun hlive => ⟨hlive, fun base last hencodes hchain =>
      ⟨base, last, ⟨?_, ?_, ?_, ?_⟩, hchain, Or.inl rfl⟩⟩
    · exact hinput.trans (by rw [hencodes.size]; exact (Prod.ext hw hh).symm)
    · intro b hb
      obtain ⟨hshows, hsize⟩ := hencodes.trusted b hb
      exact ⟨hyuv.symm ▸ hshows, hinput.trans hsize⟩
    · exact fun hb => (hencodes.untrusted hb).imp_left hfull.trans
    · exact fun frame hthread => (hencodes.inHand frame hthread).trans (Prod.ext hw hh).symm

omit [DecidableEq ι] [DecidableEq ρ] in
/-- **A successful submit converts the whole frame**, one way or the other. -/
theorem submit_shows {o : Ffmpeg} {frame : CapturedFrame} {e' : X264Encoder}
    {packets : List EncodedPacket} {frames : List CapturedFrame}
    (hencodes : Encodes scaler s base) (hthread : s.thread = .submitting frame)
    (hchain : Chain base (frame :: frames) last)
    (hsubmit : s.videoEncoder.submit scaler frame s.forceKeyframe o = (e', some packets)) :
    ∃ raw, frame = .cpu raw ∧ e'.yuvFrame.Shows scaler raw ∧
      e'.config = s.videoEncoder.config ∧ e'.inputFrame = s.videoEncoder.inputFrame ∧
      e'.inputFrame = (raw.width, raw.height) ∧ Chain (some (pixels raw)) frames last := by
  obtain ⟨raw, rfl, hfits, hbase, hrest⟩ := hchain
  obtain ⟨hconfig, hinput, -, hyuv⟩ := X264Encoder.submit_cpu hsubmit
  have hdim : s.videoEncoder.inputFrame = (raw.width, raw.height) := by
    rw [hencodes.size]
    exact (hencodes.inHand _ (Or.inr hthread)).symm
  refine ⟨raw, rfl, ?_, hconfig, hinput, hinput.trans hdim, hrest⟩
  rw [hyuv, hdim]
  by_cases hfull : (s.videoEncoder.needsFullConvert || s.forceKeyframe || raw.damage.isEmpty) = true
  · rw [if_pos hfull]
    exact fullConvert_shows _
  · rw [if_neg hfull]
    simp only [Bool.or_eq_true, not_or, Bool.not_eq_true, List.isEmpty_eq_false_iff] at hfull
    -- the flag is down, so the YUV frame shows the frame this one follows
    cases base with
    | none =>
      rcases hencodes.untrusted rfl with hneeds | ⟨w, h, hdraining⟩
      · exact absurd hneeds (by simp [hfull.1.1])
      · rw [hthread] at hdraining
        cases hdraining
    | some b =>
      exact convertDamagedRows_shows hfits.height_lt (hencodes.trusted b rfl).1
        ((hbase b rfl).resolve_left hfull.2)

omit [DecidableEq ι] [DecidableEq ρ] in
/-- The thread moves on, and the encoder stays. -/
theorem Encodes.move (h : Encodes scaler s base) (hencoder : s'.videoEncoder = s.videoEncoder)
    (hdraining : ∀ width height, s.thread = .draining width height → s'.thread = s.thread)
    (hinHand : ∀ frame, s'.thread = .controlAgain frame ∨ s'.thread = .submitting frame →
      frame.dimensions = (s.videoEncoder.config.width, s.videoEncoder.config.height)) :
    Encodes scaler s' base := by
  refine ⟨?_, ?_, fun hb => ?_, ?_⟩
  · rw [hencoder]
    exact h.size
  · rw [hencoder]
    exact h.trusted
  · rw [hencoder]
    refine (h.untrusted hb).imp_right ?_
    rintro ⟨width, height, hthread⟩
    exact ⟨width, height, (hdraining width height hthread).trans hthread⟩
  · rw [hencoder]
    exact hinHand

omit [DecidableEq ι] [DecidableEq ρ] in
/-- The thread moves on with what it has in hand. -/
theorem Converts.move (h : Converts scaler s) {now thread : Thread} {frames : List CapturedFrame}
    {rx : Watch.Receiver} (hnow : s.thread = now) (hlive : now.isExited = false)
    (hdraining : ∀ width height, now ≠ .draining width height)
    (hflight : thread.inHand ++ frames = now.inHand ++ s.frames)
    (hinHand : ∀ base, Encodes scaler s base → ∀ frame,
      thread = .controlAgain frame ∨ thread = .submitting frame →
        frame.dimensions = (s.videoEncoder.config.width, s.videoEncoder.config.height)) :
    Converts scaler { s with thread, frames, resizeRx := rx } := by
  refine h.ofEncoder rfl rfl fun _ => ⟨by rw [hnow]; exact hlive, fun base last hencodes hchain =>
    ⟨base, last, hencodes.move rfl (fun width height ht => ?_) (hinHand base hencodes), ?_,
      Or.inl rfl⟩⟩
  · exact absurd (hnow.symm.trans ht) (hdraining width height)
  · rw [State.inFlight, hnow, ← hflight] at hchain
    exact hchain

omit [DecidableEq ι] [DecidableEq ρ] in
/-- And without a frame whose size is settled. -/
theorem Converts.pass (h : Converts scaler s) {now thread : Thread} {frames : List CapturedFrame}
    {rx : Watch.Receiver} (hnow : s.thread = now) (hlive : now.isExited = false)
    (hdraining : ∀ width height, now ≠ .draining width height)
    (hflight : thread.inHand ++ frames = now.inHand ++ s.frames)
    (hinHand : ∀ frame, thread ≠ .controlAgain frame ∧ thread ≠ .submitting frame) :
    Converts scaler { s with thread, frames, resizeRx := rx } :=
  h.move hnow hlive hdraining hflight fun _ _ frame ht =>
    (ht.elim (hinHand frame).1 (hinHand frame).2).elim

omit [DecidableEq ι] [DecidableEq ρ] in
/-- After a rebuild the next conversion is full, so nothing is owed to the
frame before. -/
theorem converts_rebuilt {o : Ffmpeg} {width height : ℕ} {e' : X264Encoder} {thread : Thread}
    (h : Converts scaler s) (hlive : s.thread.isExited = false)
    (hinit : s.videoEncoder.reinitialize width height o = some e')
    (hflight : thread.inHand ++ s.frames = s.inFlight)
    (hinHand : ∀ frame, thread = .controlAgain frame ∨ thread = .submitting frame →
      frame.dimensions = (width, height)) :
    Converts scaler { s with videoEncoder := e', thread } := by
  obtain ⟨hw, hh, hinput, hfull⟩ := X264Encoder.reinitialize_eq hinit
  refine h.ofEncoder rfl rfl fun _ => ⟨hlive, fun base last _ hchain => ?_⟩
  obtain ⟨last', hchain', hlast⟩ := hchain.forget
  refine ⟨none, last', ⟨?_, nofun, fun _ => Or.inl hfull, fun frame hthread => ?_⟩, ?_, hlast⟩
  · exact hinput.trans (Prod.ext hw.symm hh.symm)
  · exact (hinHand frame hthread).trans (Prod.ext hw.symm hh.symm)
  · rw [State.inFlight, hflight]
    exact hchain'

/-- **A step keeps the invariant**, if a submit it makes succeeds. -/
theorem converts_step (hsw : c.backend = .sw) (h : Trans c (x264 scaler) s a s')
    (hok : SubmitSucceeds (x264 scaler) s a) (hs : Converts scaler s) : Converts scaler s' := by
  cases h with
  | client htop hop hstep => exact converts_client hs htop hop hstep
  | resize htop hsize hstep => exact converts_resize hs hsize hstep
  | tickIdle htop hclean hforce =>
    refine hs.ofLoop rfl rfl rfl ⟨hs.sane.size, hs.sane.location, hs.sane.buffers⟩ hs.fits
      fun last hlast => ?_
    unfold Ahead at hlast ⊢
    simp only [htop, hclean] at hlast ⊢
    exact hlast
  | tickWork htop hwork hnext => exact converts_tick hs htop hnext
  | told hloop =>
    refine hs.ofLoop rfl rfl rfl hs.sane hs.fits fun last hlast => ?_
    unfold Ahead at hlast ⊢
    simp only [hloop] at hlast
    exact hlast
  | requested hloop =>
    refine hs.ofLoop rfl rfl rfl hs.sane hs.fits fun last hlast => ?_
    unfold Ahead at hlast ⊢
    simp only [hloop] at hlast
    exact hlast
  | rendered hloop hrender => exact converts_rendered hsw hs hloop hrender
  | notRendered hloop hrender =>
    -- the software renderer always renders
    exact absurd hsw (Screen.render_none hrender).1
  | closed hloop hexit =>
    refine ⟨hs.sane, hs.fits, fun hlive => ?_⟩
    rw [show s.thread.isExited = false from hlive] at hexit
    cases hexit
  | accepted hloop hexit hroom => exact converts_accepted hs hloop hexit
  | refusedCpu hloop hexit hfull => exact converts_refused hs hloop
  | refusedGpu hloop hexit hfull =>
    -- nor does it hand on dmabufs
    obtain ⟨base, last, -, -, hahead⟩ := hs.chain hexit
    unfold Ahead at hahead
    simp only [hloop] at hahead
    obtain ⟨raw, hraw, -⟩ := hahead
    cases hraw
  | control hthread hcontrol => exact converts_control hs
  | controlled hthread hcontrol =>
    exact hs.pass hthread rfl nofun rfl fun _ => ⟨nofun, nofun⟩
  | resized hthread hchanged hvalue =>
    exact hs.pass hthread rfl nofun rfl fun _ => ⟨nofun, nofun⟩
  | notResized hthread hsame =>
    exact hs.pass hthread rfl nofun rfl fun _ => ⟨nofun, nofun⟩
  | @drained o width height frame frames hthread hframes =>
    refine hs.ofEncoder rfl rfl fun _ => ⟨by rw [hthread]; rfl, fun base last hencodes hchain => ?_⟩
    rw [State.inFlight, hthread, hframes] at hchain
    obtain ⟨raw, -, -, -, hrest⟩ := hchain
    obtain ⟨last', hrest', hlast⟩ := hrest.forget
    refine ⟨none, last', ⟨hencodes.size, nofun, fun _ => Or.inr ⟨width, height, hthread⟩,
      hencodes.inHand⟩, ?_, hlast⟩
    rw [State.inFlight, show ({ s with frames } : State ι ρ X264Encoder).thread = s.thread from rfl, hthread]
    exact hrest'
  | reinitialized hthread hframes hinit =>
    exact converts_rebuilt hs (by rw [hthread]; rfl) hinit (by rw [State.inFlight, hthread]; rfl)
      fun frame ht => by rcases ht with ht | ht <;> cases ht
  | received hthread hframes =>
    exact hs.pass hthread rfl nofun hframes.symm fun _ => ⟨nofun, nofun⟩
  | skipped hthread hframes =>
    refine hs.ofEncoder rfl rfl fun _ => ⟨by rw [hthread]; rfl, fun base last hencodes hchain => ?_⟩
    rw [State.inFlight, hthread, hframes] at hchain
    refine ⟨base, last, hencodes.move rfl (fun width height ht => ?_) fun _ ht => ?_, hchain.skip,
      Or.inl rfl⟩
    · rw [hthread] at ht
      cases ht
    · rcases ht with ht | ht <;> cases ht
  | newest hthread hframes =>
    exact hs.pass hthread rfl nofun rfl fun _ => ⟨nofun, nofun⟩
  | matched hthread hsize =>
    refine hs.move hthread rfl nofun rfl fun _ _ frame' ht => ?_
    rcases ht with ht | ht
    · cases ht
      exact hsize
    · cases ht
  | rebuilt hthread hinit =>
    refine converts_rebuilt hs (by rw [hthread]; rfl) hinit (by rw [State.inFlight, hthread]; rfl)
      fun frame' ht => ?_
    rcases ht with ht | ht
    · cases ht
      rfl
    · cases ht
  | failed hthread => exact ⟨hs.sane, hs.fits, nofun⟩
  | controlledAgain hthread hcontrol =>
    refine hs.move hthread rfl nofun rfl fun _ hencodes frame' ht => ?_
    rcases ht with ht | ht
    · cases ht
    · cases ht
      exact hencodes.inHand _ (Or.inl hthread)
  | @submitted o frame e' packets hthread hsubmit =>
    -- the condition excludes a submit that fails
    cases packets with
    | none =>
      refine absurd ?_ (hok frame hthread)
      rw [hsubmit]
    | some packets =>
      refine hs.ofEncoder rfl rfl fun _ => ⟨by rw [hthread]; rfl, fun base last hencodes hchain => ?_⟩
      rw [State.inFlight, hthread] at hchain
      obtain ⟨raw, -, hshows, hconfig, hinput, hsize, hrest⟩ :=
        submit_shows hencodes hthread hchain hsubmit
      refine ⟨some (pixels raw), last, ⟨?_, ?_, nofun, fun _ ht => ?_⟩, hrest, Or.inl rfl⟩
      · show e'.inputFrame = (e'.config.width, e'.config.height)
        rw [hinput, hconfig, hencodes.size]
      · intro b hb
        cases hb
        exact ⟨fun output => hshows output, hsize⟩
      · rcases ht with ht | ht <;> cases ht
  | store hr => exact hs.ofLoop rfl rfl rfl hs.sane hs.fits fun _ hlast => hlast.congr rfl rfl
  | send hr hroom => exact hs.ofLoop rfl rfl rfl hs.sane hs.fits fun _ hlast => hlast.congr rfl rfl
  | changeBitrate =>
    exact hs.ofLoop rfl rfl rfl hs.sane hs.fits fun _ hlast => hlast.congr rfl rfl

omit [DecidableEq ρ] in
theorem converts_started (h : Started (x264 scaler) s) : Converts scaler s := by
  refine ⟨h.sane, ⟨h.size.1, h.size.2, h.state.1⟩, fun _ => ⟨none, none, ?_, ?_, ?_⟩⟩
  · obtain ⟨config, fresh, he⟩ := h.videoEncoder
    refine ⟨by rw [he]; rfl, nofun, fun _ => Or.inl (by rw [he]; rfl), fun frame ht => ?_⟩
    rw [h.thread] at ht
    rcases ht with ht | ht <;> cases ht
  · rw [State.inFlight, h.thread, h.frames]
    rfl
  · unfold Ahead
    rw [h.loop]
    exact nofun

theorem converts_of_run (hsw : c.backend = .sw)
    (hr : (machine ι ρ c (x264 scaler)).Reach (SubmitSucceeds (x264 scaler)) s) :
    Converts scaler s :=
  hr.invariant (fun _ => converts_started) fun _ _ _ hok hstep =>
    converts_step hsw (trans_of_step hstep) hok

/-- **Damage-driven conversion equals full conversion.** In every run of
the software pipeline whose submits succeed, what a submit leaves in the
encoder's YUV frame is, on every row of every plane, the full conversion
of the frame submitted. -/
theorem conversion_is_full (hsw : c.backend = .sw)
    (hr : (machine ι ρ c (x264 scaler)).Reach (SubmitSucceeds (x264 scaler)) s)
    {o : Ffmpeg} (hok : SubmitSucceeds (x264 scaler) s (.encoder o))
    (hstep : (machine ι ρ c (x264 scaler)).step s (.encoder o) = some s')
    {frame : CapturedFrame} (hthread : s.thread = .submitting frame) :
    ∃ raw, frame = .cpu raw ∧ s'.submitted = some ((raw.width, raw.height), raw.data) ∧
      ∀ output, s'.videoEncoder.yuvFrame.Agree raw.height (fullConvert scaler raw output) := by
  obtain ⟨base, last, hencodes, hchain, -⟩ := (converts_of_run hsw hr).chain (by rw [hthread]; rfl)
  rw [State.inFlight, hthread] at hchain
  simp only [machine, State.step, State.stepEncoder, hthread, Option.some.injEq] at hstep
  subst hstep
  have hsome := hok frame hthread
  cases hsubmit : s.videoEncoder.submit scaler frame s.forceKeyframe o with
  | mk e' packets =>
    cases packets with
    | none =>
      refine absurd ?_ hsome
      show (s.videoEncoder.submit scaler frame s.forceKeyframe o).2 = none
      rw [hsubmit]
    | some packets =>
      obtain ⟨raw, rfl, hshows, -⟩ := submit_shows hencodes hthread hchain hsubmit
      refine ⟨raw, rfl, rfl, ?_⟩
      show (s.videoEncoder.submit scaler (.cpu raw) s.forceKeyframe o).1.yuvFrame.Shows scaler raw
      rw [hsubmit]
      exact hshows

/-- A window commits a buffer and reports its third row: the second frame
is converted by that damage alone. -/
theorem conversion_is_full_second : ∃ (s s' : State Unit Unit X264Encoder) (raw : RawFrame),
    (s.videoEncoder.needsFullConvert = false ∧ s.forceKeyframe = false ∧ raw.damage = [⟨2, 1⟩]) ∧
      (machine Unit Unit someConfig (x264 someScaler)).step s (.encoder {}) = some s' ∧
      s'.submitted = some ((raw.width, raw.height), raw.data) ∧
      ∀ output, s'.videoEncoder.yuvFrame.Agree raw.height (fullConvert someScaler raw output) := by
  have hrun : ∃ (s s' : State Unit Unit X264Encoder) (frame : CapturedFrame),
      (machine Unit Unit someConfig (x264 someScaler)).Run (SubmitSucceeds (x264 someScaler))
        (start 2 4 someEncoder)
        [.client (.newToplevel ()), .tick, .loop .drawn, .loop .drawn, .encoder {}, .encoder {},
          .encoder {}, .encoder {}, .encoder {}, .encoder {}, .encoder {},
          .client (.commit () (some (someBuffer 0)) [⟨0, 2, 2, 1⟩]), .tick, .loop .drawn,
          .loop .drawn, .encoder {}, .encoder {}, .encoder {}, .encoder {}, .encoder {},
          .encoder {}] s ∧
      s.thread = .submitting frame ∧ s.videoEncoder.needsFullConvert = false ∧
      s.forceKeyframe = false ∧ (∀ raw, frame = .cpu raw → raw.damage = [⟨2, 1⟩]) ∧
      SubmitSucceeds (x264 someScaler) s (.encoder {}) ∧
      (machine Unit Unit someConfig (x264 someScaler)).step s (.encoder {}) = some s' := by
    refine ⟨_, _, _, ⟨trivial, _, rfl, trivial, _, rfl, trivial, _, rfl, trivial, _, rfl, nofun, _, rfl,
      nofun, _, rfl, nofun, _, rfl, nofun, _, rfl, nofun, _, rfl, nofun, _, rfl, fun _ hframe => ?_,
      _, rfl, trivial, _, rfl, trivial, _, rfl, trivial, _, rfl, trivial, _, rfl, nofun, _, rfl,
      nofun, _, rfl, nofun, _, rfl, nofun, _, rfl, nofun, _, rfl, nofun, _, rfl, rfl⟩, rfl, rfl, rfl,
      fun raw hraw => ?_, fun _ hframe => ?_, rfl⟩
    · cases hframe
      nofun
    · cases hraw
      rfl
    · cases hframe
      nofun
  obtain ⟨s, s', frame, hrun, hthread, hneeds, hforce, hdamage, hok, hstep⟩ := hrun
  have hr := Machine.Reach.run _ (.start someStarted) hrun
  obtain ⟨raw, rfl, h⟩ := conversion_is_full rfl hr hok hstep hthread
  exact ⟨s, s', raw, ⟨hneeds, hforce, hdamage raw rfl⟩, hstep, h⟩

end Steps

end Pipeline

end WaylandWebStream
