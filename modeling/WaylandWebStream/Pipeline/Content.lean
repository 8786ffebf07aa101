import WaylandWebStream.Pipeline.Steps

/-!
# The last content reaches the encoder

What is on the screen is owed to the encoder until a frame showing it is
submitted. It is carried by the damage, by the forced render, by the
render loop on its way to the queue, or by the newest frame in flight;
two steps can drop it: the drain at a resize, which throws away frames
that were rendered at the new size already, and a full queue refusing a
frame that has no damage to put back.
-/

namespace WaylandWebStream

namespace Pipeline

open Compositor (Rect Damaged Sane)
open Encoder

variable {ι ρ E Ω : Type*}

/-! ## What is shown -/

/-- A byte of the current content: the picture of the windows, or what GL
draws of them. -/
noncomputable def Screen.content (c : Config) (s : Screen ι) (i : ℕ) : Option UInt8 :=
  match c.backend with
  | .sw => s.state.picture i
  | .gl _ => (s.drawn c)[i]?

/-- A size and pixels that are the current content at the current size. -/
def Screen.Shows (c : Config) (s : Screen ι) (v : (ℕ × ℕ) × Bytes) : Prop :=
  v.1 = (s.state.width, s.state.height) ∧
    ∀ i < s.state.width * s.state.height * 4, v.2[i]? = s.content c i

namespace State

variable (c : Config) (s : State ι ρ E)

/-- What the newest frame in flight shows, or else what was last submitted. -/
def newest : Option ((ℕ × ℕ) × Bytes) :=
  match s.inFlight.getLast? with
  | some frame => some (s.screen.view frame)
  | none => s.submitted

/-- The newest frame shows the content. -/
def Presented : Prop := ∃ v, s.newest = some v ∧ s.screen.Shows c v

/-- The last frame given to `submit` shows the content. -/
def Submitted : Prop := ∃ v, s.submitted = some v ∧ s.screen.Shows c v

end State

section Runs

variable [DecidableEq ι] [DecidableEq ρ] {c : Config} {V : VideoEncoder E Ω}
  {s s' : State ι ρ E} {a : Action ι ρ Ω}

/-- A client operation's damage is complete: what it changes on the screen
is damaged. -/
def Complete (c : Config) (s : Screen ι) (op : Compositor.Op ι) : Prop :=
  match c.backend with
  | .sw => op.Complete s.state
  | .gl _ => ∀ state, s.state.step op = some state →
      ({ s with state } : Screen ι).drawn c = s.drawn c ∨ state.damage ≠ []

/-- A render shows the content: it does not fail, and no clip of a
software frame paints a row of a window that a full repaint skips. -/
def Renders (c : Config) (s : Screen ι) (outcome : RenderOutcome) : Prop :=
  outcome = .drawn ∧ (c.backend = .sw → s.renderer.Respects)

/-- **The content is not dropped.** A render shows it; clients' damage is
complete; a frame the queue refuses has damage to put back, or the content
is owed or presented anyhow; and so it is, or was submitted already, when
the drain at a resize takes the last frame queued. -/
def Delivers (c : Config) (s : State ι ρ E) : Action ι ρ Ω → Prop
  | .client op => Complete c s.screen op
  | .loop outcome => (s.loop = .rendering → Renders c s.screen outcome) ∧
      ∀ frame, s.loop = .sending frame → s.thread.isExited = false →
        frameCapacity ≤ s.frames.length →
        (∃ raw, frame = .cpu raw ∧ raw.damage ≠ []) ∨ s.forceRender = true ∨ s.Presented c
  | .encoder _ => ∀ width height frame, s.thread = .draining width height → s.frames = [frame] →
      s.Owed ∨ s.Submitted c
  | _ => True

/-! ## The invariant -/

/-- **The content's whereabouts.** The software canvas shows it where it is
not damaged, a frame about to be sent shows it, and while the encoder
thread lives it is owed or presented. -/
structure Current (c : Config) (s : State ι ρ E) : Prop where
  sane : Sane s.screen.state
  canvas : c.backend = .sw → ¬ (s.loop = .requesting ∨ s.loop = .rendering) →
    s.screen.state.Tracks
  stashed : c.backend = .sw → s.loop = .requesting ∨ s.loop = .rendering →
    { s.screen.state with damage := s.screen.repaintRegion }.Tracks
  sending : ∀ frame, s.loop = .sending frame → s.screen.Shows c (s.screen.view frame)
  carried : s.thread.isExited = false → s.Owed ∨ s.Presented c

omit [DecidableEq ι] in
/-- Content that stays is shown by what showed it. -/
theorem Screen.Shows.congr {screen screen' : Screen ι} {v : (ℕ × ℕ) × Bytes}
    (h : screen.Shows c v) (hw : screen'.state.width = screen.state.width)
    (hh : screen'.state.height = screen.state.height)
    (hcontent : ∀ i < screen.state.width * screen.state.height * 4,
      screen'.content c i = screen.content c i) : screen'.Shows c v := by
  refine ⟨by rw [hw, hh]; exact h.1, fun i hi => ?_⟩
  rw [hw, hh] at hi
  rw [hcontent i hi]
  exact h.2 i hi

omit [DecidableEq ι] [DecidableEq ρ] in
/-- The newest frame stays while the frames in flight, what is in the
dmabufs and what was submitted stay. -/
theorem newest_congr (hflight : s'.inFlight = s.inFlight)
    (hmemory : s'.screen.gl.memory = s.screen.gl.memory) (hsubmitted : s'.submitted = s.submitted) :
    s'.newest = s.newest := by
  have hview : s'.screen.view = s.screen.view := by
    funext frame
    cases frame with
    | cpu raw => rfl
    | gpu dmabuf width height =>
      show ((width, height), s'.screen.gl.memory dmabuf) = ((width, height), s.screen.gl.memory dmabuf)
      rw [hmemory]
  rw [State.newest, State.newest, hflight, hview, hsubmitted]

omit [DecidableEq ρ] in
/-- **A complete operation** keeps the content, or leaves damage. -/
theorem complete_step {op : Compositor.Op ι} {state : Compositor.State ι}
    (hop : op.isClient = true) (h : Complete c s.screen op)
    (hstep : s.screen.state.step op = some state) :
    state.damage ≠ [] ∨ ∀ i < s.screen.state.width * s.screen.state.height * 4,
      ({ s.screen with state } : Screen ι).content c i = s.screen.content c i := by
  obtain ⟨⟨hw, hh, -⟩, -, -⟩ := Compositor.State.step_client hop hstep
  unfold Complete at h
  unfold Screen.content
  cases hbackend : c.backend with
  | sw =>
    rw [hbackend] at h
    by_cases hdamage : state.damage = []
    · refine Or.inr fun i hi => ?_
      rw [← hw, ← hh] at hi
      by_contra hne
      obtain ⟨r, hmem, -⟩ := h state hstep i hi hne
      rw [hdamage] at hmem
      cases hmem
    · exact Or.inl hdamage
  | gl produceGpuFrames =>
    rw [hbackend] at h
    rcases h state hstep with hdrawn | hdamage
    · exact Or.inr fun i _ => congrArg (fun b : Bytes => b[i]?) hdrawn
    · exact Or.inl hdamage

omit [DecidableEq ι] [DecidableEq ρ] in
/-- **What a render hands on shows the content**, and the canvas tracks it. -/
theorem render_shows {frame : CapturedFrame} {screen : Screen ι} {o : RenderOutcome}
    (hsane : Sane s.screen.state)
    (htracks : c.backend = .sw → { s.screen.state with damage := s.screen.repaintRegion }.Tracks)
    (hrespects : c.backend = .sw → s.screen.renderer.Respects)
    (hrender : s.screen.render c o = (some frame, screen)) :
    screen.Shows c (screen.view frame) ∧ Sane screen.state ∧
      (c.backend = .sw → screen.state.Tracks) := by
  unfold Screen.render at hrender
  cases hbackend : c.backend with
  | sw =>
    rw [hbackend] at hrender
    cases hrender
    have hsane' : Sane { s.screen.state with damage := s.screen.repaintRegion } :=
      ⟨hsane.size, hsane.location, hsane.buffers⟩
    obtain ⟨-, hpicture⟩ := (htracks hbackend).render hsane' (hrespects hbackend)
    refine ⟨⟨rfl, fun i hi => ?_⟩, ⟨hsane.size, hsane.location, hsane.buffers⟩,
      fun _ _ i hi _ => hpicture i hi⟩
    rw [Screen.content, hbackend]
    exact hpicture i hi
  | gl produceGpuFrames =>
    rw [hbackend] at hrender
    cases o with
    | notSized => cases hrender
    | notDrawn left => cases hrender
    | drawn =>
      cases hrender
      refine ⟨?_, ⟨hsane.size, hsane.location, hsane.buffers⟩, nofun⟩
      cases produceGpuFrames with
      | false =>
        refine ⟨rfl, fun i _ => ?_⟩
        rw [Screen.content, hbackend]
        rfl
      | true =>
        refine ⟨rfl, fun i _ => ?_⟩
        rw [Screen.content, hbackend]
        exact congrArg (fun b : Bytes => b[i]?) (Function.update_self ..)

/-! ## The render loop -/

omit [DecidableEq ι] [DecidableEq ρ] in
/-- A step of a sender, or one that touches neither the screen nor the
frames. -/
theorem Current.ofRest (h : Current c s) (hscreen : s'.screen = s.screen) (hloop : s'.loop = s.loop)
    (hcarried : s'.thread.isExited = false → s.thread.isExited = false ∧
      (s.Owed ∨ s.Presented c → s'.Owed ∨ s'.Presented c)) : Current c s' := by
  refine ⟨?_, ?_, ?_, ?_, fun hlive => ?_⟩
  · rw [hscreen]
    exact h.sane
  · rw [hscreen, hloop]
    exact h.canvas
  · rw [hscreen, hloop]
    exact h.stashed
  · rw [hscreen, hloop]
    exact h.sending
  · obtain ⟨hlive', hstep⟩ := hcarried hlive
    exact hstep (h.carried hlive')

omit [DecidableEq ρ] in
theorem current_client {op : Compositor.Op ι} {state : Compositor.State ι} (h : Current c s)
    (htop : s.loop = .top) (hop : op.isClient = true) (hok : Complete c s.screen op)
    (hstep : s.screen.state.step op = some state) :
    Current c { s with screen := { s.screen with state } } := by
  obtain ⟨⟨hw, hh, -⟩, hdamage, -⟩ := Compositor.State.step_client hop hstep
  have hcanvas : c.backend = .sw → state.Tracks := fun hsw => by
    have htracks := h.canvas hsw (by rw [htop]; rintro (h | h) <;> cases h)
    unfold Complete at hok
    rw [hsw] at hok
    exact Compositor.tracks_step h.sane hok (fun hframe => by rw [hframe] at hop; cases hop) hstep
      htracks
  refine ⟨Compositor.sane_step h.sane hstep, fun hsw _ => hcanvas hsw, fun _ hloop => ?_,
    fun frame hloop => ?_, fun hlive => ?_⟩
  · simp only [htop] at hloop
    rcases hloop with hloop | hloop <;> cases hloop
  · simp only [htop] at hloop
    cases hloop
  · rcases complete_step hop hok hstep with hnew | hcontent
    · exact Or.inl (Or.inl hnew)
    rcases h.carried hlive with (hd | hforce | hloop) | ⟨v, hnewest, hshows⟩
    · exact Or.inl (Or.inl (hdamage hd))
    · exact Or.inl (Or.inr (Or.inl hforce))
    · exact Or.inl (Or.inr (Or.inr hloop))
    · exact Or.inr ⟨v, (newest_congr rfl rfl rfl).trans hnewest, hshows.congr hw hh hcontent⟩

omit [DecidableEq ρ] in
theorem current_resize {width height : ℕ} {state : Compositor.State ι} (h : Current c s)
    (htop : s.loop = .top) (hstep : s.screen.state.step (.resizeOutput width height) = some state) :
    Current c { s with screen := { s.screen with state }, loop := .resizing width height } := by
  obtain ⟨-, -, -, hdamage, -⟩ := Compositor.State.step_resize hstep
  refine ⟨Compositor.sane_step h.sane hstep, fun hsw _ => ?_, fun _ hloop => ?_, nofun,
    fun _ => Or.inl (Or.inl hdamage)⟩
  · exact Compositor.tracks_step h.sane (Compositor.complete_resize s.screen.state) nofun hstep
      (h.canvas hsw (by rw [htop]; rintro (h | h) <;> cases h))
  · rcases hloop with hloop | hloop <;> cases hloop

omit [DecidableEq ι] [DecidableEq ρ] in
/-- A capture begins: the damage becomes the stashed region. -/
theorem current_tick {next : Loop} (h : Current c s) (htop : s.loop = .top)
    (hnext : next = .requesting ∨ next = .rendering) :
    Current c { s.tick c with loop := next, forceRender := false } := by
  refine ⟨⟨h.sane.size, h.sane.location, h.sane.buffers⟩, fun _ hloop => absurd hnext hloop,
    fun hsw _ => ?_, fun frame hloop => ?_, fun _ => ?_⟩
  · exact h.canvas hsw (by rw [htop]; rintro (h | h) <;> cases h)
  · rcases hnext with rfl | rfl <;> cases hloop
  · rcases hnext with rfl | rfl
    · exact Or.inl (Or.inr (Or.inr (Or.inl rfl)))
    · exact Or.inl (Or.inr (Or.inr (Or.inr (Or.inl rfl))))

omit [DecidableEq ι] [DecidableEq ρ] in
theorem current_idle (h : Current c s) (htop : s.loop = .top) (hclean : s.screen.state.damage = [])
    (hforce : s.forceRender = false) :
    Current c { s.tick c with loop := .top, forceRender := false } := by
  have hscreen : (s.tick c).screen.state = s.screen.state := by
    show { s.screen.state with damage := [] } = s.screen.state
    rw [← hclean]
  refine ⟨⟨h.sane.size, h.sane.location, h.sane.buffers⟩, fun hsw _ => ?_, fun _ hloop => ?_, nofun,
    fun hlive => ?_⟩
  · show (s.tick c).screen.state.Tracks
    rw [hscreen]
    exact h.canvas hsw (by rw [htop]; rintro (h | h) <;> cases h)
  · rcases hloop with hloop | hloop <;> cases hloop
  · rcases h.carried hlive with (hd | hf | hloop) | ⟨v, hnewest, hshows⟩
    · exact absurd hclean hd
    · rw [hforce] at hf
      cases hf
    · exact absurd hloop (State.not_capturing_top htop)
    · refine Or.inr ⟨v, (newest_congr rfl rfl rfl).trans hnewest, hshows.congr rfl rfl fun i _ => ?_⟩
      rfl

omit [DecidableEq ι] [DecidableEq ρ] in
theorem current_rendered {o : RenderOutcome} {frame : CapturedFrame} {screen : Screen ι}
    (h : Current c s) (hloop : s.loop = .rendering) (hok : Renders c s.screen o)
    (hrender : s.screen.render c o = (some frame, screen)) :
    Current c { s with screen, loop := .sending frame } := by
  obtain ⟨hshows, hsane, htracks⟩ :=
    render_shows h.sane (fun hsw => h.stashed hsw (Or.inr hloop)) hok.2 hrender
  refine ⟨hsane, fun hsw _ => htracks hsw, fun _ hrendering => ?_, fun frame' hsending => ?_,
    fun _ => Or.inl (Or.inr (Or.inr (Or.inr (Or.inr ⟨frame, rfl⟩))))⟩
  · rcases hrendering with hrendering | hrendering <;> cases hrendering
  · cases hsending
    exact hshows

omit [DecidableEq ι] [DecidableEq ρ] in
/-- **The queue takes the frame**, which presents the content from now on. -/
theorem current_accepted {frame : CapturedFrame} (h : Current c s) (hloop : s.loop = .sending frame) :
    Current c { s with frames := s.frames ++ [frame], ticksSinceRender := 0, loop := .top } := by
  refine ⟨h.sane, fun hsw _ => h.canvas hsw ?_, fun _ htop => ?_, nofun,
    fun _ => Or.inr ⟨s.screen.view frame, ?_, h.sending frame hloop⟩⟩
  · rw [hloop]
    rintro (h | h) <;> cases h
  · rcases htop with htop | htop <;> cases htop
  · rw [State.newest, State.inFlight]
    show (match (s.thread.inHand ++ (s.frames ++ [frame])).getLast? with
      | some frame => some (s.screen.view frame)
      | none => s.submitted) = some (s.screen.view frame)
    rw [← List.append_assoc, List.getLast?_append]
    rfl

omit [DecidableEq ι] [DecidableEq ρ] in
/-- **A refused frame** is owed by the damage put back, or is presented
or forced anyhow. -/
theorem current_refused {frame : CapturedFrame} (rects : List Compositor.DamageRect)
    (h : Current c s) (hloop : s.loop = .sending frame)
    (hok : rects ≠ [] ∨ s.forceRender = true ∨ s.Presented c) :
    Current c { s with
      screen := s.screen.readdDamage rects
      ticksSinceRender := s.ticksSinceRender + 1
      loop := .top } := by
  obtain ⟨damage, hscreen, hne, hkeeps⟩ := s.screen.readdDamage_eq rects
  rw [hscreen]
  refine ⟨⟨h.sane.size, h.sane.location, h.sane.buffers⟩, fun hsw _ hlen i hi hd => ?_,
    fun _ htop => ?_, nofun, fun _ => ?_⟩
  · have htracks := h.canvas hsw (by rw [hloop]; rintro (h | h) <;> cases h)
    obtain ⟨hcol, hrow⟩ := Compositor.col_row_lt hi
    exact htracks hlen i hi fun hd' => hd (hkeeps _ _ hcol hrow (Or.inl hd'))
  · rcases htop with htop | htop <;> cases htop
  · rcases hok with hrects | hforce | ⟨v, hnewest, hshows⟩
    · exact Or.inl (Or.inl (hne (Or.inl hrects)))
    · exact Or.inl (Or.inr (Or.inl hforce))
    · refine Or.inr ⟨v, (newest_congr rfl rfl rfl).trans hnewest, hshows.congr rfl rfl fun i _ => ?_⟩
      rfl

/-! ## The encoder thread -/

omit [DecidableEq ι] [DecidableEq ρ] in
/-- A step of the encoder thread that leaves the newest frame alone. -/
theorem Current.ofThread (h : Current c s) (hscreen : s'.screen = s.screen)
    (hloop : s'.loop = s.loop) (hforce : s'.forceRender = s.forceRender)
    (hlive : s'.thread.isExited = false → s.thread.isExited = false)
    (hnewest : s'.newest = s.newest) : Current c s' := by
  refine h.ofRest hscreen hloop fun hlive' => ⟨hlive hlive', ?_⟩
  unfold State.Owed State.Capturing State.Presented
  rw [hscreen, hloop, hforce, hnewest]
  exact id

omit [DecidableEq ι] in
/-- The kept frame of a skip shows what it showed. -/
theorem view_skip (screen : Screen ι) (stale newer : CapturedFrame) :
    screen.view (stale.skip newer) = screen.view newer := by
  cases stale <;> cases newer <;> rfl

omit [DecidableEq ι] [DecidableEq ρ] in
/-- The thread moves on with what it has in hand. -/
theorem Current.move (h : Current c s) {now thread : Thread} {frames : List CapturedFrame}
    {rx : Watch.Receiver} {e : E} (hnow : s.thread = now) (hlive : now.isExited = false)
    (hflight : thread.inHand ++ frames = now.inHand ++ s.frames) :
    Current c { s with thread, frames, resizeRx := rx, videoEncoder := e } :=
  h.ofThread rfl rfl rfl (fun _ => by rw [hnow]; exact hlive)
    (newest_congr (by rw [State.inFlight, hflight, State.inFlight, hnow]) rfl rfl)

omit [DecidableEq ι] [DecidableEq ρ] in
theorem current_drained {width height : ℕ} {frame : CapturedFrame} {frames : List CapturedFrame}
    (h : Current c s) (hthread : s.thread = .draining width height)
    (hframes : s.frames = frame :: frames) (hok : frames = [] → s.Owed ∨ s.Submitted c) :
    Current c { s with frames } := by
  refine h.ofRest rfl rfl fun _ => ⟨by rw [hthread]; rfl, fun hcarried => ?_⟩
  cases frames with
  | nil =>
    -- the last frame queued is gone, and what was submitted is the newest again
    rcases hok rfl with howed | ⟨v, hv, hshows⟩
    · exact Or.inl howed
    · refine Or.inr ⟨v, ?_, hshows⟩
      rw [State.newest, State.inFlight, hthread]
      exact hv
  | cons newer frames =>
    refine hcarried.imp_right ?_
    rintro ⟨v, hv, hshows⟩
    refine ⟨v, ?_, hshows⟩
    rw [State.newest, State.inFlight, hthread, hframes] at hv
    rw [State.newest, State.inFlight, hthread]
    exact hv

omit [DecidableEq ι] [DecidableEq ρ] in
theorem current_submitted {frame : CapturedFrame} {e : E} {requests : ρ → Request}
    (h : Current c s) (hthread : s.thread = .submitting frame) :
    Current c { s with
      videoEncoder := e
      forceKeyframe := false
      submitted := some (s.screen.view frame)
      requests
      thread := .control } := by
  refine h.ofThread rfl rfl rfl (fun _ => by rw [hthread]; rfl) ?_
  rw [State.newest, State.newest, State.inFlight, State.inFlight, hthread]
  show (match s.frames.getLast? with
    | some frame => some (s.screen.view frame)
    | none => some (s.screen.view frame)) =
    match (frame :: s.frames).getLast? with
    | some frame => some (s.screen.view frame)
    | none => s.submitted
  rw [List.getLast?_cons]
  cases s.frames.getLast? <;> rfl

/-- **A step that drops nothing keeps the content's whereabouts.** -/
theorem current_step (h : Trans c V s a s') (hok : Delivers c s a) (hs : Current c s) :
    Current c s' := by
  cases h with
  | client htop hop hstep => exact current_client hs htop hop hok hstep
  | resize htop hsize hstep => exact current_resize hs htop hstep
  | tickIdle htop hclean hforce => exact current_idle hs htop hclean hforce
  | tickWork htop hwork hnext => exact current_tick hs htop hnext
  | told hloop =>
    refine ⟨hs.sane, fun hsw _ => hs.canvas hsw ?_, fun _ hrendering => ?_, nofun, fun hlive => ?_⟩
    · rw [hloop]
      rintro (h | h) <;> cases h
    · rcases hrendering with h | h <;> cases h
    · rcases hs.carried hlive with (hd | hforce | hcapturing) | hpresented
      · exact Or.inl (Or.inl hd)
      · exact Or.inl (Or.inr (Or.inl hforce))
      · exact absurd hcapturing (State.not_capturing_resizing hloop)
      · exact Or.inr hpresented
  | requested hloop =>
    refine ⟨hs.sane, fun _ hrendering => absurd (Or.inr rfl) hrendering,
      fun hsw _ => hs.stashed hsw (Or.inl hloop), nofun,
      fun _ => Or.inl (Or.inr (Or.inr (Or.inr (Or.inl rfl))))⟩
  | rendered hloop hrender => exact current_rendered hs hloop (hok.1 hloop) hrender
  | notRendered hloop hrender =>
    -- what does not fail hands on a frame
    exact absurd (hok.1 hloop).1 (Screen.render_none hrender).2.1
  | closed hloop hexit =>
    refine ⟨hs.sane, fun hsw _ => hs.canvas hsw ?_, fun _ hrendering => ?_, nofun, fun hlive => ?_⟩
    · rw [hloop]
      rintro (h | h) <;> cases h
    · rcases hrendering with h | h <;> cases h
    · rw [show s.thread.isExited = false from hlive] at hexit
      cases hexit
  | accepted hloop hexit hroom => exact current_accepted hs hloop
  | @refusedCpu o raw hloop hexit hfull =>
    refine current_refused _ hs hloop ?_
    rcases hok.2 _ hloop hexit hfull with ⟨raw', hraw, hd⟩ | hrest
    · cases hraw
      exact Or.inl hd
    · exact Or.inr hrest
  | refusedGpu hloop hexit hfull =>
    have hrest := (hok.2 _ hloop hexit hfull).resolve_left fun ⟨_, hraw, _⟩ => by cases hraw
    exact current_refused [] hs hloop (Or.inr hrest)
  | @control o m rest hthread hcontrol =>
    have hlive : s.thread.isExited = false := by
      rcases hthread with hthread | ⟨frame, hthread⟩ <;> (rw [hthread]; rfl)
    cases m with
    | forceKeyframe => exact hs.ofThread rfl rfl rfl (fun _ => hlive) rfl
    | changeBitrate bitrate => exact hs.ofThread rfl rfl rfl (fun _ => hlive) rfl
  | controlled hthread hcontrol => exact hs.move hthread rfl rfl
  | resized hthread hchanged hvalue => exact hs.move hthread rfl rfl
  | notResized hthread hsame => exact hs.move hthread rfl rfl
  | drained hthread hframes =>
    exact current_drained hs hthread hframes fun hnil => hok _ _ _ hthread (by rw [hframes, hnil])
  | reinitialized hthread hframes hinit => exact hs.move hthread rfl rfl
  | received hthread hframes => exact hs.move hthread rfl hframes.symm
  | @skipped o frame newer frames hthread hframes =>
    refine hs.ofThread rfl rfl rfl (fun _ => by rw [hthread]; rfl) ?_
    rw [State.newest, State.newest, State.inFlight, State.inFlight, hthread, hframes]
    show (match (frame.skip newer :: frames).getLast? with
      | some frame => some (s.screen.view frame)
      | none => s.submitted) =
      match (frame :: newer :: frames).getLast? with
      | some frame => some (s.screen.view frame)
      | none => s.submitted
    rw [List.getLast?_cons, List.getLast?_cons, List.getLast?_cons]
    cases frames.getLast? with
    | some last => rfl
    | none => exact congrArg some (view_skip s.screen frame newer)
  | newest hthread hframes => exact hs.move hthread rfl rfl
  | matched hthread hsize => exact hs.move hthread rfl rfl
  | rebuilt hthread hinit => exact hs.move hthread rfl rfl
  | failed hthread => exact ⟨hs.sane, hs.canvas, hs.stashed, hs.sending, nofun⟩
  | controlledAgain hthread hcontrol => exact hs.move hthread rfl rfl
  | submitted hthread hsubmit => exact current_submitted hs hthread
  | store hr => exact hs.ofRest rfl rfl fun hlive => ⟨hlive, fun _ => Or.inl (Or.inr (Or.inl rfl))⟩
  | send hr hroom => exact hs.ofThread rfl rfl rfl id rfl
  | changeBitrate => exact hs.ofThread rfl rfl rfl id rfl

omit [DecidableEq ρ] in
theorem current_started (h : Started V s) : Current c s := by
  have hdamage : s.screen.state.damage ≠ [] := by
    rw [h.state.2.2.2.1]
    exact List.cons_ne_nil _ _
  refine ⟨h.sane, fun _ _ => (Compositor.tracks_of_run (.start h.state)).2, fun _ hloop => ?_,
    fun frame hloop => ?_, fun _ => Or.inl (Or.inl hdamage)⟩
  · rw [h.loop] at hloop
    rcases hloop with hloop | hloop <;> cases hloop
  · rw [h.loop] at hloop
    cases hloop

theorem current_of_run (hr : (machine ι ρ c V).Reach (Delivers c) s) : Current c s :=
  hr.invariant (fun _ => current_started) fun _ _ _ hok hstep =>
    current_step (trans_of_step hstep) hok

/-- **No final content is lost where nothing drops it.** In every run whose
steps all deliver, whatever the backend, every quiescent state's last
submitted frame shows the content at the current size. -/
theorem last_content_submitted (hr : (machine ι ρ c V).Reach (Delivers c) s)
    (hq : s.Quiescent) : s.Submitted c := by
  have hcurrent : Current c s := current_of_run hr
  rcases hcurrent.carried (by rw [hq.thread]; rfl) with (hd | hforce | hloop) | ⟨v, hnewest, hshows⟩
  · exact absurd hq.damage hd
  · rw [hq.forceRender] at hforce
    cases hforce
  · exact absurd hloop (State.not_capturing_top hq.loop)
  · refine ⟨v, ?_, hshows⟩
    rw [State.newest, State.inFlight, hq.thread, hq.frames] at hnewest
    exact hnewest

end Runs

section Runs

/-- What a complete operation of a client delivers. -/
theorem delivers_client {s : State Unit Unit X264Encoder} {op : Compositor.Op Unit}
    (h : op.Complete s.screen.state) : Delivers (Ω := Ffmpeg) someConfig s (.client op) := h

theorem someBuffer_rowsFit (third : UInt8) : (someBuffer third).RowsFit := by
  show 4 * 2 ≤ 8
  omega

/-- A commit of the small buffer that reports what it changes. -/
theorem delivers_commit {s : State Unit Unit X264Encoder} {third : UInt8} {reported : List Rect}
    (hr : (machine Unit Unit someConfig (x264 someScaler)).Reach (Delivers someConfig) s)
    (hw : s.screen.state.width = 2) (hh : s.screen.state.height = 4)
    (hfit : s.screen.state.RowsFit)
    (hhonest : (Compositor.Op.commit () (some (someBuffer third)) reported).Honest s.screen.state) :
    Delivers (Ω := Ffmpeg) someConfig s
      (.client (.commit () (some (someBuffer third)) reported)) := by
  refine delivers_client (Compositor.complete_of_honest (current_of_run hr).sane hhonest
    fun x y => ⟨fun hspill => ?_, Compositor.Op.not_skips hfit ?_⟩)
  · obtain ⟨⟨⟨hx, hy⟩, -⟩, hout⟩ := hspill
    rw [hw] at hx
    rw [hh] at hy
    exact hout _ rfl ⟨hx, hy⟩
  · intro b hb
    cases hb
    exact someBuffer_rowsFit third

/-- A frame of windows whose rows fit. -/
theorem delivers_render {s : State Unit Unit X264Encoder}
    (hr : (machine Unit Unit someConfig (x264 someScaler)).Reach (Delivers someConfig) s)
    (hloop : s.loop = .rendering) (hfit : s.screen.state.RowsFit) :
    Delivers (Ω := Ffmpeg) someConfig s (.loop .drawn) := by
  refine ⟨fun _ => ⟨rfl, fun _ => ?_⟩, fun frame hsending => ?_⟩
  · have hsane := (current_of_run hr).sane
    exact Compositor.State.RowsFit.respects (s := { s.screen.state with damage := s.screen.repaintRegion })
      hfit ⟨hsane.size, hsane.location, hsane.buffers⟩
  · rw [hloop] at hsending
    cases hsending

/-- A frame the queue has room for. -/
theorem delivers_send {s : State Unit Unit X264Encoder} {frame : CapturedFrame}
    {outcome : RenderOutcome} (hloop : s.loop = .sending frame)
    (hroom : s.frames.length < frameCapacity) :
    Delivers (Ω := Ffmpeg) someConfig s (.loop outcome) := by
  refine ⟨fun hrendering => ?_, fun _ _ _ hfull => absurd hroom (not_lt.2 hfull)⟩
  rw [hloop] at hrendering
  cases hrendering

/-- The encoder thread drains the queue at a resize. -/
def Thread.isDraining : Thread → Bool
  | .draining _ _ => true
  | _ => false

/-- Any other step of the encoder thread. -/
theorem delivers_encoder {s : State Unit Unit X264Encoder} {ffmpeg : Ffmpeg}
    (hthread : s.thread.isDraining = false) : Delivers someConfig s (.encoder ffmpeg) := by
  intro width height frame hdraining
  rw [hdraining] at hthread
  cases hthread

/-- The window's first commit reports all of its buffer, the second one the
row it changes: both frames are submitted, and then there is nothing to
do. -/
theorem last_content_submitted_second : ∃ s : State Unit Unit X264Encoder,
    s.screen.state.buffers () = some (someBuffer 0) ∧ s.Quiescent ∧ s.Submitted someConfig := by
  have hstart : (machine Unit Unit someConfig (x264 someScaler)).Reach (Delivers someConfig)
      (start 2 4 someEncoder) := .start someStarted
  have hmapped := hstart.next (a := .client (.newToplevel ()))
    (delivers_client (Compositor.complete_newToplevel _ _)) rfl
  have hcommitted := hmapped.next (a := .client (.commit () (some (someBuffer 255)) [⟨0, 0, 2, 4⟩]))
    (delivers_commit hmapped rfl rfl (fun _ _ hb => by cases hb) fun x y hx hy _ => by
      have hx' : x < 2 := hx
      have hy' : y < 4 := hy
      refine ⟨_, List.mem_singleton_self _, ?_⟩
      simp only [Compositor.Rect.Has]
      omega) rfl
  have hrendering := hcommitted.run [(.tick : Action Unit Unit Ffmpeg)] ⟨trivial, _, rfl, rfl⟩
  have hsending := hrendering.next (a := .loop .drawn) (delivers_render hrendering rfl fun _ b hb => by
    cases hb
    exact someBuffer_rowsFit 255) rfl
  have hqueued := hsending.next (a := .loop .drawn) (delivers_send rfl (by decide)) rfl
  have hshown := hqueued.run [(.encoder {} : Action Unit Unit Ffmpeg), .encoder {}, .encoder {},
      .encoder {}, .encoder {}, .encoder {}, .encoder {}]
    ⟨delivers_encoder rfl, _, rfl, delivers_encoder rfl, _, rfl, delivers_encoder rfl, _, rfl,
      delivers_encoder rfl, _, rfl, delivers_encoder rfl, _, rfl, delivers_encoder rfl, _, rfl,
      delivers_encoder rfl, _, rfl, rfl⟩
  have hrow : ∀ x < 2, ∀ y < 4, y ≠ 2 → (someBuffer 255).pixel x y = (someBuffer 0).pixel x y := by
    decide
  have hchanged := hshown.next (a := .client (.commit () (some (someBuffer 0)) [⟨0, 2, 2, 1⟩]))
    (delivers_commit hshown rfl rfl (fun _ b hb => by cases hb; exact someBuffer_rowsFit 255)
      fun x y hx hy hne => by
        have hx' : x < 2 := hx
        have hy' : y < 4 := hy
        have hthird : y = 2 := by
          by_contra hother
          exact hne (hrow x hx' y hy' hother)
        refine ⟨_, List.mem_singleton_self _, ?_⟩
        simp only [Compositor.Rect.Has]
        omega) rfl
  have hrendering' := hchanged.run [(.tick : Action Unit Unit Ffmpeg)] ⟨trivial, _, rfl, rfl⟩
  have hsending' := hrendering'.next (a := .loop .drawn) (delivers_render hrendering' rfl fun _ b hb => by
    cases hb
    exact someBuffer_rowsFit 0) rfl
  have hqueued' := hsending'.next (a := .loop .drawn) (delivers_send rfl (by decide)) rfl
  have hdone := hqueued'.run [(.encoder {} : Action Unit Unit Ffmpeg), .encoder {}, .encoder {},
      .encoder {}, .encoder {}, .encoder {}, .encoder {}, .encoder {}, .encoder {}]
    ⟨delivers_encoder rfl, _, rfl, delivers_encoder rfl, _, rfl, delivers_encoder rfl, _, rfl,
      delivers_encoder rfl, _, rfl, delivers_encoder rfl, _, rfl, delivers_encoder rfl, _, rfl,
      delivers_encoder rfl, _, rfl, delivers_encoder rfl, _, rfl, delivers_encoder rfl, _, rfl, rfl⟩
  exact ⟨_, rfl, ⟨rfl, rfl, rfl, rfl, rfl⟩, last_content_submitted hdone ⟨rfl, rfl, rfl, rfl, rfl⟩⟩

/-- A frame rendered right after a resize, and drained as if it were old:
nothing fails, nothing is left to do, and the encoder was never given a
frame. -/
theorem content_lost_at_resize : ¬ ∀ s : State Unit Unit X264Encoder,
    (machine Unit Unit someConfig (x264 someScaler)).Reach (NoFailure (x264 someScaler)) s →
      s.Quiescent → s.Submitted someConfig := by
  intro h
  have hrun : ∃ s : State Unit Unit X264Encoder,
      (machine Unit Unit someConfig (x264 someScaler)).Run (NoFailure (x264 someScaler))
        (start 2 4 someEncoder)
        [.resize 16 16, .loop .drawn, .tick, .loop .drawn, .loop .drawn, .encoder {}, .encoder {},
          .encoder {}, .encoder {}] s ∧ s.Quiescent ∧ s.submitted = none := by
    refine ⟨_, ⟨trivial, _, rfl, nofun, _, rfl, trivial, _, rfl, fun _ => rfl, _, rfl, nofun, _, rfl,
      nofun, _, rfl, nofun, _, rfl, nofun, _, rfl, nofun, _, rfl, rfl⟩, ⟨rfl, rfl, rfl, rfl, rfl⟩, rfl⟩
  obtain ⟨s, hrun, hq, hnone⟩ := hrun
  obtain ⟨v, hv, -⟩ := h s (Machine.Reach.run _ (.start someStarted) hrun) hq
  rw [hnone] at hv
  cases hv

end Runs

end Pipeline

end WaylandWebStream
