import WaylandWebStream.Lib.Amortized
import WaylandWebStream.Pipeline.Content
import WaylandWebStream.Pipeline.Keyframe

/-!
# Settling — from rest, one tick shows everything

Between two ticks the render loop and the encoder thread have a bounded
amount of work: a frame costs eight steps of the thread, whatever becomes
of it. So they come to rest, the loop at its top and the thread waiting
for a frame. A tick made there captures what is owed, the queue has room
for it, and no resize can drop it, because the thread takes it before it
looks for one. Once at rest again the pipeline is quiescent, with the
content submitted and every keyframe request answered
(`settles_in_a_tick`).
-/

namespace WaylandWebStream

namespace Pipeline

open Encoder

variable {ι ρ E Ω : Type*}

/-! ## The work there is -/

/-- What the loop has to do before its top, a frame it hands on included. -/
def Loop.work : Loop → ℕ
  | .top => 0
  | .resizing _ _ => 1
  | .sending _ => 9
  | .rendering => 10
  | .requesting => 12

/-- What the encoder thread has to do before it waits for a frame. -/
def Thread.work : Thread → ℕ
  | .receiving | .exited => 0
  | .draining _ _ => 1
  | .checkResize => 2
  | .control => 3
  | .submitting _ => 4
  | .controlAgain _ => 5
  | .matching _ => 6
  | .skipping _ => 7

/-- A frame queued is as much work as one received, and a message is one step. -/
def State.work (s : State ι ρ E) : ℕ :=
  s.loop.work + s.thread.work + 8 * s.frames.length + s.control.length

/-- What others and the clock bring in. -/
def credit : Action ι ρ Ω → ℕ
  | .loop _ | .encoder _ => 0
  | .client _ | .store _ => 1
  | .resize _ _ | .send _ | .changeBitrate _ => 2
  | .tick => 13

/-- The steps of the loop below its top, and of the encoder thread. -/
def Own : Action ι ρ Ω → Prop
  | .loop _ | .encoder _ => True
  | .client _ | .resize _ _ | .tick | .store _ | .send _ | .changeBitrate _ => False

section Runs

variable [DecidableEq ι] [DecidableEq ρ] {c : Config} {V : VideoEncoder E Ω}
  {s s' : State ι ρ E} {a : Action ι ρ Ω}

omit [DecidableEq ι] [DecidableEq ρ] in
theorem length_pushControl (s : State ι ρ E) (m : EncoderControl) :
    (s.pushControl m).length ≤ s.control.length + 1 := by
  unfold State.pushControl
  split
  · exact Nat.le_succ _
  · rw [List.length_append, List.length_singleton]

/-- **A step is paid for.** -/
theorem work_step (h : Trans c V s a s') : s'.work + 1 ≤ s.work + credit a := by
  cases h with
  | client htop hop hstep => exact Nat.le_refl _
  | resize htop hsize hstep => simp only [State.work, credit, Loop.work, htop]; omega
  | tickIdle htop hclean hforce =>
    simp only [State.work, State.tick, credit, Loop.work, htop]
    omega
  | tickWork htop hwork hnext =>
    rcases hnext with rfl | rfl <;>
      simp only [State.work, State.tick, credit, Loop.work, htop] <;> omega
  | told hloop => simp only [State.work, credit, Loop.work, hloop]; omega
  | requested hloop =>
    have hpush := length_pushControl s .forceKeyframe
    simp only [State.work, credit, Loop.work, hloop]
    omega
  | rendered hloop hrender => simp only [State.work, credit, Loop.work, hloop]; omega
  | notRendered hloop hrender => simp only [State.work, credit, Loop.work, hloop]; omega
  | closed hloop hexit => simp only [State.work, credit, Loop.work, hloop]; omega
  | accepted hloop hexit hroom =>
    simp only [State.work, credit, Loop.work, hloop, List.length_append, List.length_singleton]
    omega
  | refusedCpu hloop hexit hfull => simp only [State.work, credit, Loop.work, hloop]; omega
  | refusedGpu hloop hexit hfull => simp only [State.work, credit, Loop.work, hloop]; omega
  | @control o m rest hthread hcontrol =>
    cases m <;>
      simp only [State.work, State.applyControl, credit, hcontrol, List.length_cons] <;> omega
  | controlled hthread hcontrol => simp only [State.work, credit, Thread.work, hthread]; omega
  | resized hthread hchanged hvalue => simp only [State.work, credit, Thread.work, hthread]; omega
  | notResized hthread hsame => simp only [State.work, credit, Thread.work, hthread]; omega
  | drained hthread hframes => simp only [State.work, credit, hframes, List.length_cons]; omega
  | reinitialized hthread hframes hinit => simp only [State.work, credit, Thread.work, hthread]; omega
  | received hthread hframes =>
    simp only [State.work, credit, Thread.work, hthread, hframes, List.length_cons]
    omega
  | skipped hthread hframes =>
    simp only [State.work, credit, Thread.work, hthread, hframes, List.length_cons]
    omega
  | newest hthread hframes => simp only [State.work, credit, Thread.work, hthread]; omega
  | matched hthread hsize => simp only [State.work, credit, Thread.work, hthread]; omega
  | rebuilt hthread hinit => simp only [State.work, credit, Thread.work, hthread]; omega
  | failed hthread =>
    rcases hthread with ⟨width, height, hthread⟩ | ⟨frame, hthread⟩ <;>
      simp only [State.work, credit, Thread.work, hthread] <;> omega
  | controlledAgain hthread hcontrol => simp only [State.work, credit, Thread.work, hthread]; omega
  | submitted hthread hsubmit => simp only [State.work, credit, Thread.work, hthread]; omega
  | store hr => exact Nat.le_refl _
  | send hr hroom =>
    have hpush := length_pushControl s .forceKeyframe
    simp only [State.work, credit]
    omega
  | @changeBitrate bitrate =>
    have hpush := length_pushControl s (.changeBitrate bitrate)
    simp only [State.work, credit]
    omega

theorem potential :
    (machine ι ρ c V).Potential (fun _ => True) State.work credit where
  keeps _ _ _ _ _ := trivial
  spends _ _ _ _ hstep := work_step (trans_of_step hstep)

/-! ## At rest -/

omit [DecidableEq ι] [DecidableEq ρ] in
theorem stepLoop_eq_none_iff (o : RenderOutcome) : s.stepLoop c o = none ↔ s.loop = .top := by
  unfold State.stepLoop
  cases hloop : s.loop with
  | sending frame => dsimp only; split <;> (try split) <;> simp
  | rendering => dsimp only; split <;> simp
  | top => simp
  | resizing width height => simp
  | requesting => simp

omit [DecidableEq ι] [DecidableEq ρ] in
theorem stepEncoder_eq_none_iff (o : Ω) : s.stepEncoder V o = none ↔
    s.thread = .exited ∨ s.thread = .receiving ∧ s.frames = [] := by
  unfold State.stepEncoder
  cases hthread : s.thread with
  | exited => simp
  | receiving => cases hframes : s.frames <;> simp
  | control => cases hcontrol : s.control <;> simp
  | controlAgain frame => cases hcontrol : s.control <;> simp
  | draining width height => cases hframes : s.frames <;> simp
  | skipping frame => cases hframes : s.frames <;> simp
  | checkResize => dsimp only; split <;> (try split) <;> simp
  | matching frame => dsimp only; split <;> simp
  | submitting frame => simp

/-- **At rest** the loop is at its top and the thread waits for a frame. -/
theorem atRest_iff [Inhabited Ω] : (machine ι ρ c V).AtRest Own s ↔
    s.loop = .top ∧ (s.thread = .exited ∨ s.thread = .receiving ∧ s.frames = []) := by
  constructor
  · intro h
    exact ⟨(stepLoop_eq_none_iff (c := c) .drawn).1 (h (.loop .drawn) trivial),
      (stepEncoder_eq_none_iff (V := V) default).1 (h (.encoder default) trivial)⟩
  · rintro ⟨hloop, hthread⟩ a hown
    cases a with
    | loop o => exact (stepLoop_eq_none_iff o).2 hloop
    | encoder o => exact (stepEncoder_eq_none_iff o).2 hthread
    | client | resize | tick | store | send | changeBitrate => exact hown.elim

/-! ## One frame -/

/-- Where the one frame of a tick is: to be captured, queued, or with the
encoder thread. -/
inductive State.Carrying (s : State ι ρ E) : Prop
  | capturing (hcapturing : s.Capturing) (hthread : s.thread = .receiving) (hframes : s.frames = [])
  | queued (frame : CapturedFrame) (hloop : s.loop = .top) (hthread : s.thread = .receiving)
      (hframes : s.frames = [frame])
  | handed (hloop : s.loop = .top) (hframes : s.frames = [])

/-- **What is kept after a tick made at rest**: nothing new is owed, and
there is one frame at most. -/
structure State.Clearing (s : State ι ρ E) : Prop where
  damage : s.screen.state.damage = []
  forceRender : s.forceRender = false
  carrying : s.Carrying

/-- A step of the pipeline itself, in which nothing fails, and with a
software frame to be rendered whose clips paint no row that a full repaint
skips. -/
def Works (c : Config) (V : VideoEncoder E Ω) (s : State ι ρ E) (a : Action ι ρ Ω) : Prop :=
  Own a ∧ NoFailure V s a ∧ (s.loop = .rendering → c.backend = .sw → s.screen.renderer.Respects)

omit [DecidableEq ι] [DecidableEq ρ] in
/-- A tick made at rest. -/
theorem clearing_tick (hthread : s.thread = .receiving) (hframes : s.frames = []) :
    (s.tick c).Clearing := by
  refine ⟨rfl, rfl, ?_⟩
  unfold State.tick
  dsimp only
  split
  · split
    · exact .capturing (.inl rfl) hthread hframes
    · exact .capturing (.inr (.inl rfl)) hthread hframes
  · exact .handed rfl hframes

omit [DecidableEq ι] [DecidableEq ρ] in
/-- Rendering damages nothing. -/
theorem render_damage {frame : CapturedFrame} {screen : Screen ι} {o : RenderOutcome}
    (h : s.screen.render c o = (some frame, screen)) :
    screen.state.damage = s.screen.state.damage := by
  unfold Screen.render at h
  cases hbackend : c.backend with
  | sw =>
    rw [hbackend] at h
    cases h
    rfl
  | gl produceGpuFrames =>
    rw [hbackend] at h
    cases o <;> cases h
    rfl

/-- The loop's part: the frame is captured and queued. -/
theorem State.Clearing.loop {o : RenderOutcome} (h : s.Clearing) (htop : s.loop ≠ .top)
    (hok : s.loop = .rendering → o = .drawn) (hstep : Trans c V s (.loop o) s') :
    s'.Clearing := by
  obtain ⟨hcapturing, hthread, hframes⟩ :
      s.Capturing ∧ s.thread = .receiving ∧ s.frames = [] := by
    cases h.carrying with
    | capturing hloop hthread hframes => exact ⟨hloop, hthread, hframes⟩
    | queued frame hloop hthread hframes => exact absurd hloop htop
    | handed hloop hframes => exact absurd hloop htop
  cases hstep with
  | told hloop => exact absurd hcapturing (not_capturing_resizing hloop)
  | requested hloop =>
    exact ⟨h.damage, h.forceRender, .capturing (.inr (.inl rfl)) hthread hframes⟩
  | rendered hloop hrender =>
    exact ⟨(render_damage hrender).trans h.damage, h.forceRender,
      .capturing (.inr (.inr ⟨_, rfl⟩)) hthread hframes⟩
  | notRendered hloop hrender => exact absurd (hok hloop) (Screen.render_none hrender).2.1
  | closed hloop hexit =>
    rw [hthread] at hexit
    cases hexit
  | accepted hloop hexit hroom =>
    exact ⟨h.damage, h.forceRender, .queued _ rfl hthread (by rw [hframes]; rfl)⟩
  | refusedCpu hloop hexit hfull =>
    rw [hframes] at hfull
    exact absurd hfull (by decide)
  | refusedGpu hloop hexit hfull =>
    rw [hframes] at hfull
    exact absurd hfull (by decide)

omit [DecidableEq ι] [DecidableEq ρ] in
/-- A thread that does not wait has had its frame, or there is none. -/
theorem State.Carrying.handed_of (h : s.Carrying) (hthread : s.thread ≠ .receiving) :
    s.loop = .top ∧ s.frames = [] := by
  cases h with
  | capturing hloop hwaits hframes => exact absurd hwaits hthread
  | queued frame hloop hwaits hframes => exact absurd hwaits hthread
  | handed hloop hframes => exact ⟨hloop, hframes⟩

/-- The thread's part: it takes the frame, and then there is none. -/
theorem State.Clearing.encoder {o : Ω} (h : s.Clearing) (hstep : Trans c V s (.encoder o) s') :
    s'.Clearing := by
  have hhanded : s.thread ≠ .receiving → s.loop = .top ∧ s.frames = [] := h.carrying.handed_of
  cases hstep with
  | @control o m rest hthread hcontrol =>
    obtain ⟨hloop, hframes⟩ := hhanded (by
      rcases hthread with ht | ⟨_, ht⟩ <;> rw [ht] <;> intro h <;> cases h)
    cases m <;> exact ⟨h.damage, h.forceRender, .handed hloop hframes⟩
  | controlled hthread hcontrol | resized hthread hchanged hvalue | notResized hthread hsame
  | reinitialized hthread hempty hinit | newest hthread hempty | matched hthread hsize
  | rebuilt hthread hinit | controlledAgain hthread hcontrol | submitted hthread hsubmit =>
    obtain ⟨hloop, hframes⟩ := hhanded (by rw [hthread]; intro h; cases h)
    exact ⟨h.damage, h.forceRender, .handed hloop hframes⟩
  | drained hthread hmore | skipped hthread hmore =>
    obtain ⟨-, hframes⟩ := hhanded (by rw [hthread]; intro h; cases h)
    exact absurd (hmore.symm.trans hframes) (List.cons_ne_nil _ _)
  | received hthread hmore =>
    cases h.carrying with
    | capturing hloop hwaits hframes =>
      exact absurd (hmore.symm.trans hframes) (List.cons_ne_nil _ _)
    | queued frame hloop hwaits hframes =>
      rw [hframes] at hmore
      obtain ⟨-, rfl⟩ := List.cons.inj hmore
      exact ⟨h.damage, h.forceRender, .handed hloop rfl⟩
    | handed hloop hframes => exact absurd (hmore.symm.trans hframes) (List.cons_ne_nil _ _)
  | failed hthread =>
    obtain ⟨hloop, hframes⟩ := hhanded
      (by rcases hthread with ⟨_, _, ht⟩ | ⟨_, ht⟩ <;> rw [ht] <;> intro h <;> cases h)
    exact ⟨h.damage, h.forceRender, .handed hloop hframes⟩

/-- **A step that works keeps it.** -/
theorem State.Clearing.step (h : s.Clearing) (hok : Works c V s a) (hstep : s.step c V a = some s') :
    s'.Clearing := by
  obtain ⟨hown, hok, -⟩ := hok
  cases a with
  | loop o =>
    have htop : s.loop ≠ .top := by
      intro htop
      have hnone : s.step c V (.loop o) = none := (stepLoop_eq_none_iff o).2 htop
      rw [hnone] at hstep
      cases hstep
    exact h.loop htop hok (trans_of_step hstep)
  | encoder o => exact h.encoder (trans_of_step hstep)
  | client | resize | tick | store | send | changeBitrate => exact hown.elim

omit [DecidableEq ρ] in
/-- And drops nothing: no queue is full, and none is drained. -/
theorem State.Clearing.delivers (h : s.Clearing) (hok : Works c V s a) :
    Delivers c s a ∧ Carries c V s a := by
  obtain ⟨hown, hok, hrespects⟩ := hok
  have hdrained : ∀ width height frame, s.thread = .draining width height →
      s.frames ≠ [frame] := by
    intro width height frame hthread hframes
    have hempty := (h.carrying.handed_of (by rw [hthread]; intro h; cases h)).2
    exact absurd (hframes.symm.trans hempty) (List.cons_ne_nil _ _)
  cases a with
  | loop o =>
    refine ⟨⟨fun hloop => ⟨hok hloop, hrespects hloop⟩, fun frame hloop _ hfull => ?_⟩,
      fun hloop => .inr (.inl (hok hloop))⟩
    have hempty : s.frames = [] := by
      cases h.carrying with
      | capturing _ hthread hframes => exact hframes
      | queued frame htop _ _ => exact absurd (hloop.symm.trans htop) (Loop.noConfusion ·)
      | handed _ hframes => exact hframes
    rw [hempty] at hfull
    exact absurd hfull (by decide)
  | encoder o =>
    refine ⟨fun width height frame hthread hframes => ?_,
      fun width height frame hthread hframes => ?_, fun frame hthread => .inl (hok frame hthread)⟩
    · exact absurd hframes (hdrained width height frame hthread)
    · exact absurd hframes (hdrained width height frame hthread)
  | client | resize | tick | store | send | changeBitrate => exact hown.elim

/-- The run lemma: what works after the tick drops nothing. -/
theorem State.Clearing.run {acts : List (Action ι ρ Ω)} (h : s.Clearing)
    (hrun : (machine ι ρ c V).Run (Works c V) s acts s') :
    s'.Clearing ∧
      (machine ι ρ c V).Run (fun s a => Delivers c s a ∧ Carries c V s a) s acts s' := by
  induction acts generalizing s with
  | nil =>
    obtain rfl : s = s' := hrun
    exact ⟨h, rfl⟩
  | cons a acts ih =>
    obtain ⟨hok, t, ht, hrun⟩ := hrun
    obtain ⟨hclearing, hrest⟩ := ih (h.step hok ht) hrun
    exact ⟨hclearing, h.delivers hok, t, ht, hrest⟩

/-! ## From rest to rest -/

theorem sum_credit_of_run {acts : List (Action ι ρ Ω)}
    (hrun : (machine ι ρ c V).Run (Works c V) s acts s') : (acts.map credit).sum = 0 := by
  induction acts generalizing s with
  | nil => rfl
  | cons a acts ih =>
    obtain ⟨⟨hown, -, -⟩, t, -, hrun⟩ := hrun
    rw [List.map_cons, List.sum_cons, ih hrun]
    cases a with
    | loop | encoder => rfl
    | client | resize | tick | store | send | changeBitrate => exact hown.elim

omit [DecidableEq ι] [DecidableEq ρ] in
/-- What is presented and no longer on its way was submitted. -/
theorem Current.submitted (h : Current c s) (hq : s.Quiescent) : s.Submitted c := by
  rcases h.carried (by rw [hq.thread]; rfl) with (hd | hforce | hcapturing) | ⟨v, hnewest, hshows⟩
  · exact absurd hq.damage hd
  · exact absurd (hforce.symm.trans hq.forceRender) Bool.noConfusion
  · exact absurd hcapturing (State.not_capturing_top hq.loop)
  · rw [State.newest, State.inFlight, hq.thread, hq.frames] at hnewest
    exact ⟨v, hnewest, hshows⟩

omit [DecidableEq ι] [DecidableEq ρ] in
/-- Where no frame is to come, no request is open. -/
theorem State.Served.answered (h : s.Served) (hq : s.Quiescent) (r : ρ) : s.requests r ≠ .sent := by
  intro hsent
  obtain ⟨-, hcoming⟩ := h (by rw [hq.thread]; rfl) ⟨r, hsent⟩
  rcases hcoming with (hd | hforce | hcapturing) | (hframes | ⟨frame, ht⟩) | ⟨⟨frame, ht⟩, -⟩
  · exact hd hq.damage
  · exact absurd (hforce.symm.trans hq.forceRender) Bool.noConfusion
  · exact State.not_capturing_top hq.loop hcapturing
  · exact hframes hq.frames
  · rw [hq.thread] at ht
    rcases ht with ht | ht | ht <;> cases ht
  · rw [hq.thread] at ht
    cases ht

/-- **The pipeline settles.** However its parties take their turns, a run is
no longer than the work there was and what it was given. After a run that
dropped nothing, a tick made at rest is followed by at most twelve steps,
and one for each control message. Where they end, with the encoder thread
alive and nothing failed in between, the pipeline is quiescent, the last
frame submitted shows the content, and no keyframe request is left open. -/
theorem settles_in_a_tick [Inhabited Ω]
    (hforced : ∀ e frame o e' packets, V.submit e frame true o = (e', some packets) →
      ∃ p ∈ packets, p.isKeyframe = true) :
    (∀ (s s' : State ι ρ E) acts, (machine ι ρ c V).exec s acts = some s' →
      acts.length + s'.work ≤ s.work + (acts.map credit).sum) ∧
    ∀ s t s' acts,
      (machine ι ρ c V).Reach (fun s a => Delivers c s a ∧ Carries c V s a) s →
      (machine ι ρ c V).AtRest Own s → s.thread ≠ .exited →
      (machine ι ρ c V).step s .tick = some t → (machine ι ρ c V).Run (Works c V) t acts s' →
      acts.length ≤ 12 + s.control.length ∧
        ((machine ι ρ c V).AtRest Own s' → s'.thread ≠ .exited →
          s'.Quiescent ∧ s'.Submitted c ∧ ∀ r, s'.requests r ≠ .sent) := by
  refine ⟨fun s s' acts hexec => potential.length_le trivial hexec, ?_⟩
  intro s t s' acts hreach hrest hlive htick hrun
  obtain ⟨hloop, hwaits⟩ := atRest_iff.1 hrest
  obtain ⟨hthread, hframes⟩ := hwaits.resolve_left hlive
  have hdone : (machine ι ρ c V).Reach (fun s a => Delivers c s a ∧ Carries c V s a) t :=
    hreach.next (a := .tick) ⟨trivial, trivial⟩ htick
  have hclearing : t.Clearing := by
    have heq : s.step c V .tick = some (s.tick c) := by simp only [State.step, hloop]
    obtain rfl := Option.some.inj (heq.symm.trans htick)
    exact clearing_tick hthread hframes
  refine ⟨?_, fun hrest' hlive' => ?_⟩
  · have hticked := potential.spends s .tick t trivial htick
    have hspent := potential.length_le trivial hrun.exec
    have hwork : s.work = s.control.length := by
      simp [State.work, Loop.work, Thread.work, hloop, hthread, hframes]
    rw [sum_credit_of_run hrun] at hspent
    simp only [credit] at hticked
    omega
  · obtain ⟨hcleared, hdelivered⟩ := hclearing.run hrun
    have hreached := hdone.run _ hdelivered
    obtain ⟨hloop', hwaits'⟩ := atRest_iff.1 hrest'
    obtain ⟨hthread', hframes'⟩ := hwaits'.resolve_left hlive'
    have hq : s'.Quiescent :=
      ⟨hcleared.damage, hcleared.forceRender, hframes', hthread', hloop'⟩
    have hcurrent : Current c s' := current_of_run (hreached.mono fun _ _ hok => hok.1)
    have hserved : s'.Served := by
      refine hreached.invariant (fun u hu _ hasking => ?_)
        fun _ _ _ hok hstep => served_step hforced (trans_of_step hstep) hok.2
      obtain ⟨r, hr⟩ := hasking
      rw [hu.requests] at hr
      cases hr
    exact ⟨hq, hcurrent.submitted hq, hserved.answered hq⟩

/-- Everything succeeds. -/
instance : Inhabited Ffmpeg := ⟨{}⟩

/-- The first frame of a small output, and a request made before it. -/
theorem settles_in_a_tick_first : ∃ s : State Unit Unit X264Encoder,
    s.Quiescent ∧ s.Submitted someConfig ∧ s.requests () = .answered := by
  have hrest : ∃ s : State Unit Unit X264Encoder,
      (machine Unit Unit someConfig (x264 someScaler)).Run
        (fun s a => Delivers someConfig s a ∧ Carries someConfig (x264 someScaler) s a)
        (start 2 4 someEncoder) [.encoder {}, .encoder {}, .store (), .send ()] s ∧
      (machine Unit Unit someConfig (x264 someScaler)).AtRest Own s ∧ s.thread ≠ .exited ∧
      ∃ t, (machine Unit Unit someConfig (x264 someScaler)).step s .tick = some t ∧
        ∃ s', (machine Unit Unit someConfig (x264 someScaler)).Run
          (Works someConfig (x264 someScaler)) t
          ([.loop .drawn, .loop .drawn] ++ List.replicate 8 (.encoder {})) s' ∧
          (machine Unit Unit someConfig (x264 someScaler)).AtRest Own s' ∧ s'.thread ≠ .exited ∧
          s'.requests () = .answered := by
    refine ⟨_, ⟨⟨nofun, ⟨nofun, nofun⟩⟩, _, rfl, ⟨nofun, ⟨nofun, nofun⟩⟩, _, rfl,
      ⟨trivial, trivial⟩, _, rfl, ⟨trivial, .inl (.inr (.inl rfl))⟩, _, rfl, rfl⟩,
      atRest_iff.2 ⟨rfl, .inr ⟨rfl, rfl⟩⟩, nofun, _, rfl, _,
      ⟨⟨trivial, fun _ => rfl, fun _ _ _ _ win hwin => ?_⟩,
      _, rfl, ⟨trivial, nofun, nofun⟩, _, rfl, ⟨trivial, nofun, nofun⟩, _, rfl,
      ⟨trivial, nofun, nofun⟩, _, rfl, ⟨trivial, nofun, nofun⟩, _, rfl,
      ⟨trivial, nofun, nofun⟩, _, rfl, ⟨trivial, nofun, nofun⟩, _, rfl,
      ⟨trivial, fun _ h => ?_, nofun⟩, _, rfl, ⟨trivial, nofun, nofun⟩, _, rfl,
      ⟨trivial, nofun, nofun⟩, _, rfl, rfl⟩,
      atRest_iff.2 ⟨rfl, .inr ⟨rfl, rfl⟩⟩, nofun, rfl⟩
    · cases hwin
    · cases h
      nofun
  obtain ⟨s, hrun, hrest, hlive, t, htick, s', hworks, hrest', hlive', hanswered⟩ := hrest
  have hreach := Machine.Reach.run _ (.start someStarted) hrun
  obtain ⟨-, hq⟩ := ((settles_in_a_tick (x264_forced someScaler)).2 s t s' _ hreach hrest hlive
    htick hworks)
  obtain ⟨hq, hsubmitted, -⟩ := hq hrest' hlive'
  exact ⟨s', hq, hsubmitted, hanswered⟩

end Runs

end Pipeline

end WaylandWebStream
