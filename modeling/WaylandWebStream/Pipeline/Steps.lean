import WaylandWebStream.Pipeline.Model

/-!
# The pipeline's transitions

The step function as a relation, one constructor for each way a step can
go, with what it asks of the state before and what the state after is.
Every invariant of the pipeline is a case analysis over it.
-/

namespace WaylandWebStream

namespace Pipeline

open Encoder

variable {ι ρ E Ω : Type*}

/-- **Rows put back are damaged**, what was damaged stays so, and nothing
else of the screen changes. -/
theorem Screen.readdDamage_eq (s : Screen ι) (rects : List Compositor.DamageRect) :
    ∃ damage, s.readdDamage rects = { s with state := { s.state with damage } } ∧
      (rects ≠ [] ∨ s.state.damage ≠ [] → damage ≠ []) ∧
      ∀ x y, x < s.state.width → y < s.state.height →
        Compositor.Damaged s.state.damage x y ∨ Covered rects y → Compositor.Damaged damage x y := by
  unfold Screen.readdDamage
  generalize s.state = st
  induction rects generalizing st with
  | nil =>
    refine ⟨st.damage, rfl, fun h => h.resolve_left fun hne => hne rfl, fun x y _ _ h => ?_⟩
    rcases h with h | ⟨_, hmem, -⟩
    · exact h
    · cases hmem
  | cons r rest ih =>
    obtain ⟨hne, hkeeps⟩ := Compositor.State.addDamage_keeps (s := st) ⟨0, r.y, st.width, r.height⟩
    obtain ⟨damage, hstate, hne', hrest⟩ := ih (st.addDamage ⟨0, r.y, st.width, r.height⟩)
    refine ⟨damage, hstate, fun _ => hne' (Or.inr (Compositor.accumulate_ne_nil _ _ _)),
      fun x y hx hy h => hrest x y hx hy ?_⟩
    rcases h with hd | ⟨r', hmem, hy0, hy1⟩
    · exact Or.inl (hkeeps x y hx hy hd)
    · rcases List.mem_cons.1 hmem with rfl | hmem
      · refine Or.inl (Compositor.accumulate_covers hx hy (Or.inr ?_))
        simp only [Compositor.Rect.Has]
        omega
      · exact Or.inr ⟨r', hmem, hy0, hy1⟩

/-- **A render without a frame** is one of the GL backend that did not
draw, and the compositor's state is as it was. -/
theorem Screen.render_none {c : Config} {o : RenderOutcome} {s screen : Screen ι}
    (h : s.render c o = (none, screen)) :
    c.backend ≠ .sw ∧ o ≠ .drawn ∧ screen.state = s.state := by
  unfold Screen.render at h
  cases hbackend : c.backend with
  | sw =>
    simp only [hbackend] at h
    cases h
  | gl produceGpuFrames =>
    simp only [hbackend] at h
    cases o with
    | drawn => cases h
    | notSized =>
      cases h
      exact ⟨nofun, nofun, rfl⟩
    | notDrawn left =>
      cases h
      exact ⟨nofun, nofun, rfl⟩

/-- At its top the render loop captures nothing. -/
theorem State.not_capturing_top {s : State ι ρ E} (h : s.loop = .top) : ¬ s.Capturing := by
  rw [State.Capturing, h]
  rintro (h | h | ⟨_, h⟩) <;> cases h

/-- Nor while it passes a new size on. -/
theorem State.not_capturing_resizing {s : State ι ρ E} {width height : ℕ}
    (h : s.loop = .resizing width height) : ¬ s.Capturing := by
  rw [State.Capturing, h]
  rintro (h | h | ⟨_, h⟩) <;> cases h

section Trans

variable [DecidableEq ι] [DecidableEq ρ]

/-- **The transitions.** -/
inductive Trans (c : Config) (V : VideoEncoder E Ω) (s : State ι ρ E) :
    Action ι ρ Ω → State ι ρ E → Prop
  | client {op state} (htop : s.loop = .top) (hop : op.isClient = true)
      (hstep : s.screen.state.step op = some state) :
      Trans c V s (.client op) { s with screen := { s.screen with state } }
  | resize {width height state} (htop : s.loop = .top) (hsize : 0 < width ∧ 0 < height)
      (hstep : s.screen.state.step (.resizeOutput width height) = some state) :
      Trans c V s (.resize width height)
        { s with screen := { s.screen with state }, loop := .resizing width height }
  | tickIdle (htop : s.loop = .top) (hclean : s.screen.state.damage = [])
      (hforce : s.forceRender = false) :
      Trans c V s .tick { s.tick c with loop := .top, forceRender := false }
  | tickWork {next} (htop : s.loop = .top)
      (hwork : s.screen.state.damage ≠ [] ∨ s.forceRender = true)
      (hnext : next = .requesting ∨ next = .rendering) :
      Trans c V s .tick { s.tick c with loop := next, forceRender := false }
  | told {o width height} (hloop : s.loop = .resizing width height) :
      Trans c V s (.loop o)
        { s with resizeTx := s.resizeTx.send (some (width, height)), loop := .top }
  | requested {o} (hloop : s.loop = .requesting) :
      Trans c V s (.loop o) { s with
        control := s.pushControl .forceKeyframe, keyframePending := false, loop := .rendering }
  | rendered {o frame screen} (hloop : s.loop = .rendering)
      (hrender : s.screen.render c o = (some frame, screen)) :
      Trans c V s (.loop o) { s with screen, loop := .sending frame }
  | notRendered {o screen} (hloop : s.loop = .rendering)
      (hrender : s.screen.render c o = (none, screen)) :
      Trans c V s (.loop o) { s with screen, loop := .top }
  | closed {o frame} (hloop : s.loop = .sending frame) (hexit : s.thread.isExited = true) :
      Trans c V s (.loop o) { s with ticksSinceRender := s.ticksSinceRender + 1, loop := .top }
  | accepted {o frame} (hloop : s.loop = .sending frame) (hexit : s.thread.isExited = false)
      (hroom : s.frames.length < frameCapacity) :
      Trans c V s (.loop o)
        { s with frames := s.frames ++ [frame], ticksSinceRender := 0, loop := .top }
  | refusedCpu {o raw} (hloop : s.loop = .sending (.cpu raw)) (hexit : s.thread.isExited = false)
      (hfull : frameCapacity ≤ s.frames.length) :
      Trans c V s (.loop o) { s with
        screen := s.screen.readdDamage raw.damage
        ticksSinceRender := s.ticksSinceRender + 1
        loop := .top }
  | refusedGpu {o dmabuf width height} (hloop : s.loop = .sending (.gpu dmabuf width height))
      (hexit : s.thread.isExited = false) (hfull : frameCapacity ≤ s.frames.length) :
      Trans c V s (.loop o) { s with ticksSinceRender := s.ticksSinceRender + 1, loop := .top }
  | control {o m rest} (hthread : s.thread = .control ∨ ∃ frame, s.thread = .controlAgain frame)
      (hcontrol : s.control = m :: rest) :
      Trans c V s (.encoder o) ({ s with control := rest }.applyControl V o m)
  | controlled {o} (hthread : s.thread = .control) (hcontrol : s.control = []) :
      Trans c V s (.encoder o) { s with thread := .checkResize }
  | resized {o width height} (hthread : s.thread = .checkResize)
      (hchanged : s.resizeTx.hasChanged s.resizeRx = true)
      (hvalue : s.resizeTx.value = some (width, height)) :
      Trans c V s (.encoder o)
        { s with resizeRx := s.resizeTx.subscribe, thread := .draining width height }
  | notResized {o resizeRx} (hthread : s.thread = .checkResize)
      (hsame : resizeRx = s.resizeRx ∧ s.resizeTx.hasChanged s.resizeRx = false ∨
        resizeRx = s.resizeTx.subscribe ∧ s.resizeTx.value = none) :
      Trans c V s (.encoder o) { s with resizeRx, thread := .receiving }
  | drained {o width height frame frames} (hthread : s.thread = .draining width height)
      (hframes : s.frames = frame :: frames) :
      Trans c V s (.encoder o) { s with frames }
  | reinitialized {o width height videoEncoder} (hthread : s.thread = .draining width height)
      (hframes : s.frames = [])
      (hinit : V.reinitialize s.videoEncoder width height o = some videoEncoder) :
      Trans c V s (.encoder o) { s with videoEncoder, thread := .receiving }
  | received {o frame frames} (hthread : s.thread = .receiving)
      (hframes : s.frames = frame :: frames) :
      Trans c V s (.encoder o) { s with frames, thread := .skipping frame }
  | skipped {o frame newer frames} (hthread : s.thread = .skipping frame)
      (hframes : s.frames = newer :: frames) :
      Trans c V s (.encoder o) { s with frames, thread := .skipping (frame.skip newer) }
  | newest {o frame} (hthread : s.thread = .skipping frame) (hframes : s.frames = []) :
      Trans c V s (.encoder o) { s with thread := .matching frame }
  | matched {o frame} (hthread : s.thread = .matching frame)
      (hsize : frame.dimensions = (V.width s.videoEncoder, V.height s.videoEncoder)) :
      Trans c V s (.encoder o) { s with thread := .controlAgain frame }
  | rebuilt {o frame videoEncoder} (hthread : s.thread = .matching frame)
      (hinit : V.reinitialize s.videoEncoder frame.dimensions.1 frame.dimensions.2 o =
        some videoEncoder) :
      Trans c V s (.encoder o) { s with videoEncoder, thread := .controlAgain frame }
  | failed {o} (hthread : (∃ width height, s.thread = .draining width height) ∨
      ∃ frame, s.thread = .matching frame) :
      Trans c V s (.encoder o) { s with thread := .exited }
  | controlledAgain {o frame} (hthread : s.thread = .controlAgain frame)
      (hcontrol : s.control = []) :
      Trans c V s (.encoder o) { s with thread := .submitting frame }
  | submitted {o frame videoEncoder packets} (hthread : s.thread = .submitting frame)
      (hsubmit : V.submit s.videoEncoder frame s.forceKeyframe o = (videoEncoder, packets)) :
      Trans c V s (.encoder o) { s with
        videoEncoder
        forceKeyframe := false
        submitted := some (s.screen.view frame)
        requests := s.answer packets
        thread := .control }
  | store {r} (hr : s.requests r = .notMade) :
      Trans c V s (.store r)
        { s with forceRender := true, requests := Function.update s.requests r .stored }
  | send {r} (hr : s.requests r = .stored)
      (hroom : s.thread.isExited = true ∨ s.control.length < controlCapacity) :
      Trans c V s (.send r) { s with
        control := s.pushControl .forceKeyframe, requests := Function.update s.requests r .sent }
  | changeBitrate {bitrate} :
      Trans c V s (.changeBitrate bitrate)
        { s with control := s.pushControl (.changeBitrate bitrate) }

variable {c : Config} {V : VideoEncoder E Ω} {s s' : State ι ρ E} {a : Action ι ρ Ω}

namespace Trans

/-- A capture begins, with or without something to capture. -/
theorem of_tick (htop : s.loop = .top) : Trans c V s .tick (s.tick c) := by
  by_cases hwork : s.screen.state.damage ≠ [] ∨ s.forceRender = true
  · have hwork' : (!s.screen.state.damage.isEmpty || s.forceRender) = true := by
      simpa [List.isEmpty_eq_false_iff] using hwork
    have hloop : (s.tick c).loop = .requesting ∨ (s.tick c).loop = .rendering := by
      simp only [State.tick, hwork', if_true]
      split
      · exact Or.inl rfl
      · exact Or.inr rfl
    exact tickWork htop hwork hloop
  · rw [not_or, ne_eq, not_not, Bool.not_eq_true] at hwork
    have hloop : (s.tick c).loop = .top := by
      simp [State.tick, hwork.1, hwork.2]
    have h := tickIdle (c := c) (V := V) htop hwork.1 hwork.2
    rw [← hloop] at h
    exact h

theorem of_stepLoop {o : RenderOutcome} (h : s.stepLoop c o = some s') :
    Trans c V s (.loop o) s' := by
  unfold State.stepLoop at h
  split at h
  · cases h
  · rename_i hloop
    cases h
    exact told hloop
  · rename_i hloop
    cases h
    exact requested hloop
  · rename_i hloop
    split at h
    · rename_i hrender
      cases h
      exact rendered hloop hrender
    · rename_i hrender
      cases h
      exact notRendered hloop hrender
  · rename_i frame hloop
    split at h
    · rename_i hexit
      cases h
      exact closed hloop hexit
    · rename_i hexit
      rw [Bool.not_eq_true] at hexit
      split at h
      · rename_i hroom
        cases h
        exact accepted hloop hexit hroom
      · rename_i hfull
        cases h
        cases frame with
        | cpu raw => exact refusedCpu hloop hexit (Nat.not_lt.1 hfull)
        | gpu dmabuf width height => exact refusedGpu hloop hexit (Nat.not_lt.1 hfull)

theorem of_stepEncoder {o : Ω} (h : s.stepEncoder V o = some s') :
    Trans c V s (.encoder o) s' := by
  unfold State.stepEncoder at h
  split at h
  · rename_i hthread
    split at h
    · rename_i hcontrol
      cases h
      exact control (Or.inl hthread) hcontrol
    · rename_i hcontrol
      cases h
      exact controlled hthread hcontrol
  · rename_i hthread
    split at h
    · rename_i hchanged
      dsimp only at h
      split at h
      · rename_i hvalue
        cases h
        exact resized hthread hchanged hvalue
      · rename_i hvalue
        cases h
        exact notResized hthread (Or.inr ⟨rfl, hvalue⟩)
    · rename_i hchanged
      cases h
      exact notResized hthread (Or.inl ⟨rfl, Bool.not_eq_true _ ▸ hchanged⟩)
  · rename_i hthread
    split at h
    · rename_i hframes
      cases h
      exact drained hthread hframes
    · rename_i hframes
      cases h
      unfold State.rebuild
      split
      · rename_i hinit
        exact reinitialized hthread hframes hinit
      · exact failed (Or.inl ⟨_, _, hthread⟩)
  · rename_i hthread
    split at h
    · rename_i hframes
      cases h
      exact received hthread hframes
    · cases h
  · rename_i hthread
    split at h
    · rename_i hframes
      cases h
      exact skipped hthread hframes
    · rename_i hframes
      cases h
      exact newest hthread hframes
  · rename_i hthread
    split at h
    · rename_i hsize
      cases h
      exact matched hthread hsize
    · cases h
      unfold State.rebuild
      split
      · rename_i hinit
        exact rebuilt hthread hinit
      · exact failed (Or.inr ⟨_, hthread⟩)
  · rename_i hthread
    split at h
    · rename_i hcontrol
      cases h
      exact control (Or.inr ⟨_, hthread⟩) hcontrol
    · rename_i hcontrol
      cases h
      exact controlledAgain hthread hcontrol
  · rename_i hthread
    cases h
    exact submitted hthread rfl
  · cases h

end Trans

/-- **Every step is a transition.** -/
theorem trans_of_step (h : s.step c V a = some s') : Trans c V s a s' := by
  cases a with
  | client op =>
    simp only [State.step] at h
    split at h
    · rename_i htop
      split at h
      · rename_i hop
        obtain ⟨state, hstep, rfl⟩ := Option.map_eq_some_iff.1 h
        exact .client htop hop hstep
      · cases h
    · cases h
  | resize width height =>
    simp only [State.step] at h
    split at h
    · rename_i htop
      split at h
      · rename_i hsize
        obtain ⟨state, hstep, rfl⟩ := Option.map_eq_some_iff.1 h
        exact .resize htop hsize hstep
      · cases h
    · cases h
  | tick =>
    simp only [State.step] at h
    split at h
    · rename_i htop
      cases h
      exact .of_tick htop
    · cases h
  | loop outcome => exact .of_stepLoop h
  | encoder outcome => exact .of_stepEncoder h
  | store r =>
    simp only [State.step, Option.ite_none_right_eq_some] at h
    obtain ⟨hr, h⟩ := h
    cases h
    exact .store hr
  | send r =>
    simp only [State.step, Option.ite_none_right_eq_some] at h
    obtain ⟨⟨hr, hroom⟩, h⟩ := h
    cases h
    exact .send hr hroom
  | changeBitrate bitrate =>
    simp only [State.step, Option.ite_none_right_eq_some] at h
    obtain ⟨-, h⟩ := h
    cases h
    exact .changeBitrate

end Trans

end Pipeline

end WaylandWebStream
