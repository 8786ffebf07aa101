import WaylandWebStream.Lib.Machine
import Mathlib.Data.Int.Notation

/-!
# The WebGL renderer — frames onto the canvas

`handleFrame` makes the canvas as large as the frame is displayed and has
the renderer draw it. The renderer keeps the size its texture was
allocated for, and the size its viewport was set to, and calls GL for a
change only; a lost context takes all of it along, at any time, and the
renderer learns of that later. It compares coded sizes, and an upload has
the size a frame is displayed at. So the canvas shows the frame, as if
everything were allocated anew each time, exactly as long as two frames
drawn one after the other that are coded alike are displayed alike.
-/

namespace WaylandWebStream

namespace WebGl

/-! ## GL, as far as the renderer uses it -/

/-- A decoded frame. An upload has the size it is displayed at. -/
structure VideoFrame (α : Type) where
  codedWidth : ℕ
  codedHeight : ℕ
  displayWidth : ℕ
  displayHeight : ℕ
  pixel : ℕ → ℕ → α

/-- A texture that has storage. -/
structure Texture (α : Type) where
  width : ℕ
  height : ℕ
  pixel : ℕ → ℕ → α

/-- The storage, with a frame written from the first row and column on. -/
def Texture.overwrite {α : Type} (t : Texture α) (frame : VideoFrame α) : Texture α :=
  { t with
    pixel := fun x y =>
      if x < frame.displayWidth ∧ y < frame.displayHeight then frame.pixel x y else t.pixel x y }

/-- The texture is the frame, pixel by pixel. -/
structure Texture.Holds {α : Type} (t : Texture α) (frame : VideoFrame α) : Prop where
  width : t.width = frame.displayWidth
  height : t.height = frame.displayHeight
  pixel : ∀ x < t.width, ∀ y < t.height, t.pixel x y = frame.pixel x y

/-- What a draw call leaves in the canvas: the texture, stretched over the
viewport. -/
structure Drawn (α : Type) where
  viewport : ℕ × ℕ
  texture : Option (Texture α)

/-- A context. While it is lost, no call does anything. -/
structure Context (α : Type) where
  lost : Bool
  viewport : ℕ × ℕ
  /-- Program, buffer and attributes are set up. -/
  ready : Bool
  /-- The storage of the texture that is bound. -/
  texture : Option (Texture α)
  drawn : Option (Drawn α)
  /-- How many calls were in error. -/
  errors : ℕ

namespace Context

variable {α : Type} (gl : Context α)

/-- A new context of a canvas: its viewport is the whole canvas. -/
def new (size : ℕ × ℕ) : Context α := ⟨false, size, false, none, none, 0⟩

def setViewport (size : ℕ × ℕ) : Context α :=
  if gl.lost then gl else { gl with viewport := size }

/-- Allocates the bound texture's storage anew. -/
def texImage2D (frame : VideoFrame α) : Context α :=
  if gl.lost then gl
  else { gl with texture := some ⟨frame.displayWidth, frame.displayHeight, frame.pixel⟩ }

/-- Updates the storage from its first row and column on; it is an error to
update what is not there. -/
def texSubImage2D (frame : VideoFrame α) : Context α :=
  if gl.lost then gl
  else
    match gl.texture with
    | none => { gl with errors := gl.errors + 1 }
    | some t =>
      if t.width < frame.displayWidth ∨ t.height < frame.displayHeight then
        { gl with errors := gl.errors + 1 }
      else { gl with texture := some (t.overwrite frame) }

def drawArrays : Context α :=
  if gl.lost then gl
  else if gl.ready then { gl with drawn := some ⟨gl.viewport, gl.texture⟩ }
  else { gl with errors := gl.errors + 1 }

end Context

/-! ## The renderer -/

/-- The fields of a `WebGlVideoRenderer`. -/
structure Renderer where
  contextLost : Bool
  lastW : ℤ
  lastH : ℤ
  texW : ℤ
  texH : ℤ
  deriving DecidableEq

/-- A canvas, its context and its renderer. -/
structure State (α : Type) where
  width : ℕ
  height : ℕ
  gl : Context α
  /-- The context was lost, and the renderer is still to be told. -/
  lossPending : Bool
  renderer : Renderer
  /-- The frame last drawn since the context is there, which no step reads. -/
  last : Option (VideoFrame α)

/-- What can happen next. -/
inductive Action (α : Type)
  | handleFrame (frame : VideoFrame α)
  /-- The context is lost. -/
  | lose
  | onContextLost
  /-- The context is there again; setting it up may throw. -/
  | onContextRestored (throws : Bool)

namespace State

variable {α : Type} (s : State α)

/-- `initResources` on a context that is there. -/
def initResources (gl : Context α) : Context α := { gl with ready := true, texture := none }

/-- A renderer as its constructor leaves it. -/
def new (size : ℕ × ℕ) : State α where
  width := size.1
  height := size.2
  gl := initResources (.new size)
  lossPending := false
  renderer := ⟨false, -1, -1, -1, -1⟩
  last := none

/-- Resizing a canvas clears it. -/
def ensureCanvasSize (width height : ℕ) : State α :=
  if s.width = width ∧ s.height = height then s
  else { s with width, height, gl := { s.gl with drawn := none } }

/-- The viewport is set where the canvas is of another size. -/
def updateViewport : State α :=
  if (s.width : ℤ) ≠ s.renderer.lastW ∨ (s.height : ℤ) ≠ s.renderer.lastH then
    { s with gl := s.gl.setViewport (s.width, s.height),
             renderer := { s.renderer with lastW := s.width, lastH := s.height } }
  else s

/-- The frame is uploaded, into new storage where it is coded at another
size. -/
def upload (frame : VideoFrame α) : State α :=
  if (frame.codedWidth : ℤ) ≠ s.renderer.texW ∨ (frame.codedHeight : ℤ) ≠ s.renderer.texH then
    { s with gl := s.gl.texImage2D frame,
             renderer := { s.renderer with texW := frame.codedWidth, texH := frame.codedHeight } }
  else { s with gl := s.gl.texSubImage2D frame }

def draw (frame : VideoFrame α) : State α :=
  if s.renderer.contextLost then s
  else
    let s := s.updateViewport.upload frame
    { s with gl := s.gl.drawArrays, last := if s.gl.lost then s.last else some frame }

/-- One step. -/
def step : Action α → Option (State α)
  | .handleFrame frame =>
    some ((s.ensureCanvasSize frame.displayWidth frame.displayHeight).draw frame)
  | .lose =>
    if s.gl.lost then none
    else some { s with
      gl := { s.gl with lost := true, ready := false, texture := none, drawn := none }
      lossPending := true
      last := none }
  | .onContextLost =>
    if s.lossPending then
      some { s with lossPending := false, renderer := { s.renderer with contextLost := true } }
    else none
  | .onContextRestored throws =>
    if s.gl.lost ∧ ¬ s.lossPending then
      let gl := { Context.new (s.width, s.height) with errors := s.gl.errors }
      some { s with gl := if throws then gl else initResources gl,
                    renderer := ⟨if throws then s.renderer.contextLost else false, -1, -1, -1, -1⟩ }
    else none

/-- **The canvas shows the frame last drawn**, pixel by pixel and over all
of it, and no call was in error. -/
structure Faithful : Prop where
  errors : s.gl.errors = 0
  shown : ∀ frame, s.last = some frame → ∃ t : Texture α, t.Holds frame ∧
    s.gl.drawn = some ⟨(frame.displayWidth, frame.displayHeight), some t⟩ ∧
    (s.width, s.height) = (frame.displayWidth, frame.displayHeight)

/-- **Coded like the frame before, displayed like it.** -/
def Keeps (s : State α) : Action α → Prop
  | .handleFrame frame => ∀ last, s.last = some last →
      (last.codedWidth, last.codedHeight) = (frame.codedWidth, frame.codedHeight) →
      (last.displayWidth, last.displayHeight) = (frame.displayWidth, frame.displayHeight)
  | _ => True

end State

/-- **Frames, losses and restorations** on one canvas, in any order. -/
def machine (α : Type) (size : ℕ × ℕ) : Machine (State α) (Action α) where
  init s := s = .new size
  step s a := s.step a

/-! ## What the renderer remembers -/

variable {α : Type} {s s' : State α} {frame : VideoFrame α}

/-- The renderer may draw. -/
def State.isLive (s : State α) : Prop := s.gl.lost = false ∧ s.renderer.contextLost = false

/-- **What the renderer remembers is so**, as long as the canvas was shown
right: the viewport it set, and the size of the frame it allocated for. -/
structure Remembers (s : State α) : Prop where
  /-- While it can draw, its resources are there. -/
  ready : s.isLive → s.gl.ready = true
  viewport : s.isLive → ∀ w h : ℕ, (w : ℤ) = s.renderer.lastW → (h : ℤ) = s.renderer.lastH →
    s.gl.viewport = (w, h)
  /-- It is allocated for the frame last drawn. -/
  texture : s.isLive → ∀ w h : ℕ, (w : ℤ) = s.renderer.texW → (h : ℤ) = s.renderer.texH →
    ∃ frame t, s.last = some frame ∧ (frame.codedWidth, frame.codedHeight) = (w, h) ∧
      s.gl.texture = some t ∧ t.Holds frame
  last : ∀ frame, s.last = some frame → s.isLive ∧ s.renderer.texW = frame.codedWidth ∧
    s.renderer.texH = frame.codedHeight
  /-- It is told of a loss, or to be told. -/
  lost : s.gl.lost = true → s.lossPending = true ∨ s.renderer.contextLost = true
  pending : s.lossPending = true → s.gl.lost = true

theorem Remembers.last_eq_none (h : Remembers s) (hidle : ¬ s.isLive) : s.last = none := by
  rcases hlast : s.last with _ | last
  · rfl
  · exact absurd (h.last last hlast).1 hidle

/-! ## What a step does -/

/-- The viewport is the canvas once it is looked at, set or not. -/
theorem updateViewport_eq (hlive : s.gl.lost = false)
    (hviewport : ∀ w h : ℕ, (w : ℤ) = s.renderer.lastW → (h : ℤ) = s.renderer.lastH →
      s.gl.viewport = (w, h)) :
    s.updateViewport = { s with
      gl := { s.gl with viewport := (s.width, s.height) }
      renderer := { s.renderer with lastW := s.width, lastH := s.height } } := by
  unfold State.updateViewport
  by_cases hsame : (s.width : ℤ) ≠ s.renderer.lastW ∨ (s.height : ℤ) ≠ s.renderer.lastH
  · rw [if_pos hsame, Context.setViewport, if_neg (by rw [hlive]; nofun)]
  · rw [if_neg hsame]
    rw [not_or, not_not, not_not] at hsame
    rw [hsame.1, hsame.2, ← hviewport _ _ hsame.1 hsame.2]

/-- **An upload leaves the texture with the frame** exactly when it is
allocated anew, or the storage has the frame's size. -/
theorem upload_eq (frame : VideoFrame α) (hlive : s.gl.lost = false)
    (htexture : ∀ w h : ℕ, (w : ℤ) = s.renderer.texW → (h : ℤ) = s.renderer.texH →
      ∃ frame t, s.last = some frame ∧ (frame.codedWidth, frame.codedHeight) = (w, h) ∧
        s.gl.texture = some t ∧ t.Holds frame)
    (hlast : ∀ last, s.last = some last → s.renderer.texW = last.codedWidth ∧
      s.renderer.texH = last.codedHeight) :
    ∃ t errors, s.upload frame = { s with
      gl := { s.gl with texture := some t, errors }
      renderer := { s.renderer with texW := frame.codedWidth, texH := frame.codedHeight } } ∧
      (t.Holds frame ∧ errors = s.gl.errors ↔ s.Keeps (.handleFrame frame)) := by
  unfold State.upload
  by_cases hnew : (frame.codedWidth : ℤ) ≠ s.renderer.texW ∨
      (frame.codedHeight : ℤ) ≠ s.renderer.texH
  · rw [if_pos hnew, Context.texImage2D, if_neg (by rw [hlive]; nofun)]
    refine ⟨⟨_, _, _⟩, s.gl.errors, rfl, iff_of_true ⟨⟨rfl, rfl, fun _ _ _ _ => rfl⟩, rfl⟩ ?_⟩
    intro last hsome hcoded
    obtain ⟨hw, hh⟩ := hlast last hsome
    obtain ⟨hcw, hch⟩ := Prod.mk.inj hcoded
    rw [hw, hh, hcw, hch] at hnew
    exact absurd hnew (by simp)
  · rw [if_neg hnew]
    rw [not_or, not_not, not_not] at hnew
    obtain ⟨last, t, hsome, hcoded, ht, hholds⟩ := htexture _ _ hnew.1 hnew.2
    have hkeeps : s.Keeps (.handleFrame frame) ↔
        (last.displayWidth, last.displayHeight) = (frame.displayWidth, frame.displayHeight) := by
      constructor
      · exact fun hkeeps => hkeeps last hsome hcoded
      · rintro hdisplay last' hsome' -
        obtain rfl := Option.some.inj (hsome.symm.trans hsome')
        exact hdisplay
    rw [hkeeps, ← hholds.width, ← hholds.height, Context.texSubImage2D,
      if_neg (by rw [hlive]; nofun), ht, hnew.1, hnew.2]
    dsimp only
    by_cases hsmall : t.width < frame.displayWidth ∨ t.height < frame.displayHeight
    · rw [if_pos hsmall]
      refine ⟨t, s.gl.errors + 1, by rw [← ht], iff_of_false ?_ ?_⟩
      · rintro ⟨-, herrors⟩
        exact Nat.succ_ne_self _ herrors
      · intro heq
        obtain ⟨hw, hh⟩ := Prod.mk.inj heq
        omega
    · rw [if_neg hsmall]
      refine ⟨t.overwrite frame, s.gl.errors, rfl, ?_⟩
      constructor
      · rintro ⟨h, -⟩
        exact Prod.ext h.width h.height
      · intro heq
        obtain ⟨hw, hh⟩ := Prod.mk.inj heq
        refine ⟨⟨hw, hh, fun x hx y hy => ?_⟩, rfl⟩
        exact if_pos ⟨hw ▸ hx, hh ▸ hy⟩

/-- **A frame on a live canvas.** It is drawn over all of it, and is what
is drawn exactly when the step keeps to the sizes. -/
theorem handleFrame_live (frame : VideoFrame α) (h : Remembers s) (hlive : s.isLive) :
    ∃ t errors, s.step (.handleFrame frame) = some { s with
      width := frame.displayWidth
      height := frame.displayHeight
      gl := ⟨false, (frame.displayWidth, frame.displayHeight), true, some t,
        some ⟨(frame.displayWidth, frame.displayHeight), some t⟩, errors⟩
      renderer := ⟨false, frame.displayWidth, frame.displayHeight, frame.codedWidth,
        frame.codedHeight⟩
      last := some frame } ∧
      (t.Holds frame ∧ errors = s.gl.errors ↔ s.Keeps (.handleFrame frame)) := by
  obtain ⟨drawn, hresized⟩ : ∃ drawn,
      s.ensureCanvasSize frame.displayWidth frame.displayHeight = { s with
        width := frame.displayWidth
        height := frame.displayHeight
        gl := { s.gl with drawn } } := by
    unfold State.ensureCanvasSize
    by_cases hsame : s.width = frame.displayWidth ∧ s.height = frame.displayHeight
    · rw [if_pos hsame, ← hsame.1, ← hsame.2]
      exact ⟨s.gl.drawn, rfl⟩
    · rw [if_neg hsame]
      exact ⟨none, rfl⟩
  have hsized := updateViewport_eq (s := s.ensureCanvasSize frame.displayWidth
    frame.displayHeight) (by rw [hresized]; exact hlive.1) (by
      rw [hresized]
      exact h.viewport hlive)
  obtain ⟨t, errors, hupload, hkeeps⟩ := upload_eq frame (s :=
    (s.ensureCanvasSize frame.displayWidth frame.displayHeight).updateViewport)
    (by rw [hsized, hresized]; exact hlive.1) (by
      rw [hsized, hresized]
      exact h.texture hlive) (by
      rw [hsized, hresized]
      exact fun last hlast => (h.last last hlast).2)
  refine ⟨t, errors, ?_, ?_⟩
  · have hready := h.ready hlive
    obtain ⟨hgl, hrenderer⟩ := hlive
    rw [State.step, State.draw, hupload, hsized, hresized]
    simp only [hrenderer, hgl, hready, Context.drawArrays]
    simp
  · rw [hsized, hresized] at hkeeps
    exact hkeeps

/-- A frame where nothing can be drawn: only the canvas and what the
renderer takes for set change. -/
theorem handleFrame_idle (hidle : ¬ s.isLive) (hstep : s.step (.handleFrame frame) = some s') :
    s'.gl.lost = s.gl.lost ∧ s'.gl.errors = s.gl.errors ∧
      s'.renderer.contextLost = s.renderer.contextLost ∧ s'.lossPending = s.lossPending ∧
      s'.last = s.last := by
  obtain rfl := Option.some.inj hstep
  obtain ⟨drawn, w, h, hresized⟩ : ∃ drawn w h,
      s.ensureCanvasSize frame.displayWidth frame.displayHeight =
        { s with width := w, height := h, gl := { s.gl with drawn } } := by
    unfold State.ensureCanvasSize
    split
    · exact ⟨s.gl.drawn, s.width, s.height, rfl⟩
    · exact ⟨none, _, _, rfl⟩
  rw [hresized, State.draw]
  dsimp only
  by_cases hlost : s.renderer.contextLost = true
  · rw [if_pos hlost]
    exact ⟨rfl, rfl, rfl, rfl, rfl⟩
  · rw [if_neg hlost]
    have hgl : s.gl.lost = true := by
      by_contra hthere
      exact hidle ⟨Bool.eq_false_iff.2 hthere, Bool.eq_false_iff.2 hlost⟩
    -- a lost context takes no call
    unfold State.upload State.updateViewport
    dsimp only
    split <;> split <;>
      simp [Context.setViewport, Context.texImage2D, Context.texSubImage2D, Context.drawArrays, hgl]

/-- Nothing was drawn, so nothing has to be shown. -/
theorem State.Faithful.of_none (herrors : s.gl.errors = 0) (hlast : s.last = none) :
    s.Faithful := ⟨herrors, fun frame hframe => by rw [hlast] at hframe; cases hframe⟩

/-- Where nothing can be drawn, only the news of a loss are remembered. -/
theorem Remembers.of_idle (hidle : ¬ s.isLive) (hlast : s.last = none)
    (hlost : s.gl.lost = true → s.lossPending = true ∨ s.renderer.contextLost = true)
    (hpending : s.lossPending = true → s.gl.lost = true) : Remembers s where
  ready hlive := absurd hlive hidle
  viewport hlive := absurd hlive hidle
  texture hlive := absurd hlive hidle
  last frame hframe := by rw [hlast] at hframe; cases hframe
  lost := hlost
  pending := hpending

/-- A context with its resources set up, and nothing drawn yet. -/
theorem Remembers.of_new (hready : s.gl.ready = true) (hlast : s.last = none)
    (hrenderer : s.renderer = ⟨false, -1, -1, -1, -1⟩) (hlost : s.gl.lost = false)
    (hpending : s.lossPending = false) : Remembers s where
  ready _ := hready
  viewport _ w h hw := by rw [hrenderer] at hw; dsimp only at hw; omega
  texture _ w h hw := by rw [hrenderer] at hw; dsimp only at hw; omega
  last frame hframe := by rw [hlast] at hframe; cases hframe
  lost h := by rw [hlost] at h; cases h
  pending h := by rw [hpending] at h; cases h

/-- **A step keeps the canvas right exactly when it keeps to the sizes**,
and then what the renderer remembers is so still. -/
theorem step_faithful {a : Action α} (h : Remembers s) (hs : s.Faithful)
    (hstep : s.step a = some s') :
    (s'.Faithful ↔ s.Keeps a) ∧ (s'.Faithful → Remembers s') := by
  cases a with
  | handleFrame frame =>
    by_cases hlive : s.isLive
    · obtain ⟨t, errors, heq, hkeeps⟩ := handleFrame_live frame h hlive
      obtain rfl := Option.some.inj (heq.symm.trans hstep)
      rw [hs.errors] at hkeeps
      have hshown : State.Faithful { s with
          width := frame.displayWidth
          height := frame.displayHeight
          gl := ⟨false, (frame.displayWidth, frame.displayHeight), true, some t,
            some ⟨(frame.displayWidth, frame.displayHeight), some t⟩, errors⟩
          renderer := ⟨false, frame.displayWidth, frame.displayHeight, frame.codedWidth,
            frame.codedHeight⟩
          last := some frame } ↔ t.Holds frame ∧ errors = 0 := by
        constructor
        · rintro ⟨herrors, hshown⟩
          obtain ⟨t', hholds, hdrawn, -⟩ := hshown frame rfl
          cases hdrawn
          exact ⟨hholds, herrors⟩
        · rintro ⟨hholds, herrors⟩
          refine ⟨herrors, fun frame' hframe => ?_⟩
          cases hframe
          exact ⟨t, hholds, rfl, rfl⟩
      refine ⟨hshown.trans hkeeps, fun hfaithful => ?_⟩
      obtain ⟨hholds, -⟩ := hshown.1 hfaithful
      refine ⟨fun _ => rfl, fun _ w h hw hh => ?_, fun _ w h hw hh => ?_, fun frame' hframe => ?_,
        nofun, fun hpending => ?_⟩
      · rw [Int.ofNat_inj.1 hw, Int.ofNat_inj.1 hh]
      · exact ⟨frame, t, rfl, by rw [Int.ofNat_inj.1 hw, Int.ofNat_inj.1 hh], rfl, hholds⟩
      · cases hframe
        exact ⟨⟨rfl, rfl⟩, rfl, rfl⟩
      · have hlost := h.pending hpending
        rw [hlive.1] at hlost
        cases hlost
    · have hnone := h.last_eq_none hlive
      obtain ⟨hlost, herrors, hcontext, hpending, hlast⟩ := handleFrame_idle hlive hstep
      have hfaithful : s'.Faithful := .of_none (herrors.trans hs.errors) (hlast.trans hnone)
      refine ⟨iff_of_true hfaithful fun last hsome => ?_, fun _ => .of_idle ?_ ?_ ?_ ?_⟩
      · rw [hnone] at hsome
        cases hsome
      · rw [State.isLive, hlost, hcontext]
        exact hlive
      · exact hlast.trans hnone
      · rw [hlost, hpending, hcontext]
        exact h.lost
      · rw [hlost, hpending]
        exact h.pending
  | lose =>
    obtain ⟨-, heq⟩ := Option.ite_none_left_eq_some.1 hstep
    cases heq
    exact ⟨iff_of_true (.of_none hs.errors rfl) trivial, fun _ =>
      .of_idle (fun hlive => nomatch hlive.1) rfl (fun _ => .inl rfl) fun _ => rfl⟩
  | onContextLost =>
    obtain ⟨hpending, heq⟩ := Option.ite_none_right_eq_some.1 hstep
    cases heq
    have hlost := h.pending hpending
    have hnone := h.last_eq_none fun hlive => by
      rw [hlive.1] at hlost
      cases hlost
    exact ⟨iff_of_true (.of_none hs.errors hnone) trivial, fun _ =>
      .of_idle (fun hlive => nomatch hlive.2) hnone (fun _ => .inr rfl) nofun⟩
  | onContextRestored throws =>
    obtain ⟨⟨hlost, hpending⟩, heq⟩ := Option.ite_none_right_eq_some.1 hstep
    have hcontext : s.renderer.contextLost = true := (h.lost hlost).resolve_left hpending
    have hnone := h.last_eq_none fun hlive => by
      rw [hlive.1] at hlost
      cases hlost
    cases heq
    have hpending' := Bool.eq_false_iff.2 hpending
    refine ⟨iff_of_true (.of_none ?_ hnone) trivial, fun _ => ?_⟩
    · cases throws
      · exact hs.errors
      · exact hs.errors
    · cases throws with
      | false => exact .of_new rfl hnone rfl rfl hpending'
      | true =>
        refine .of_idle (fun hlive => ?_) hnone nofun fun h => absurd h hpending
        have hthere : s.renderer.contextLost = false := hlive.2
        rw [hcontext] at hthere
        cases hthere

/-- **The canvas shows every frame drawn, exactly when frames coded alike
are displayed alike.** Over any run of frames, context losses the renderer
learns of later, and restorations that may fail, the canvas shows the
frame last drawn on the context that is there, and no call is in error,
throughout, if and only if no frame comes that is coded like the one drawn
before it and displayed at another size. -/
theorem shown_iff_run {size : ℕ × ℕ} {acts : List (Action α)}
    (hexec : (machine α size).exec (.new size) acts = some s) :
    (machine α size).Throughout State.Faithful (.new size) acts ↔
      (machine α size).Run State.Keeps (.new size) acts s :=
  Machine.throughout_iff_run
    (fun _ _ _ hs hP hstep hP' => (step_faithful hs hP hstep).2 hP')
    (fun _ _ _ hs hP hstep => (step_faithful hs hP hstep).1)
    (.of_new rfl rfl rfl rfl rfl) (.of_none rfl rfl) hexec

/-- A frame of one colour, coded in whole macroblocks. -/
def someFrame (width height colour : ℕ) : VideoFrame ℕ :=
  ⟨(width + 15) / 16 * 16, (height + 15) / 16 * 16, width, height, fun _ _ => colour⟩

/-- A context lost between frames, and there again. -/
def lostAndFound : List (Action ℕ) :=
  [.handleFrame (someFrame 1280 720 1), .lose, .handleFrame (someFrame 1280 720 2),
    .onContextLost, .onContextRestored false, .handleFrame (someFrame 1280 720 3)]

/-- A window made larger by less than a macroblock. -/
def grownALittle : List (Action ℕ) :=
  [.handleFrame (someFrame 1270 712 1), .handleFrame (someFrame 1280 720 2)]

theorem shown_lostAndFound_not_grownALittle :
    (machine ℕ (1280, 720)).Throughout State.Faithful (.new (1280, 720)) lostAndFound ∧
      ¬ (machine ℕ (1280, 720)).Throughout State.Faithful (.new (1280, 720)) grownALittle := by
  have hfound : ∃ s, (machine ℕ (1280, 720)).exec (.new (1280, 720)) lostAndFound = some s ∧
      (machine ℕ (1280, 720)).Run State.Keeps (.new (1280, 720)) lostAndFound s :=
    ⟨_, rfl, nofun, _, rfl, trivial, _, rfl, nofun, _, rfl, trivial, _, rfl, trivial, _, rfl, nofun,
      _, rfl, rfl⟩
  have hgrown : ∃ s, (machine ℕ (1280, 720)).exec (.new (1280, 720)) grownALittle = some s :=
    ⟨_, rfl⟩
  obtain ⟨s, hexec, hrun⟩ := hfound
  obtain ⟨s', hexec'⟩ := hgrown
  refine ⟨(shown_iff_run hexec).2 hrun, fun hshown => ?_⟩
  obtain ⟨-, t, ht, hkeeps, -⟩ := (shown_iff_run hexec').1 hshown
  obtain rfl := Option.some.inj ht
  exact absurd (hkeeps _ rfl rfl) (by decide)

end WebGl

end WaylandWebStream
