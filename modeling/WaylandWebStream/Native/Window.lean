import WaylandWebStream.Compositor.OutputSize
import WaylandWebStream.Lib.Watch
import WaylandWebStream.Native.Slots

/-!
# Window — sizes on their way to the renderer and to the server

The local compositor configures the window's size. The display thread
keeps it, resizes the renderer on its next round and leaves it in a watch
channel, from which the socket loop asks the server for it; and the
server grants what it can. The renderer is made after the first round
trip, at the size configured by then or at 1280x720, and the first
configure resizes nothing: what size its slots have in the end is read
off the sizes configured before and after (`Kept.slots`).
-/

namespace WaylandWebStream

namespace Native

/-! ## The renderer's size -/

namespace ShmRenderer

variable {r : ShmRenderer} {allocates : SlotId → Bool} {newW newH : UInt32}

/-- The size of the slots a renderer makes. -/
def extent (r : ShmRenderer) : UInt32 × UInt32 := (r.width, r.height)

theorem extent_recreateFrom (allocates : SlotId → Bool) (order : List SlotId) (r : ShmRenderer) :
    (recreateFrom allocates order r).1.extent = r.extent := by
  induction order generalizing r with
  | nil => rfl
  | cons idx rest ih =>
    rw [recreateFrom]
    split
    · exact ih r
    · split
      · rfl
      · exact ih _

theorem extent_resize : (r.resize newW newH).1.extent = (newW, newH) := by
  unfold resize
  split
  · rename_i hsame
    rw [hsame.1, hsame.2]
    rfl
  · rfl

theorem extent_prime : r.prime.1.extent = r.extent := by
  obtain hprime | ⟨idx, slot, -, -, hprime⟩ := prime_cases (r := r)
  · rw [hprime]
  · rw [hprime]
    rfl

theorem extent_resizeAndPrime : (r.resizeAndPrime allocates newW newH).1.extent = (newW, newH) := by
  have hfilled := extent_recreateFrom allocates (List.finRange 3) (r.resize newW newH).1
  rw [extent_resize] at hfilled
  unfold resizeAndPrime
  dsimp only
  split <;> rename_i filled hrecreate <;> rw [← recreateSlots, hrecreate] at hfilled
  · exact hfilled
  · exact extent_prime.trans hfilled

theorem extent_releaseSlot (idx : SlotId) : (r.releaseSlot idx).1.extent = r.extent := by
  unfold releaseSlot
  split
  · rfl
  · split <;> rfl

theorem extent_ready (allocates : SlotId → Bool) : (r.ready allocates).1.extent = r.extent := by
  unfold ready
  split
  · exact extent_recreateFrom _ _ r
  · rfl

theorem extent_render (allocates : SlotId → Bool) (frame : DecodedFrame) :
    (r.render allocates frame).1.extent = r.extent := by
  obtain ⟨answer, -, hrender⟩ | ⟨idx, slot, -, -, -, hrender⟩ := render_cases r allocates frame
  · rw [hrender]
    exact extent_ready allocates
  · rw [hrender]
    exact extent_ready allocates

end ShmRenderer

/-- The size an action asks for. -/
def Action.extent : Action → Option (UInt32 × UInt32)
  | .resize newW newH | .resizeAndPrime _ newW newH => some (newW, newH)
  | .prime | .render _ _ | .compositorReleases _ | .dispatch => none

/-- **Only a resize changes the size.** -/
theorem extent_step {s s' : State} {a : Action} (hstep : machine.step s a = some s') :
    s'.renderer.extent = a.extent.getD s.renderer.extent := by
  obtain ⟨effects, hact⟩ := step_eq_some.1 hstep
  cases a with
  | resize newW newH =>
    cases hact
    exact ShmRenderer.extent_resize
  | resizeAndPrime allocates newW newH =>
    cases hact
    exact ShmRenderer.extent_resizeAndPrime
  | prime =>
    cases hact
    exact ShmRenderer.extent_prime
  | render allocates frame =>
    cases hact
    exact ShmRenderer.extent_render allocates frame
  | compositorReleases n =>
    simp only [State.act] at hact
    split at hact
    · cases hact
    · cases hact
      rfl
  | dispatch =>
    simp only [State.act] at hact
    split at hact
    · cases hact
    · cases hact
      exact ShmRenderer.extent_releaseSlot _

namespace Window

open Compositor (Size sanitizeResolution outputSize)

/-- A size in pixels, as the two ends exchange it. -/
abbrev Extent := UInt32 × UInt32

def Extent.size (e : Extent) : Size := (e.1.toNat, e.2.toNat)

def INITIAL_WINDOW_SIZE : Extent := (1280, 720)

/-- A dimension the compositor configures: `set_min_size` is heeded. -/
abbrev Dimension := { n : UInt32 // 16 ≤ n }

/-- **The window and the server.** The sizes configured are kept, before
and after the renderer was made; no step reads them. -/
structure State where
  /-- `DisplayState`. -/
  width : UInt32
  height : UInt32
  configured : Bool
  pendingResize : Option Extent
  renderer : Option Native.State
  sizeTx : Watch Extent
  /-- The socket loop's receiver, -/
  sizeRx : Watch.Receiver
  /-- whether it has noticed a change it has not read yet, -/
  noticed : Bool
  /-- and what it asked the server for last. -/
  told : Option Extent
  /-- `Resize` messages on the socket. -/
  wire : List Size
  /-- The server's channel, with what earlier clients left in it. -/
  resizes : List Size
  output : Size
  early : List Extent
  later : List Extent

inductive Action
  /-- `xdg_toplevel::configure`; a dimension of none is the client's choice. -/
  | configure (newWidth newHeight : Option Dimension)
  /-- After the first round trip the renderer is made, and primed. -/
  | build (allocates : SlotId → Bool)
  /-- A round of the display loop resizes the renderer. -/
  | tick (allocates : SlotId → Bool)
  | render (allocates : SlotId → Bool) (frame : DecodedFrame)
  | compositorReleases (n : ℕ)
  | dispatch
  /-- The socket loop connects and sends the first `Resize`. -/
  | announce
  /-- `size_rx.changed()` returns, -/
  | notice
  /-- and the size is read and sent. -/
  | resend
  /-- The server's handler passes a `Resize` on. -/
  | deliver
  /-- The server's loop takes one. -/
  | apply

/-- The capacity of the server's resize channel. -/
def resizeCapacity : ℕ := 4

namespace State

variable (s : State)

/-- The window's size. -/
def window : Extent := (s.width, s.height)

/-- A size is configured: it is kept, sent, and counted. -/
def setWindow (e : Extent) : State :=
  { s with width := e.1, height := e.2, sizeTx := s.sizeTx.send e }

/-- For the record. -/
def record (e : Extent) : State :=
  if s.renderer.isNone then { s with early := s.early ++ [e] }
  else { s with later := s.later ++ [e] }

/-- `WindowHandler::configure`. -/
def configure (newWidth newHeight : Option Dimension) : State :=
  let e : Extent :=
    ((newWidth.map Subtype.val).getD s.width, (newHeight.map Subtype.val).getD s.height)
  if !s.configured then { (s.record e).setWindow e with configured := true }
  else if e ≠ s.window then { (s.record e).setWindow e with pendingResize := some e }
  else s.record e

/-- The renderer acts. -/
def onRenderer (a : Native.Action) : Option State :=
  match s.renderer with
  | none => none
  | some w => (Native.machine.step w a).map fun w' => { s with renderer := some w' }

/-- `ShmRenderer::new` and the first `prime`. -/
def build (allocates : SlotId → Bool) : Option State :=
  match s.renderer, (ShmRenderer.bare s.width s.height).recreateSlots allocates with
  | none, (r, true) =>
    State.onRenderer
      { s with renderer := some { renderer := r, held := [], releases := [], shown := [] } } .prime
  | _, _ => none

/-- `pending_resize.take()`, and the resize. -/
def tick (allocates : SlotId → Bool) : Option State :=
  match s.pendingResize with
  | none => none
  | some (w, h) => State.onRenderer { s with pendingResize := none } (.resizeAndPrime allocates w h)

/-- The size in the watch channel is read and sent. -/
def tell : State :=
  { s with noticed := false, told := some s.sizeTx.value, wire := s.wire ++ [s.sizeTx.value.size] }

/-- One step of a thread, of the compositor or of the server. -/
def step (max : Size) : Action → Option State
  | .configure newWidth newHeight => some (s.configure newWidth newHeight)
  | .build allocates => s.build allocates
  | .tick allocates => s.tick allocates
  | .render allocates frame => s.onRenderer (.render allocates frame)
  | .compositorReleases n => s.onRenderer (.compositorReleases n)
  | .dispatch => s.onRenderer .dispatch
  | .announce =>
    if s.told = none then some { s.tell with sizeRx := s.sizeTx.subscribe } else none
  | .notice =>
    if s.told ≠ none ∧ s.noticed = false ∧ s.sizeTx.hasChanged s.sizeRx = true then
      some { s with noticed := true, sizeRx := s.sizeTx.subscribe }
    else none
  | .resend => if s.noticed then some s.tell else none
  | .deliver =>
    match s.wire with
    | [] => none
    | req :: rest =>
      if s.resizes.length < resizeCapacity then
        some { s with wire := rest, resizes := s.resizes ++ [req] }
      else none
  | .apply =>
    match s.resizes with
    | [] => none
    | req :: rest =>
      some { s with resizes := rest, output := (sanitizeResolution req max).getD s.output }

end State

/-- A client that has just started, and a server that may have served
others. -/
def start (output : Size) (resizes : List Size) : State where
  width := INITIAL_WINDOW_SIZE.1
  height := INITIAL_WINDOW_SIZE.2
  configured := false
  pendingResize := none
  renderer := none
  sizeTx := .channel INITIAL_WINDOW_SIZE
  sizeRx := ⟨0⟩
  noticed := false
  told := none
  wire := []
  resizes := resizes
  output := output
  early := []
  later := []

/-- **The native window's size and the server's**, for the options of the
server. -/
def machine (initial max : Size) : Machine State Action where
  init s := ∃ output resizes, (outputSize initial max).Reachable output ∧ s = start output resizes
  step s a := s.step max a

/-! ## The sizes configured -/

/-- The window's size, from the sizes configured. -/
def windowOf (early later : List Extent) : Extent :=
  (early ++ later).getLast?.getD INITIAL_WINDOW_SIZE

/-- **A late start**: the renderer was made before anything was
configured, and the size that came was never changed. -/
def Late (early later : List Extent) : Prop :=
  early = [] ∧ ∀ e ∈ later, e = windowOf early later

instance (early later : List Extent) : Decidable (Late early later) :=
  inferInstanceAs (Decidable (_ ∧ _))

/-- The size of the slots. -/
def slotsOf (early later : List Extent) : Extent :=
  if Late early later then INITIAL_WINDOW_SIZE else windowOf early later

variable {s s' : State} {early later : List Extent} {e : Extent} {a : Native.Action}
  {allocates : SlotId → Bool}

theorem windowOf_later (early later : List Extent) (e : Extent) :
    windowOf early (later ++ [e]) = e := by
  simp [windowOf]

theorem windowOf_early (early : List Extent) (e : Extent) : windowOf (early ++ [e]) [] = e := by
  simp [windowOf]

/-- A renderer made at the window's size has it, late or not. -/
theorem slotsOf_nil (early : List Extent) : slotsOf early [] = windowOf early [] := by
  unfold slotsOf
  split
  · rename_i hlate
    rw [hlate.1]
    rfl
  · rfl

theorem slotsOf_of_not_late (h : ¬ Late early later) : slotsOf early later = windowOf early later :=
  if_neg h

/-- A size configured again changes nothing. -/
theorem late_same : Late early (later ++ [windowOf early later]) ↔ Late early later := by
  unfold Late
  rw [windowOf_later]
  refine and_congr_right fun hearly => ⟨fun h e he => h e (by simp [he]), fun h e he => ?_⟩
  rcases List.mem_append.1 he with he | he
  · exact h e he
  · exact List.mem_singleton.1 he

/-- A size that replaces another does not come late. -/
theorem not_late_of_ne (hconfigured : early ++ later ≠ []) (hne : e ≠ windowOf early later) :
    ¬ Late early (later ++ [e]) := by
  rintro ⟨rfl, hsame⟩
  obtain ⟨init, last, hsplit⟩ := (List.eq_nil_or_concat' later).resolve_left hconfigured
  rw [windowOf_later] at hsame
  have hlast := hsame last (by simp [hsplit])
  rw [hsplit, windowOf_later] at hne
  exact hne hlast.symm

/-! ## The account of the sizes -/

/-- **What the display thread knows**, from the sizes configured. -/
structure Sized (s : State) : Prop where
  booked : ∀ w, s.renderer = some w → w.Booked
  unbuilt : s.renderer = none → s.later = []
  window : s.window = windowOf s.early s.later
  configured : s.configured = true ↔ s.early ++ s.later ≠ []
  pending : ∀ e, s.pendingResize = some e → e = s.window ∧ ¬ Late s.early s.later
  slots : ∀ w, s.renderer = some w → s.pendingResize = none →
    w.renderer.extent = slotsOf s.early s.later

/-- The renderer acts, and nothing else changes. -/
theorem onRenderer_eq_some : s.onRenderer a = some s' ↔
    ∃ w w', s.renderer = some w ∧ Native.machine.step w a = some w' ∧
      s' = { s with renderer := some w' } := by
  unfold State.onRenderer
  cases s.renderer with
  | none => simp
  | some w => simp [eq_comm]

theorem booked_step {w w' : Native.State} (h : w.Booked)
    (hstep : Native.machine.step w a = some w') : w'.Booked := by
  obtain ⟨effects, hact⟩ := step_eq_some.1 hstep
  exact (h.act hact).1

/-- An action that asks for no size. -/
theorem Sized.onRenderer (h : Sized s) (ha : a.extent = none) (hstep : s.onRenderer a = some s') :
    Sized s' := by
  obtain ⟨w, w', hw, hact, rfl⟩ := onRenderer_eq_some.1 hstep
  refine ⟨fun v hv => ?_, fun hnone => (by cases hnone), h.window, h.configured, h.pending,
    fun v hv hpending => ?_⟩
  · obtain rfl := Option.some.inj hv
    exact booked_step (h.booked w hw) hact
  · obtain rfl := Option.some.inj hv
    rw [extent_step hact, ha, Option.getD_none]
    exact h.slots w hw hpending

theorem Sized.tick (h : Sized s) (hstep : s.tick allocates = some s') : Sized s' := by
  unfold State.tick at hstep
  split at hstep
  · cases hstep
  · rename_i width height hpending
    obtain ⟨w, w', hw, hact, rfl⟩ := onRenderer_eq_some.1 hstep
    obtain ⟨hwindow, hlate⟩ := h.pending _ hpending
    refine ⟨fun v hv => ?_, fun hnone => (by cases hnone), h.window, h.configured,
      fun e he => (by cases he), fun v hv _ => ?_⟩
    · obtain rfl := Option.some.inj hv
      exact booked_step (h.booked w hw) hact
    · obtain rfl := Option.some.inj hv
      rw [extent_step hact]
      show (width, height) = slotsOf s.early s.later
      rw [slotsOf_of_not_late hlate, ← h.window, hwindow]

theorem Sized.build (h : Sized s) (hstep : s.build allocates = some s') : Sized s' := by
  unfold State.build at hstep
  split at hstep
  · rename_i r hnone hslots
    obtain ⟨w, w', hw, hact, rfl⟩ := onRenderer_eq_some.1 hstep
    obtain rfl := Option.some.inj hw
    have hbooked : Native.State.Booked { renderer := r, held := [], releases := [], shown := [] } :=
      booked_of_init ⟨s.width, s.height, allocates, hslots, rfl, rfl, rfl⟩
    have hextent : r.extent = s.window := by
      have hfilled := ShmRenderer.extent_recreateFrom allocates (List.finRange 3)
        (ShmRenderer.bare s.width s.height)
      rw [← ShmRenderer.recreateSlots, hslots] at hfilled
      exact hfilled
    refine ⟨fun v hv => ?_, fun hnone => (by cases hnone), h.window, h.configured, h.pending,
      fun v hv _ => ?_⟩
    · obtain rfl := Option.some.inj hv
      exact booked_step hbooked hact
    · obtain rfl := Option.some.inj hv
      have hlater := h.unbuilt hnone
      rw [extent_step hact]
      show r.extent = slotsOf s.early s.later
      rw [hextent, h.window, hlater, slotsOf_nil]
  · cases hstep

section Record

variable (s e)

@[simp] theorem record_renderer : (s.record e).renderer = s.renderer := by
  unfold State.record
  split <;> rfl

@[simp] theorem record_pendingResize : (s.record e).pendingResize = s.pendingResize := by
  unfold State.record
  split <;> rfl

@[simp] theorem record_configured : (s.record e).configured = s.configured := by
  unfold State.record
  split <;> rfl

@[simp] theorem record_window : (s.record e).window = s.window := by
  unfold State.record
  split <;> rfl

end Record

/-- What is on record after a configure. -/
theorem Sized.record (h : Sized s) (e : Extent) :
    windowOf (s.record e).early (s.record e).later = e ∧
      (s.record e).early ++ (s.record e).later ≠ [] ∧
      (s.renderer = none → (s.record e).later = [] ∧ (s.record e).early ≠ []) ∧
      (s.renderer ≠ none → (s.record e).early = s.early ∧ (s.record e).later = s.later ++ [e]) := by
  unfold State.record
  cases hrenderer : s.renderer with
  | none =>
    have hlater := h.unbuilt hrenderer
    simp [hlater, windowOf_early]
  | some w => simp [windowOf_later]

/-- The first configure does not resize: what there is of a renderer keeps
its size. -/
theorem Sized.first (h : Sized s) (hfirst : s.configured = false) (e : Extent) :
    Sized { (s.record e).setWindow e with configured := true } := by
  obtain ⟨hwindow, hsome, hunbuilt, hbuilt⟩ := h.record e
  have hnone : s.early = [] ∧ s.later = [] := by
    by_contra hne
    rw [← List.append_eq_nil_iff] at hne
    rw [h.configured.2 hne] at hfirst
    cases hfirst
  obtain ⟨hearly, hlater⟩ := hnone
  have hpending : s.pendingResize = none := by
    refine Option.eq_none_iff_forall_ne_some.2 fun e' he' => (h.pending e' he').2 ?_
    rw [hearly, hlater]
    exact ⟨rfl, fun _ hmem => (by cases hmem)⟩
  refine ⟨fun w hw => ?_, fun hr => ?_, hwindow.symm, iff_of_true rfl hsome, fun e' he' => ?_,
    fun w hw _ => ?_⟩
  · rw [State.setWindow, record_renderer] at hw
    exact h.booked w hw
  · rw [State.setWindow, record_renderer] at hr
    exact (hunbuilt hr).1
  · rw [State.setWindow, record_pendingResize, hpending] at he'
    cases he'
  · rw [State.setWindow, record_renderer] at hw
    obtain ⟨hearly', hlater'⟩ := hbuilt (by simp [hw])
    have hslots := h.slots w hw hpending
    rw [hearly, hlater] at hslots
    show w.renderer.extent = slotsOf (s.record e).early (s.record e).later
    rw [hearly', hlater', hearly, hlater, hslots]
    simp [slotsOf, Late, windowOf]

/-- A new size is pending, for the renderer to come to. -/
theorem Sized.changed (h : Sized s) (hconfigured : s.configured = true) {e : Extent}
    (hne : e ≠ s.window) :
    Sized { (s.record e).setWindow e with pendingResize := some e } := by
  obtain ⟨hwindow, hsome, hunbuilt, hbuilt⟩ := h.record e
  have hlate : ¬ Late (s.record e).early (s.record e).later := by
    by_cases hr : s.renderer = none
    · exact fun hlate => (hunbuilt hr).2 hlate.1
    · obtain ⟨hearly, hlater⟩ := hbuilt hr
      rw [hearly, hlater]
      exact not_late_of_ne (h.configured.1 hconfigured) (h.window ▸ hne)
  refine ⟨fun w hw => ?_, fun hr => ?_, hwindow.symm, ?_, fun e' he' => ?_,
    fun w _ hpending => (by cases hpending)⟩
  · rw [State.setWindow, record_renderer] at hw
    exact h.booked w hw
  · rw [State.setWindow, record_renderer] at hr
    exact (hunbuilt hr).1
  · rw [State.setWindow, record_configured]
    exact iff_of_true hconfigured hsome
  · obtain rfl := Option.some.inj he'
    exact ⟨rfl, hlate⟩

/-- The size there is, configured again. -/
theorem Sized.same (h : Sized s) (hconfigured : s.configured = true) :
    Sized (s.record s.window) := by
  obtain ⟨hwindow, hsome, hunbuilt, hbuilt⟩ := h.record s.window
  have hlate : Late (s.record s.window).early (s.record s.window).later ↔
      Late s.early s.later := by
    by_cases hr : s.renderer = none
    · have hlater := h.unbuilt hr
      have hsome' := h.configured.1 hconfigured
      rw [hlater, List.append_nil] at hsome'
      exact iff_of_false (fun hlate => (hunbuilt hr).2 hlate.1) fun hlate => hsome' hlate.1
    · obtain ⟨hearly, hlater⟩ := hbuilt hr
      rw [hearly, hlater, h.window, late_same]
  refine ⟨fun w hw => ?_, fun hr => ?_, ?_, ?_, fun e' he' => ?_, fun w hw hpending => ?_⟩
  · rw [record_renderer] at hw
    exact h.booked w hw
  · rw [record_renderer] at hr
    exact (hunbuilt hr).1
  · rw [record_window, hwindow]
  · rw [record_configured]
    exact iff_of_true hconfigured hsome
  · rw [record_pendingResize] at he'
    rw [record_window, hlate]
    exact h.pending e' he'
  · rw [record_renderer] at hw
    rw [record_pendingResize] at hpending
    rw [h.slots w hw hpending, slotsOf, slotsOf, hwindow, ← h.window]
    exact if_congr hlate.symm rfl rfl

/-- **A configure** keeps the account. -/
theorem Sized.configure (h : Sized s) (newWidth newHeight : Option Dimension) :
    Sized (s.configure newWidth newHeight) := by
  unfold State.configure
  dsimp only
  generalize ((newWidth.map Subtype.val).getD s.width,
    (newHeight.map Subtype.val).getD s.height) = e
  split
  · rename_i hfirst
    exact h.first (by simpa using hfirst) e
  · rename_i hconfigured
    have hset : s.configured = true := by simpa using hconfigured
    split
    · rename_i hne
      exact h.changed hset hne
    · rename_i hsame
      rw [not_not.1 hsame]
      exact h.same hset

end Window

end Native

end WaylandWebStream
