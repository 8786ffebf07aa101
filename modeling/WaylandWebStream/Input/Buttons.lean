import WaylandWebStream.Input.TouchStream

/-!
# Input — pointer buttons, from the mouse to the seat

The browser reports the first button that goes down as `pointerdown` and
the last that comes up as `pointerup`; what changes in between it reports
as a `pointermove` that names the button. The client forwards each of
them, the pointer handler reads the button of a down and an up only, and
a cancel changes nothing. So the buttons held in the seat are those held
on the mouse exactly as long as no two are held at once and no cancel
comes while one is.
-/

namespace WaylandWebStream

namespace Input

/-- What the user does with the mouse; a move is one with no change of
buttons. -/
inductive Physical
  | press (button : Int32)
  | release (button : Int32)
  | move
  | cancel

namespace Physical

/-- A button goes down that is up, or up that is down. -/
def Possible (held : Finset Int32) : Physical → Prop
  | press button => button ∉ held
  | release button => button ∈ held
  | move | cancel => True

instance (held : Finset Int32) : (p : Physical) → Decidable (p.Possible held)
  | press button => inferInstanceAs (Decidable (button ∉ held))
  | release button => inferInstanceAs (Decidable (button ∈ held))
  | move | cancel => inferInstanceAs (Decidable True)

/-- The buttons physically held afterwards; a cancel ends the pointer. -/
def apply (held : Finset Int32) : Physical → Finset Int32
  | press button => insert button held
  | release button => held.erase button
  | move => held
  | cancel => ∅

end Physical

/-! ## The web client -/

/-- A browser pointer event, as far as the client reads it. -/
structure DomPointerEvent where
  clientX : Float
  clientY : Float
  movementX : Float
  movementY : Float
  button : Int32
  pointerType : String
  pressure : Float

/-- A browser pointer event and its type. -/
inductive DomPointer
  | pointerdown (e : DomPointerEvent)
  | pointermove (e : DomPointerEvent)
  | pointerup (e : DomPointerEvent)
  | pointercancel (e : DomPointerEvent)

/-- What the client's pointer handlers read of the page: the canvas's
place, and the movement scale while the canvas holds the pointer lock. -/
structure PointerView where
  box : CanvasBox
  lockScale : Option (Float × Float)

namespace WebClient

variable (v : PointerView)

/-- The sample a pointer message carries. -/
def normalizedPointer (e : DomPointerEvent) : PointerPoint where
  x := clampUnit ((e.clientX - v.box.left) / v.box.width)
  y := clampUnit ((e.clientY - v.box.top) / v.box.height)
  button := e.button
  pointerType := e.pointerType
  pressure := e.pressure

/-- The pointer handlers: what is sent for an event. Fingers have their
own handlers, and a locked pointer moves by deltas. -/
def onPointer : DomPointer → Option MouseEvent
  | .pointerdown e =>
    if e.pointerType = "touch" then none else some (.down (normalizedPointer v e))
  | .pointermove e =>
    if e.pointerType = "touch" then none
    else match v.lockScale with
      | some scale => some (.relative (e.movementX * scale.1) (e.movementY * scale.2))
      | none => some (.move (normalizedPointer v e))
  | .pointerup e =>
    if e.pointerType = "touch" then none else some (.up (normalizedPointer v e))
  | .pointercancel e =>
    if e.pointerType = "touch" then none else some (.cancel (normalizedPointer v e))

end WebClient

/-- A step of the user: what the mouse does, where it is, and the page it
is done on. -/
structure Gesture where
  physical : Physical
  view : PointerView
  clientX : Float
  clientY : Float
  movementX : Float
  movementY : Float
  pressure : Float

namespace Gesture

variable (g : Gesture)

/-- The browser's event, naming the button. -/
def event (button : Int32) : DomPointerEvent where
  clientX := g.clientX
  clientY := g.clientY
  movementX := g.movementX
  movementY := g.movementY
  button := button
  pointerType := "mouse"
  pressure := g.pressure

/-- **The Pointer Events rules**: `pointerdown` for the first button,
`pointerup` for the last, `pointermove` with the button changed for the
others; the index is `-1` where none changed. -/
def domPointer (held : Finset Int32) : DomPointer :=
  match g.physical with
  | .press button =>
    if held = ∅ then .pointerdown (g.event button) else .pointermove (g.event button)
  | .release button =>
    if held = {button} then .pointerup (g.event button) else .pointermove (g.event button)
  | .move => .pointermove (g.event (-1))
  | .cancel => .pointercancel (g.event (-1))

/-- The calls a gesture ends in: the client's message, if it sends one,
handled by the server. -/
def calls (d : Dimensions) (held : Finset Int32) : List SeatCall :=
  match WebClient.onPointer g.view (g.domPointer held) with
  | some message => mouseHandleEvent d message
  | none => []

end Gesture

/-- The buttons held, on the mouse and in the seat. -/
structure Held where
  physical : Finset Int32
  seat : Seat

namespace Held

/-- A gesture: what it sends is injected. -/
def step (d : Dimensions) (s : Held) (g : Gesture) : Held where
  physical := g.physical.apply s.physical
  seat := s.seat.run (g.calls d s.physical)

/-- A history of gestures. -/
def run (d : Dimensions) (s : Held) (history : List Gesture) : Held := history.foldl (step d) s

/-- At the start nothing is held. -/
def start : Held := ⟨∅, Seat.new⟩

/-- **The seat's buttons are the physical ones**, by their Linux codes. -/
def Tracks (s : Held) : Prop :=
  (∀ button ∈ s.physical, ∃ code, linuxButtonCode button = some code ∧ code ∈ s.seat.buttons) ∧
    ∀ code ∈ s.seat.buttons, ∃ button ∈ s.physical, linuxButtonCode button = some code

/-- Every step of the history is possible where it is made. -/
def Possible (d : Dimensions) (s : Held) : List Gesture → Prop
  | [] => True
  | g :: history => g.physical.Possible s.physical ∧ (s.step d g).Possible d history

/-- The steps the seat follows: a known button pressed with none held,
the only button held released, a cancel with none held, and moves. -/
def Simple (held : Finset Int32) : Physical → Prop
  | .press button => held = ∅ ∧ (linuxButtonCode button).isSome
  | .release button => held = {button}
  | .move => True
  | .cancel => held = ∅

/-- Every step of the history is such a step. -/
def SimpleSteps (d : Dimensions) (s : Held) : List Gesture → Prop
  | [] => True
  | g :: history => Simple s.physical g.physical ∧ (s.step d g).SimpleSteps d history

/-- The seat's buttons are the physical ones after every step. -/
def TracksThroughout (d : Dimensions) (s : Held) : List Gesture → Prop
  | [] => s.Tracks
  | g :: history => s.Tracks ∧ (s.step d g).TracksThroughout d history

variable {d : Dimensions} {s : Held} {g : Gesture} {button button' : Int32} {code : UInt32}

/-! ## What an event does to the buttons -/

/-- A code's button, read back. -/
theorem button_of_linuxButtonCode (h : linuxButtonCode button = some code) :
    button = if code = 0x110 then 0 else if code = 0x112 then 1 else if code = 0x111 then 2
      else if code = 0x113 then 3 else 4 := by
  unfold linuxButtonCode at h
  split_ifs at h with hb hb hb hb hb <;> obtain rfl := Option.some.inj h <;> exact hb

/-- Different known buttons have different codes. -/
theorem linuxButtonCode_inj (h : linuxButtonCode button = some code)
    (h' : linuxButtonCode button' = some code) : button = button' :=
  (button_of_linuxButtonCode h).trans (button_of_linuxButtonCode h').symm

theorem buttons_apply_of_none {seat : Seat} {c : SeatCall} (h : c.buttonEdge = none) :
    (seat.apply c).buttons = seat.buttons := by
  simp [Seat.apply, h]

/-- A press or release call changes its button, where that is known. -/
theorem buttons_buttonCall {seat : Seat} (button : Int32) (pressed : Bool) :
    (seat.run (buttonCall button pressed)).buttons =
      match linuxButtonCode button with
      | some code => if pressed then insert code seat.buttons else seat.buttons.erase code
      | none => seat.buttons := by
  unfold buttonCall
  cases linuxButtonCode button with
  | none => rfl
  | some code => cases pressed <;> rfl

/-- **What a pointer event does to the buttons**: a down presses, an up
releases, nothing else changes them. -/
theorem buttons_mouseHandleEvent (seat : Seat) (event : MouseEvent) :
    (seat.run (mouseHandleEvent d event)).buttons =
      match event with
      | .down p =>
        match linuxButtonCode p.button with
        | some code => insert code seat.buttons
        | none => seat.buttons
      | .up p =>
        match linuxButtonCode p.button with
        | some code => seat.buttons.erase code
        | none => seat.buttons
      | _ => seat.buttons := by
  cases event with
  | down p =>
    simp only [mouseHandleEvent, List.cons_append, Seat.run_cons, Seat.run_append, Seat.run_nil]
    rw [buttons_apply_of_none rfl, buttons_buttonCall, buttons_apply_of_none rfl]
    simp
  | up p =>
    simp only [mouseHandleEvent, List.cons_append, Seat.run_cons, Seat.run_append, Seat.run_nil]
    rw [buttons_apply_of_none rfl, buttons_buttonCall, buttons_apply_of_none rfl]
    simp
  | _ => rfl

/-- The message of an event changes no button where the event is a move,
locked or not. -/
theorem buttons_pointermove (seat : Seat) (v : PointerView) (e : DomPointerEvent) :
    (seat.run (match WebClient.onPointer v (.pointermove e) with
      | some message => mouseHandleEvent d message
      | none => [])).buttons = seat.buttons := by
  simp only [WebClient.onPointer]
  by_cases htouch : e.pointerType = "touch"
  · rw [if_pos htouch]
    rfl
  · rw [if_neg htouch]
    cases v.lockScale <;> exact buttons_mouseHandleEvent seat _

/-- What a step does to the buttons held in the seat. -/
theorem buttons_step : (s.step d g).seat.buttons =
    match g.physical with
    | .press button =>
      match linuxButtonCode button with
      | some code => if s.physical = ∅ then insert code s.seat.buttons else s.seat.buttons
      | none => s.seat.buttons
    | .release button =>
      match linuxButtonCode button with
      | some code => if s.physical = {button} then s.seat.buttons.erase code else s.seat.buttons
      | none => s.seat.buttons
    | _ => s.seat.buttons := by
  have hmouse : ¬ ("mouse" : String) = "touch" := by decide
  simp only [step, Gesture.calls, Gesture.domPointer]
  cases g.physical with
  | press button =>
    by_cases hempty : s.physical = ∅
    · simp only [if_pos hempty, WebClient.onPointer, Gesture.event, if_neg hmouse,
        buttons_mouseHandleEvent, WebClient.normalizedPointer]
    · simp only [if_neg hempty, buttons_pointermove]
      cases linuxButtonCode button <;> rfl
  | release button =>
    by_cases hlast : s.physical = {button}
    · simp only [if_pos hlast, WebClient.onPointer, Gesture.event, if_neg hmouse,
        buttons_mouseHandleEvent, WebClient.normalizedPointer]
    · simp only [if_neg hlast, buttons_pointermove]
      cases linuxButtonCode button <;> rfl
  | move => exact buttons_pointermove _ _ _
  | cancel =>
    rw [WebClient.onPointer, Gesture.event]
    rfl

/-! ## One step -/

/-- A simple step keeps the seat in step. -/
theorem Tracks.step (h : s.Tracks) (hsimple : Simple s.physical g.physical) :
    (s.step d g).Tracks := by
  have hbuttons := buttons_step (d := d) (s := s) (g := g)
  obtain ⟨hto, hfrom⟩ := h
  cases hg : g.physical with
  | press button =>
    rw [hg] at hsimple hbuttons
    -- the first button down comes as a pointerdown, which the seat gets
    obtain ⟨hempty, hknown⟩ := hsimple
    obtain ⟨code, hcode⟩ := Option.isSome_iff_exists.1 hknown
    simp only [hcode, hempty, if_true] at hbuttons
    have hphys : (s.step d g).physical = {button} := by
      simp [Held.step, hg, Physical.apply, hempty]
    refine ⟨fun b hb => ?_, fun c hc => ?_⟩
    · rw [hphys, Finset.mem_singleton] at hb
      exact ⟨code, by rw [hb, hcode], by rw [hbuttons]; exact Finset.mem_insert_self _ _⟩
    · rw [hbuttons, Finset.mem_insert] at hc
      refine ⟨button, by rw [hphys]; exact Finset.mem_singleton_self _, ?_⟩
      rcases hc with rfl | hc
      · exact hcode
      · obtain ⟨b, hb, -⟩ := hfrom c hc
        simp [hempty] at hb
  | release button =>
    rw [hg] at hsimple hbuttons
    -- the last button up comes as a pointerup that names it
    have hsingle : s.physical = {button} := hsimple
    obtain ⟨code, hcode, hmem⟩ := hto button (by simp [hsingle])
    simp only [hcode, hsingle, if_true] at hbuttons
    have hphys : (s.step d g).physical = ∅ := by
      simp [Held.step, hg, Physical.apply, hsingle]
    refine ⟨fun b hb => by simp [hphys] at hb, fun c hc => ?_⟩
    rw [hbuttons, Finset.mem_erase] at hc
    obtain ⟨b, hb, hbc⟩ := hfrom c hc.2
    rw [hsingle, Finset.mem_singleton] at hb
    rw [hb, hcode] at hbc
    exact absurd (Option.some.inj hbc).symm hc.1
  | move =>
    rw [hg] at hbuttons
    have hphys : (s.step d g).physical = s.physical := by simp [Held.step, hg, Physical.apply]
    rw [Tracks, hphys, hbuttons]
    exact ⟨hto, hfrom⟩
  | cancel =>
    rw [hg] at hsimple hbuttons
    have hempty : s.physical = ∅ := hsimple
    have hphys : (s.step d g).physical = s.physical := by
      simp [Held.step, hg, Physical.apply, hempty]
    rw [Tracks, hphys, hbuttons]
    exact ⟨hto, hfrom⟩

/-- **Any other step breaks it.** -/
theorem simple_of_tracks_step (h : s.Tracks) (hpossible : g.physical.Possible s.physical)
    (h' : (s.step d g).Tracks) : Simple s.physical g.physical := by
  have hbuttons := buttons_step (d := d) (s := s) (g := g)
  obtain ⟨hto, hfrom⟩ := h
  obtain ⟨hto', hfrom'⟩ := h'
  cases hg : g.physical with
  | press button =>
    rw [hg] at hpossible hbuttons
    have hphys : (s.step d g).physical = insert button s.physical := by
      simp [Held.step, hg, Physical.apply]
    obtain ⟨code, hcode, hmem⟩ := hto' button (by rw [hphys]; exact Finset.mem_insert_self _ _)
    refine ⟨?_, by rw [hcode]; rfl⟩
    by_contra hheld
    -- The press went by as a move, so its code was held before it, by another button.
    simp only [hcode, if_neg hheld] at hbuttons
    rw [hbuttons] at hmem
    obtain ⟨b, hb, hbc⟩ := hfrom code hmem
    rw [linuxButtonCode_inj hbc hcode] at hb
    exact hpossible hb
  | release button =>
    rw [hg] at hpossible hbuttons
    have hphys : (s.step d g).physical = s.physical.erase button := by
      simp [Held.step, hg, Physical.apply]
    -- a release that is not the last goes by as a move, so its code stays held
    obtain ⟨code, hcode, hmem⟩ := hto button hpossible
    by_contra hheld
    have hne : s.physical ≠ {button} := hheld
    simp only [hcode, if_neg hne] at hbuttons
    obtain ⟨b, hb, hbc⟩ := hfrom' code (by rw [hbuttons]; exact hmem)
    rw [linuxButtonCode_inj hbc hcode, hphys] at hb
    exact absurd rfl (Finset.mem_erase.1 hb).1
  | move => exact trivial
  | cancel =>
    rw [hg] at hbuttons
    have hphys : (s.step d g).physical = ∅ := by simp [Held.step, hg, Physical.apply]
    -- the seat changes nothing on a cancel, so whatever was held before it is held after it
    refine Finset.eq_empty_iff_forall_notMem.2 fun b hb => ?_
    obtain ⟨code, -, hmem⟩ := hto b hb
    obtain ⟨b', hb', -⟩ := hfrom' code (by rw [hbuttons]; exact hmem)
    simp [hphys] at hb'

/-! ## Histories -/

theorem tracksThroughout_iff (history : List Gesture) (h : s.Tracks)
    (hpossible : s.Possible d history) :
    s.TracksThroughout d history ↔ s.SimpleSteps d history := by
  induction history generalizing s with
  | nil => exact ⟨fun _ => trivial, fun _ => h⟩
  | cons g history ih =>
    constructor
    · rintro ⟨-, hrest⟩
      have hnext : (s.step d g).Tracks := by
        cases history with
        | nil => exact hrest
        | cons g' history => exact hrest.1
      exact ⟨simple_of_tracks_step h hpossible.1 hnext, (ih hnext hpossible.2).1 hrest⟩
    · rintro ⟨hsimple, hrest⟩
      exact ⟨h, (ih (h.step hsimple) hpossible.2).2 hrest⟩

/-- Throughout is after every part of the history that comes first. -/
theorem tracksThroughout_iff_run {history : List Gesture} : s.TracksThroughout d history ↔
    ∀ before after, history = before ++ after → (s.run d before).Tracks := by
  induction history generalizing s with
  | nil =>
    simp only [TracksThroughout, List.nil_eq, List.append_eq_nil_iff]
    exact ⟨fun h before after hb => by rw [hb.1]; exact h, fun h => h [] [] ⟨rfl, rfl⟩⟩
  | cons g history ih =>
    simp only [TracksThroughout, ih]
    constructor
    · rintro ⟨hs, hrest⟩ before after hl
      cases before with
      | nil => exact hs
      | cons g' before =>
        rw [List.cons_append, List.cons.injEq] at hl
        obtain ⟨rfl, hl⟩ := hl
        exact hrest before after hl
    · intro h
      exact ⟨h [] (g :: history) rfl, fun before after hl =>
        h (g :: before) after (by rw [hl]; rfl)⟩

theorem start_tracks : start.Tracks :=
  ⟨fun _ h => absurd h (Finset.notMem_empty _), fun _ h => absurd h (Finset.notMem_empty _)⟩

/-- **When the seat's buttons are the physical ones.** For every history
a mouse can make: after each of its steps the seat holds the buttons that
are physically held, and none after a cancel, exactly when every step is
a press of a known button with none held, a release of the only button
held, a cancel with none held, or a move. -/
theorem buttons_track_iff (d : Dimensions) (history : List Gesture)
    (hpossible : start.Possible d history) :
    (∀ before after, history = before ++ after →
      (start.run d before).Tracks ∧
        ∀ earlier g, before = earlier ++ [g] → g.physical = .cancel →
          (start.run d before).seat.buttons = ∅) ↔
      start.SimpleSteps d history := by
  rw [← tracksThroughout_iff history start_tracks hpossible]
  rw [tracksThroughout_iff_run]
  refine ⟨fun h before after hl => (h before after hl).1, fun h before after hl =>
    ⟨h before after hl, ?_⟩⟩
  rintro earlier g rfl hg
  have htracks := h _ after hl
  have hempty : (start.run d (earlier ++ [g])).physical = ∅ := by
    rw [run, List.foldl_concat]
    simp [step, hg, Physical.apply]
  refine Finset.eq_empty_iff_forall_notMem.2 fun code hcode => ?_
  obtain ⟨b, hb, -⟩ := htracks.2 code hcode
  simp [hempty] at hb

/-- A gesture of the mouse at a quarter of a canvas. -/
def gesture (physical : Physical) : Gesture :=
  ⟨physical, ⟨⟨0, 0, 100, 100, none⟩, none⟩, 25, 25, 0, 0, 0.5⟩

/-- A click is followed. -/
theorem buttons_track_click :
    start.SimpleSteps ⟨1920, 1080⟩ [gesture (.press 0), gesture (.release 0)] ∧
      (start.run ⟨1920, 1080⟩ [gesture (.press 0)]).Tracks := by
  have hsimple : start.SimpleSteps ⟨1920, 1080⟩ [gesture (.press 0), gesture (.release 0)] :=
    ⟨⟨rfl, rfl⟩, by rw [gesture]; rfl, trivial⟩
  have hpossible : start.Possible ⟨1920, 1080⟩ [gesture (.press 0), gesture (.release 0)] :=
    ⟨Finset.notMem_empty _, Finset.mem_insert_self _ _, trivial⟩
  exact ⟨hsimple, ((buttons_track_iff _ _ hpossible).2 hsimple [gesture (.press 0)] _ rfl).1⟩

/-- **A chord leaves a button behind**: left down, right down, left up,
right up. Nothing is held on the mouse, and the seat holds the left
button. -/
theorem chord_leaves_left_held :
    let history := [gesture (.press 0), gesture (.press 2), gesture (.release 0),
      gesture (.release 2)]
    start.Possible ⟨1920, 1080⟩ history ∧
      (start.run ⟨1920, 1080⟩ history).physical = ∅ ∧
      (start.run ⟨1920, 1080⟩ history).seat.buttons = {0x110} := by
  refine ⟨⟨Finset.notMem_empty _, ?_, ?_, ?_, trivial⟩, by decide +kernel, by decide +kernel⟩
  · decide +kernel
  · decide +kernel
  · decide +kernel

end Held

end Input

end WaylandWebStream
