import WaylandWebStream.Lib.Latest
import WaylandWebStream.Input.Channels

/-!
# Input — the seat, read off the messages injected

The seat after any sequence of messages, one part at a time: the keys and
the buttons held are what the presses and releases among the messages
leave held, the pointer is where the latest message that moves it put it,
and a touch point is what its contact's own messages make of it. Each
part comes from the calls of one handler, the other handlers' calls
leaving it alone.
-/

namespace WaylandWebStream

namespace Input

open Latest

/-! ## Calls and the parts of the seat -/

/-- The seat capability a call is made on. -/
def SeatCall.device : SeatCall → Device
  | touchDown _ _ | touchMotion _ _ | touchUp _ | touchFrame | touchCancel => .touch
  | pointerMotion _ | pointerButton _ _ | pointerAxis _ _ | pointerRelativeMotion _ _
  | pointerFrame => .pointer
  | key _ _ => .key

/-- Where a call moves the pointer. -/
def SeatCall.motion : SeatCall → Option Position
  | pointerMotion location => some location
  | _ => none

variable {c : SeatCall} {calls : List SeatCall} {seat : Seat} {h : Handlers} {m : InputMessage}
variable {d : Dimensions}

theorem keyEdge_of_device (hc : c.device ≠ .key) : c.keyEdge = none := by
  cases c <;> first | rfl | exact absurd rfl hc

theorem buttonEdge_of_device (hc : c.device ≠ .pointer) : c.buttonEdge = none := by
  cases c <;> first | rfl | exact absurd rfl hc

theorem motion_of_device (hc : c.device ≠ .pointer) : c.motion = none := by
  cases c <;> first | rfl | exact absurd rfl hc

theorem touchPoints_of_device {touches : UInt32 → Option Position} (hc : c.device ≠ .touch) :
    Seat.touchPoints touches c = touches := by
  cases c <;> first | rfl | exact absurd rfl hc

theorem run_keys : (seat.run calls).keys = (calls.filterMap (·.keyEdge)).foldl Edge.apply seat.keys := by
  induction calls generalizing seat with
  | nil => rfl
  | cons c calls ih =>
    rw [Seat.run_cons, ih, List.filterMap_cons]
    simp only [Seat.apply]
    cases c.keyEdge <;> rfl

theorem run_buttons :
    (seat.run calls).buttons = (calls.filterMap (·.buttonEdge)).foldl Edge.apply seat.buttons := by
  induction calls generalizing seat with
  | nil => rfl
  | cons c calls ih =>
    rw [Seat.run_cons, ih, List.filterMap_cons]
    simp only [Seat.apply]
    cases c.buttonEdge <;> rfl

theorem run_pointer : (seat.run calls).pointer = (latest SeatCall.motion calls).or seat.pointer := by
  induction calls generalizing seat with
  | nil => rfl
  | cons c calls ih =>
    rw [Seat.run_cons, ih, latest_cons, Option.or_assoc]
    congr 1
    cases c <;> rfl

theorem run_touches_of_device (hcalls : ∀ c ∈ calls, c.device ≠ .touch) :
    (seat.run calls).touches = seat.touches := by
  induction calls generalizing seat with
  | nil => rfl
  | cons c calls ih =>
    rw [Seat.run_cons, ih fun c' hc' => hcalls c' (List.mem_cons_of_mem _ hc')]
    exact touchPoints_of_device (hcalls c List.mem_cons_self)

/-! ## One message -/

theorem forTouches_device {point : TouchHandler → TouchPoint → TouchHandler × List SeatCall}
    (hpoint : ∀ h t, ∀ c ∈ (point h t).2, c.device = .touch) (th : TouchHandler)
    (touches : List TouchPoint) : ∀ c ∈ (TouchHandler.forTouches point th touches).2,
      c.device = .touch := by
  induction touches generalizing th with
  | nil => exact fun _ hc => absurd hc List.not_mem_nil
  | cons t touches ih =>
    intro c hc
    rcases List.mem_append.1 hc with hc | hc
    · exact hpoint th t c hc
    · exact ih _ c hc

theorem handleEvent_device (th : TouchHandler) (event : TouchEvent) :
    ∀ c ∈ (th.handleEvent event).2, c.device = .touch := by
  have hstart : ∀ (h : TouchHandler) (t : TouchPoint), ∀ c ∈ (h.startPoint t).2,
      c.device = .touch := by
    intro h t c hc
    rw [List.mem_singleton.1 hc]
    rfl
  have hmove : ∀ (h : TouchHandler) (t : TouchPoint), ∀ c ∈ (h.movePoint t).2,
      c.device = .touch := by
    intro h t c hc
    unfold TouchHandler.movePoint at hc
    split at hc
    · rw [List.mem_singleton.1 hc]
      rfl
    · exact absurd hc List.not_mem_nil
  have hend : ∀ (h : TouchHandler) (t : TouchPoint), ∀ c ∈ (h.endPoint t).2,
      c.device = .touch := by
    intro h t c hc
    unfold TouchHandler.endPoint at hc
    split at hc
    · rw [List.mem_singleton.1 hc]
      rfl
    · exact absurd hc List.not_mem_nil
  have hframe : ∀ {calls : List SeatCall}, (∀ c ∈ calls, c.device = .touch) →
      ∀ c ∈ calls ++ [.touchFrame], c.device = .touch := by
    intro calls hcalls c hc
    rcases List.mem_append.1 hc with hc | hc
    · exact hcalls c hc
    · rw [List.mem_singleton.1 hc]
      rfl
  intro c hc
  cases event with
  | touchcancel touches => rw [List.mem_singleton.1 hc]; rfl
  | touchstart touches => exact hframe (forTouches_device hstart th touches) c hc
  | touchmove touches => exact hframe (forTouches_device hmove th touches) c hc
  | touchend touches => exact hframe (forTouches_device hend th touches) c hc

theorem buttonCall_device {button : Int32} {pressed : Bool} :
    ∀ c ∈ buttonCall button pressed, c.device = .pointer := by
  intro c hc
  unfold buttonCall at hc
  split at hc
  · rw [List.mem_singleton.1 hc]
    rfl
  · exact absurd hc List.not_mem_nil

/-- A press or release comes after its motion and before its frame. -/
theorem buttonCalls_device {location : Position} {button : Int32} {pressed : Bool} :
    ∀ c ∈ .pointerMotion location :: buttonCall button pressed ++ [.pointerFrame],
      c.device = .pointer := by
  intro c hc
  rcases List.mem_append.1 hc with hc | hc
  · rcases List.mem_cons.1 hc with rfl | hc
    · rfl
    · exact buttonCall_device c hc
  · rw [List.mem_singleton.1 hc]
    rfl

/-- **A message's calls are on its own device.** -/
theorem handle_device (h : Handlers) (m : InputMessage) :
    ∀ c ∈ (h.handle m).2, c.device = m.device := by
  intro c hc
  cases m with
  | touch event => exact handleEvent_device h.touch event c hc
  | pointer event =>
    cases event with
    | down p => exact buttonCalls_device c hc
    | up p => exact buttonCalls_device c hc
    | move p =>
      simp only [Handlers.handle, mouseHandleEvent, List.mem_cons, List.not_mem_nil, or_false] at hc
      rcases hc with rfl | rfl <;> rfl
    | cancel p => exact absurd hc List.not_mem_nil
    | wheel x y deltaX deltaY =>
      simp only [Handlers.handle, mouseHandleEvent, List.mem_cons, List.not_mem_nil, or_false] at hc
      rcases hc with rfl | rfl | rfl <;> rfl
    | relative dx dy =>
      simp only [Handlers.handle, mouseHandleEvent, List.mem_cons, List.not_mem_nil, or_false] at hc
      rcases hc with rfl | rfl <;> rfl
  | key event =>
    simp only [Handlers.handle, keyboardHandleEvent] at hc
    split at hc
    · rw [List.mem_singleton.1 hc]
      rfl
    · exact absurd hc List.not_mem_nil

namespace InputMessage

/-- The key a message presses or releases, in XKB numbering. -/
def keyEdge : InputMessage → Option (Edge UInt32)
  | .key (.down code) => (evdevKeycode code).map fun keycode => .press (keycode + 8)
  | .key (.up code) => (evdevKeycode code).map fun keycode => .release (keycode + 8)
  | _ => none

/-- The button a message presses or releases. -/
def buttonEdge : InputMessage → Option (Edge UInt32)
  | .pointer (.down p) => (linuxButtonCode p.button).map .press
  | .pointer (.up p) => (linuxButtonCode p.button).map .release
  | _ => none

/-- Where a message moves the pointer. -/
def pointerMove (d : Dimensions) : InputMessage → Option Position
  | .pointer (.down p) | .pointer (.move p) | .pointer (.up p) =>
    some (d.toCompositorCoords p.x p.y)
  | .pointer (.wheel x y _ _) => some (d.toCompositorCoords x y)
  | _ => none

/-- The touch event of a message. -/
def touchEvent : InputMessage → Option TouchEvent
  | .touch event => some event
  | _ => none

end InputMessage

/-- A message's calls on another device say nothing. -/
theorem filterMap_handle_of_device {α : Type} {f : SeatCall → Option α} {device : Device}
    (hf : ∀ c : SeatCall, c.device ≠ device → f c = none) (hm : m.device ≠ device) :
    (h.handle m).2.filterMap f = [] := by
  refine List.filterMap_eq_nil_iff.2 fun c hc => hf c ?_
  rw [handle_device h m c hc]
  exact hm

theorem filterMap_keyEdge : (h.handle m).2.filterMap (·.keyEdge) = m.keyEdge.toList := by
  cases m with
  | key event =>
    cases event with
    | down code =>
      simp only [Handlers.handle, keyboardHandleEvent, InputMessage.keyEdge]
      cases evdevKeycode code <;> rfl
    | up code =>
      simp only [Handlers.handle, keyboardHandleEvent, InputMessage.keyEdge]
      cases evdevKeycode code <;> rfl
  | touch event => exact filterMap_handle_of_device (fun _ => keyEdge_of_device) nofun
  | pointer event => exact filterMap_handle_of_device (fun _ => keyEdge_of_device) nofun

theorem filterMap_buttonCall {button : Int32} {pressed : Bool} :
    (buttonCall button pressed).filterMap (·.buttonEdge) =
      ((linuxButtonCode button).map fun code =>
        if pressed then Edge.press code else Edge.release code).toList := by
  unfold buttonCall
  cases linuxButtonCode button <;> cases pressed <;> rfl

theorem filterMap_buttonEdge : (h.handle m).2.filterMap (·.buttonEdge) = m.buttonEdge.toList := by
  cases m with
  | pointer event =>
    cases event with
    | down p =>
      simp only [Handlers.handle, mouseHandleEvent, List.cons_append, List.filterMap_cons,
        List.filterMap_append, filterMap_buttonCall, InputMessage.buttonEdge]
      simp [SeatCall.buttonEdge]
    | up p =>
      simp only [Handlers.handle, mouseHandleEvent, List.cons_append, List.filterMap_cons,
        List.filterMap_append, filterMap_buttonCall, InputMessage.buttonEdge]
      simp [SeatCall.buttonEdge]
    | _ => rfl
  | touch event => exact filterMap_handle_of_device (fun _ => buttonEdge_of_device) nofun
  | key event => exact filterMap_handle_of_device (fun _ => buttonEdge_of_device) nofun

theorem latest_motion : latest SeatCall.motion (h.handle m).2 = m.pointerMove h.mouse := by
  have hbutton : ∀ (button : Int32) (pressed : Bool),
      latest SeatCall.motion (buttonCall button pressed) = none := by
    intro button pressed
    unfold buttonCall
    cases linuxButtonCode button <;> rfl
  cases m with
  | pointer event =>
    cases event with
    | down p =>
      simp only [Handlers.handle, mouseHandleEvent, List.cons_append, latest_cons, latest_append,
        hbutton]
      rfl
    | up p =>
      simp only [Handlers.handle, mouseHandleEvent, List.cons_append, latest_cons, latest_append,
        hbutton]
      rfl
    | _ => rfl
  | touch event =>
    have hother : (InputMessage.touch event).device ≠ .pointer := fun h => by cases h
    rw [latest, filterMap_handle_of_device (fun _ => motion_of_device) hother]
    rfl
  | key event =>
    have hother : (InputMessage.key event).device ≠ .pointer := fun h => by cases h
    rw [latest, filterMap_handle_of_device (fun _ => motion_of_device) hother]
    rfl

/-! ## A sequence of messages -/

section Inject

variable {hs : Handlers × Seat} {messages : List InputMessage}

@[simp] theorem inject_nil : Handlers.inject hs [] = hs := rfl

theorem inject_cons : Handlers.inject hs (m :: messages) =
    Handlers.inject ((hs.1.handle m).1, hs.2.run (hs.1.handle m).2) messages := rfl

/-- **The keys held** are those the messages leave held. -/
theorem inject_keys : (Handlers.inject hs messages).2.keys =
    (messages.filterMap (·.keyEdge)).foldl Edge.apply hs.2.keys := by
  induction messages generalizing hs with
  | nil => rfl
  | cons m messages ih =>
    rw [inject_cons, ih, run_keys, filterMap_keyEdge, List.filterMap_cons]
    cases m.keyEdge <;> rfl

/-- **The buttons held** are those the messages leave held. -/
theorem inject_buttons : (Handlers.inject hs messages).2.buttons =
    (messages.filterMap (·.buttonEdge)).foldl Edge.apply hs.2.buttons := by
  induction messages generalizing hs with
  | nil => rfl
  | cons m messages ih =>
    rw [inject_cons, ih, run_buttons, filterMap_buttonEdge, List.filterMap_cons]
    cases m.buttonEdge <;> rfl

theorem handle_mouse : (h.handle m).1.mouse = h.mouse := by cases m <;> rfl

/-- **The pointer** is where the latest move put it. -/
theorem inject_pointer : (Handlers.inject hs messages).2.pointer =
    (latest (·.pointerMove hs.1.mouse) messages).or hs.2.pointer := by
  induction messages generalizing hs with
  | nil => rfl
  | cons m messages ih =>
    rw [inject_cons, ih, handle_mouse, run_pointer, latest_motion, latest_cons, Option.or_assoc]

variable (hs messages) in
/-- The touch handler sees the touch events only. -/
theorem inject_touch : (Handlers.inject hs messages).1.touch =
    (hs.1.touch.run (messages.filterMap (·.touchEvent))).1 := by
  induction messages generalizing hs with
  | nil => rfl
  | cons m messages ih =>
    rw [inject_cons, ih]
    cases m <;> rfl

variable (messages) in
/-- **The touch points** are the contacts the touch events leave. -/
theorem inject_agrees (hagrees : hs.1.touch.Agrees hs.2) :
    (Handlers.inject hs messages).1.touch.Agrees (Handlers.inject hs messages).2 := by
  induction messages generalizing hs with
  | nil => exact hagrees
  | cons m messages ih =>
    rw [inject_cons]
    refine ih ?_
    cases m with
    | touch event => exact TouchHandler.handleEvent_agrees hagrees
    | pointer event =>
      intro id
      have hsame : (hs.2.run (hs.1.handle (.pointer event)).2).touches = hs.2.touches :=
        run_touches_of_device fun c hc => by
          rw [handle_device _ _ c hc]
          exact nofun
      exact (congrFun hsame _).trans (hagrees id)
    | key event =>
      intro id
      have hsame : (hs.2.run (hs.1.handle (.key event)).2).touches = hs.2.touches :=
        run_touches_of_device fun c hc => by
          rw [handle_device _ _ c hc]
          exact nofun
      exact (congrFun hsame _).trans (hagrees id)

end Inject

/-! ## In a run -/

variable {s : State}

/-- What only one device's messages say is said by that device's. -/
theorem filterMap_filter_goesTo {α : Type*} {f : Entry → Option α} {device : Device}
    (hf : ∀ e : Entry, e.message.device ≠ device → f e = none) (l : List Entry) :
    (l.filter (Entry.goesTo device)).filterMap f = l.filterMap f := by
  rw [List.filterMap_filter]
  refine List.filterMap_congr fun e _ => ?_
  by_cases he : e.message.device = device
  · simp [Entry.goesTo, he]
  · simp [Entry.goesTo, he, hf e he]

/-- **What the loop saw of a device** once drained: the messages its
channel took, in the order they were dispatched. -/
theorem Accounted.filterMap_injected (h : Accounted d s) (hdrained : s.Drained) {α : Type*}
    {f : Entry → Option α} (device : Device)
    (hf : ∀ e : Entry, e.message.device ≠ device → f e = none) :
    s.injected.filterMap f = (s.log.filter Entry.accepted).filterMap f := by
  rw [← filterMap_filter_goesTo hf s.injected, h.injected_eq hdrained, ← filter_goesTo_accepted,
    filterMap_filter_goesTo hf]

/-- The keys held in a run. -/
theorem Accounted.keys (h : Accounted d s) :
    s.seat.keys = Edge.held (s.injected.filterMap (·.message.keyEdge)) := by
  have hkeys := congrArg (fun hs => hs.2.keys) h.seat_eq
  simp only [inject_keys, List.filterMap_map] at hkeys
  exact hkeys

/-- The buttons held in a run. -/
theorem Accounted.buttons (h : Accounted d s) :
    s.seat.buttons = Edge.held (s.injected.filterMap (·.message.buttonEdge)) := by
  have hbuttons := congrArg (fun hs => hs.2.buttons) h.seat_eq
  simp only [inject_buttons, List.filterMap_map] at hbuttons
  exact hbuttons

/-- The pointer in a run. -/
theorem Accounted.pointer (h : Accounted d s) :
    s.seat.pointer = latest (·.message.pointerMove d) s.injected := by
  have hpointer := congrArg (fun hs => hs.2.pointer) h.seat_eq
  simp only [inject_pointer, latest_map] at hpointer
  rw [hpointer]
  exact Option.or_none

/-- The touch points in a run. -/
theorem Accounted.touches (h : Accounted d s) (id : Int32) :
    s.seat.touches id.toUInt32 =
      (((TouchHandler.new d).run (s.injected.filterMap (·.message.touchEvent))).1.activeTouches
        id).map (·.location) := by
  have hseat := congrArg (fun hs => hs.2.touches id.toUInt32) h.seat_eq
  have hnew : (Handlers.new d, Seat.new).1.touch.Agrees (Handlers.new d, Seat.new).2 :=
    TouchHandler.new_agrees d
  have hagrees := inject_agrees (s.injected.map (·.message)) hnew id
  have htouch := inject_touch (Handlers.new d, Seat.new) (s.injected.map (·.message))
  rw [htouch, List.filterMap_map] at hagrees
  exact hseat.trans hagrees

end Input

end WaylandWebStream
