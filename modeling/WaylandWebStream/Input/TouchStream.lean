import WaylandWebStream.Input.Model

/-!
# Input — the touch stream a client's events make

The calls the touch handler makes on the seat, for any sequence of touch
events: the points that are down in the seat are the contacts the handler
tracks, moves and ends reach such points only, and a cancel leaves none.
What may go wrong is a start: it puts down every contact it lists, so the
stream is well formed exactly when each start lists contacts that are not
tracked yet, which the events alone decide. The web client lists every contact on the screen in a start,
where its move and end handlers list what they should.
-/

namespace WaylandWebStream

namespace Input

/-! ## Well-formed streams -/

/-- The call may be made of the touch points it finds: a down of one that
is up, a motion or an up of one that is down. -/
def Admissible (touches : UInt32 → Option Position) : SeatCall → Prop
  | .touchDown slot _ => touches slot = none
  | .touchMotion slot _ | .touchUp slot => (touches slot).isSome
  | _ => True

/-- Every call is admissible where it is made. -/
def WellFormed (s : Seat) : List SeatCall → Prop
  | [] => True
  | c :: calls => Admissible s.touches c ∧ WellFormed (s.apply c) calls

/-- The contacts can be started: they are different, and none is tracked. -/
def Fresh (active : Int32 → Option TouchState) (touches : List TouchPoint) : Prop :=
  (touches.map (·.identifier)).Nodup ∧ ∀ t ∈ touches, active t.identifier = none

namespace Seat

@[simp] theorem run_nil (s : Seat) : s.run [] = s := rfl

@[simp] theorem run_cons (s : Seat) (c : SeatCall) (calls : List SeatCall) :
    s.run (c :: calls) = (s.apply c).run calls := rfl

theorem run_append (s : Seat) (xs ys : List SeatCall) :
    s.run (xs ++ ys) = (s.run xs).run ys := List.foldl_append ..

end Seat

theorem wellFormed_append {s : Seat} {xs ys : List SeatCall} :
    WellFormed s (xs ++ ys) ↔ WellFormed s xs ∧ WellFormed (s.run xs) ys := by
  induction xs generalizing s with
  | nil => simp [WellFormed]
  | cons c xs ih =>
    simp only [List.cons_append, WellFormed, Seat.run_cons, ih]
    exact and_assoc.symm

namespace TouchHandler

variable {h : TouchHandler} {s : Seat} {t : TouchPoint} {touches : List TouchPoint}
variable {event : TouchEvent} {events : List TouchEvent}

/-- **The seat's points are the handler's contacts**, each where the
handler last put it. -/
def Agrees (h : TouchHandler) (s : Seat) : Prop :=
  ∀ id : Int32, s.touches id.toUInt32 = (h.activeTouches id).map (·.location)

/-- A sequence of events: the handler after it, and the calls it made. -/
def run (h : TouchHandler) : List TouchEvent → TouchHandler × List SeatCall
  | [] => (h, [])
  | event :: events =>
    let (h', calls) := h.handleEvent event
    let (h'', rest) := h'.run events
    (h'', calls ++ rest)

/-! ## One contact -/

theorem startPoint_agrees (hs : h.Agrees s) :
    (h.startPoint t).1.Agrees (s.run (h.startPoint t).2) := by
  intro id
  by_cases hid : id = t.identifier
  · simp [startPoint, Seat.apply, hid]
  · have hslot : id.toUInt32 ≠ t.identifier.toUInt32 := fun h => hid (toUInt32_injective h)
    simp [startPoint, Seat.apply, hid, hslot, hs id]

theorem movePoint_agrees (hs : h.Agrees s) :
    (h.movePoint t).1.Agrees (s.run (h.movePoint t).2) := by
  cases hactive : h.activeTouches t.identifier with
  | none => simpa [movePoint, hactive] using hs
  | some st =>
    intro id
    by_cases hid : id = t.identifier
    · simp [movePoint, hactive, Seat.apply, hid, hs t.identifier]
    · have hslot : id.toUInt32 ≠ t.identifier.toUInt32 := fun h => hid (toUInt32_injective h)
      simp [movePoint, hactive, Seat.apply, hid, hslot, hs id]

theorem endPoint_agrees (hs : h.Agrees s) :
    (h.endPoint t).1.Agrees (s.run (h.endPoint t).2) := by
  cases hactive : h.activeTouches t.identifier with
  | none => simpa [endPoint, hactive] using hs
  | some st =>
    intro id
    by_cases hid : id = t.identifier
    · simp [endPoint, hactive, Seat.apply, hid]
    · have hslot : id.toUInt32 ≠ t.identifier.toUInt32 := fun h => hid (toUInt32_injective h)
      simp [endPoint, hactive, Seat.apply, hid, hslot, hs id]

/-- A motion is of a point that is down. -/
theorem movePoint_wellFormed (hs : h.Agrees s) : WellFormed s (h.movePoint t).2 := by
  cases hactive : h.activeTouches t.identifier with
  | none => simp [movePoint, hactive, WellFormed]
  | some st => simp [movePoint, hactive, WellFormed, Admissible, hs t.identifier]

/-- So is an up. -/
theorem endPoint_wellFormed (hs : h.Agrees s) : WellFormed s (h.endPoint t).2 := by
  cases hactive : h.activeTouches t.identifier with
  | none => simp [endPoint, hactive, WellFormed]
  | some st => simp [endPoint, hactive, WellFormed, Admissible, hs t.identifier]

/-! ## One event -/

section ForTouches

variable {point : TouchHandler → TouchPoint → TouchHandler × List SeatCall}

/-- What one contact keeps, the loop over the contacts keeps. -/
theorem forTouches_agrees
    (hpoint : ∀ h s t, Agrees h s → (point h t).1.Agrees (s.run (point h t).2))
    (hs : h.Agrees s) : (forTouches point h touches).1.Agrees (s.run (forTouches point h touches).2) := by
  induction touches generalizing h s with
  | nil => exact hs
  | cons t touches ih =>
    simp only [forTouches, Seat.run_append]
    exact ih (hpoint h s t hs)

theorem forTouches_wellFormed
    (hpoint : ∀ h s t, Agrees h s → (point h t).1.Agrees (s.run (point h t).2))
    (hwell : ∀ h s t, Agrees h s → WellFormed s (point h t).2) (hs : h.Agrees s) :
    WellFormed s (forTouches point h touches).2 := by
  induction touches generalizing h s with
  | nil => exact trivial
  | cons t touches ih =>
    simp only [forTouches]
    exact wellFormed_append.2 ⟨hwell h s t hs, ih (hpoint h s t hs)⟩

end ForTouches

/-- **A start is well formed exactly when its contacts are fresh.** -/
theorem start_wellFormed_iff (hs : h.Agrees s) :
    WellFormed s (forTouches startPoint h touches).2 ↔ Fresh h.activeTouches touches := by
  induction touches generalizing h s with
  | nil => simp [forTouches, WellFormed, Fresh]
  | cons t touches ih =>
    have htail := ih (startPoint_agrees (t := t) hs)
    simp only [forTouches, wellFormed_append, htail]
    simp only [startPoint, WellFormed, Admissible, hs t.identifier, Option.map_eq_none_iff, and_true,
      Fresh, List.map_cons, List.nodup_cons, List.mem_map, List.forall_mem_cons]
    constructor
    · rintro ⟨hnew, hnodup, hrest⟩
      refine ⟨⟨?_, hnodup⟩, hnew, fun u hu => ?_⟩
      · -- A contact listed again is tracked by the time it comes up.
        rintro ⟨u, hu, hid⟩
        have hnone := hrest u hu
        simp [hid] at hnone
      · have hnone := hrest u hu
        by_cases hid : u.identifier = t.identifier
        · rw [hid]
          exact hnew
        · simpa [hid] using hnone
    · rintro ⟨⟨hnot, hnodup⟩, hnew, hrest⟩
      refine ⟨hnew, hnodup, fun u hu => ?_⟩
      have hid : u.identifier ≠ t.identifier := fun hid => hnot ⟨u, hu, hid⟩
      simpa [hid] using hrest u hu

/-- An event keeps the seat and the handler in step. -/
theorem handleEvent_agrees (hs : h.Agrees s) :
    (h.handleEvent event).1.Agrees (s.run (h.handleEvent event).2) := by
  cases event with
  | touchstart touches =>
    simp only [handleEvent, Seat.run_append]
    exact forTouches_agrees (fun _ _ _ => startPoint_agrees) hs
  | touchmove touches =>
    simp only [handleEvent, Seat.run_append]
    exact forTouches_agrees (fun _ _ _ => movePoint_agrees) hs
  | touchend touches =>
    simp only [handleEvent, Seat.run_append]
    exact forTouches_agrees (fun _ _ _ => endPoint_agrees) hs
  | touchcancel touches => exact fun _ => rfl

/-- The event lists only fresh contacts, if it is a start. -/
def FreshStart (h : TouchHandler) : TouchEvent → Prop
  | .touchstart touches => Fresh h.activeTouches touches
  | _ => True

/-- An event's calls are well formed exactly when its start is fresh. -/
theorem handleEvent_wellFormed_iff (hs : h.Agrees s) :
    WellFormed s (h.handleEvent event).2 ↔ h.FreshStart event := by
  cases event with
  | touchstart touches =>
    simp only [handleEvent, wellFormed_append, start_wellFormed_iff hs]
    simp [FreshStart, WellFormed, Admissible]
  | touchmove touches =>
    simp only [handleEvent, wellFormed_append]
    have hwell : WellFormed s (forTouches movePoint h touches).2 :=
      forTouches_wellFormed (fun _ _ _ => movePoint_agrees) (fun _ _ _ => movePoint_wellFormed) hs
    simp [FreshStart, WellFormed, Admissible, hwell]
  | touchend touches =>
    simp only [handleEvent, wellFormed_append]
    have hwell : WellFormed s (forTouches endPoint h touches).2 :=
      forTouches_wellFormed (fun _ _ _ => endPoint_agrees) (fun _ _ _ => endPoint_wellFormed) hs
    simp [FreshStart, WellFormed, Admissible, hwell]
  | touchcancel touches => simp [handleEvent, FreshStart, WellFormed, Admissible]

/-! ## Runs -/

/-- Every start lists only fresh contacts when it is handled. -/
def FreshStarts (h : TouchHandler) : List TouchEvent → Prop
  | [] => True
  | event :: events => h.FreshStart event ∧ (h.handleEvent event).1.FreshStarts events

/-- A run keeps the seat and the handler in step. -/
theorem run_agrees (hs : h.Agrees s) : (h.run events).1.Agrees (s.run (h.run events).2) := by
  induction events generalizing h s with
  | nil => exact hs
  | cons event events ih =>
    simp only [run, Seat.run_append]
    exact ih (handleEvent_agrees hs)

theorem run_wellFormed_iff (hs : h.Agrees s) :
    WellFormed s (h.run events).2 ↔ h.FreshStarts events := by
  induction events generalizing h s with
  | nil => simp [run, WellFormed, FreshStarts]
  | cons event events ih =>
    simp only [run, wellFormed_append, FreshStarts, handleEvent_wellFormed_iff hs,
      ih (handleEvent_agrees hs)]

/-- The handler starts in step with a seat nothing is down in. -/
theorem new_agrees (d : Dimensions) : (new d).Agrees Seat.new := fun _ => rfl

/-- **The stream is well formed exactly when every start is fresh.** For
every sequence of events: each down is of a point that is up, each motion
and up of one that is down, and after every event the points that are
down are the contacts tracked, none after a cancel. -/
theorem touch_stream_wellFormed_iff (d : Dimensions) (events : List TouchEvent) :
    (WellFormed Seat.new ((new d).run events).2 ∧
      ∀ before after, events = before ++ after →
        (∀ id : Int32, ((Seat.new.run ((new d).run before).2).touches id.toUInt32).isSome ↔
          (((new d).run before).1.activeTouches id).isSome) ∧
        ∀ earlier touches, before = earlier ++ [.touchcancel touches] →
          ∀ slot, (Seat.new.run ((new d).run before).2).touches slot = none) ↔
      (new d).FreshStarts events := by
  rw [run_wellFormed_iff (new_agrees d)]
  refine and_iff_left_iff_imp.2 fun _ before after _ => ⟨fun id => ?_, ?_⟩
  · rw [run_agrees (new_agrees d) id, Option.isSome_map]
  · rintro earlier touches rfl slot
    have hcancel : ∀ (h : TouchHandler) (s : Seat) (l : List TouchEvent),
        (s.run (h.run (l ++ [.touchcancel touches])).2).touches slot = none := by
      intro h s l
      induction l generalizing h s with
      | nil => rfl
      | cons event l ih =>
        simp only [List.cons_append, run, Seat.run_append]
        exact ih _ _
    exact hcancel _ _ _

/-! ## The events alone -/

section Events

variable {held : List Int32} {id : Int32}

/-- The contacts an event starts. -/
def started : TouchEvent → List Int32
  | .touchstart touches => touches.map (·.identifier)
  | _ => []

/-- The contacts held after an event, told from those held before it. -/
def heldAfter (held : List Int32) : TouchEvent → List Int32
  | .touchstart touches => touches.map (·.identifier) ++ held
  | .touchmove _ => held
  | .touchend touches => held.filter (· ∉ touches.map (·.identifier))
  | .touchcancel _ => []

/-- Each start lists different contacts, none of which the events before it
leave held. -/
def StartsApart (held : List Int32) : List TouchEvent → Prop
  | [] => True
  | event :: events =>
    ((started event).Nodup ∧ ∀ id ∈ started event, id ∉ held) ∧
      StartsApart (heldAfter held event) events

/-- The handler tracks just these contacts. -/
def Tracks (h : TouchHandler) (held : List Int32) : Prop :=
  ∀ id, (h.activeTouches id).isSome ↔ id ∈ held

theorem isSome_starts : ((forTouches startPoint h touches).1.activeTouches id).isSome ↔
    id ∈ touches.map (·.identifier) ∨ (h.activeTouches id).isSome := by
  induction touches generalizing h with
  | nil => simp [forTouches]
  | cons t touches ih =>
    simp only [forTouches, ih, List.map_cons, List.mem_cons]
    by_cases hid : id = t.identifier
    · simp [startPoint, hid]
    · simp [startPoint, hid]

theorem isSome_moves : ((forTouches movePoint h touches).1.activeTouches id).isSome ↔
    (h.activeTouches id).isSome := by
  induction touches generalizing h with
  | nil => rfl
  | cons t touches ih =>
    simp only [forTouches, ih]
    cases hactive : h.activeTouches t.identifier with
    | none => simp [movePoint, hactive]
    | some st =>
      by_cases hid : id = t.identifier
      · simp [movePoint, hid, hactive]
      · simp [movePoint, hid, hactive]

theorem isSome_ends : ((forTouches endPoint h touches).1.activeTouches id).isSome ↔
    (h.activeTouches id).isSome ∧ id ∉ touches.map (·.identifier) := by
  induction touches generalizing h with
  | nil => simp [forTouches]
  | cons t touches ih =>
    simp only [forTouches, ih, List.map_cons, List.mem_cons, not_or]
    cases hactive : h.activeTouches t.identifier with
    | none =>
      by_cases hid : id = t.identifier
      · simp [endPoint, hid, hactive]
      · simp [endPoint, hid, hactive]
    | some st =>
      by_cases hid : id = t.identifier
      · simp [endPoint, hid, hactive]
      · simp [endPoint, hid, hactive]

/-- The contacts held are those tracked, event after event. -/
theorem Tracks.handleEvent (ht : h.Tracks held) :
    (h.handleEvent event).1.Tracks (heldAfter held event) := by
  intro id
  cases event with
  | touchstart touches =>
    simp only [TouchHandler.handleEvent, heldAfter, isSome_starts, ht id, List.mem_append]
  | touchmove touches => simp only [TouchHandler.handleEvent, heldAfter, isSome_moves, ht id]
  | touchend touches =>
    simp only [TouchHandler.handleEvent, heldAfter, isSome_ends, ht id, List.mem_filter,
      decide_eq_true_eq]
  | touchcancel touches => simp [TouchHandler.handleEvent, heldAfter]

theorem Tracks.freshStart_iff (ht : h.Tracks held) :
    h.FreshStart event ↔ (started event).Nodup ∧ ∀ id ∈ started event, id ∉ held := by
  cases event with
  | touchstart touches =>
    simp only [FreshStart, Fresh, started, List.forall_mem_map, ← ht _, Option.not_isSome_iff_eq_none]
  | _ => simp [FreshStart, started]

theorem Tracks.freshStarts_iff (ht : h.Tracks held) :
    h.FreshStarts events ↔ StartsApart held events := by
  induction events generalizing h held with
  | nil => rfl
  | cons event events ih =>
    simp only [FreshStarts, StartsApart, ht.freshStart_iff, ih ht.handleEvent]

/-- **The events decide it**: the stream is well formed exactly when each
start lists different contacts, none of which was started before it and has
not ended or been cancelled since. -/
theorem wellFormed_iff_startsApart (d : Dimensions) (events : List TouchEvent) :
    WellFormed Seat.new ((new d).run events).2 ↔ StartsApart [] events := by
  have htracks : (new d).Tracks [] := fun id => by simp [new]
  rw [run_wellFormed_iff (new_agrees d), htracks.freshStarts_iff]

/-- A finger that is put down, moved and lifted, and put down again beside
another one. -/
example (d : Dimensions) (p q : TouchPoint) (hpq : p.identifier ≠ q.identifier) :
    WellFormed Seat.new ((new d).run
      [.touchstart [p], .touchmove [p], .touchend [p], .touchstart [q, p]]).2 := by
  rw [wellFormed_iff_startsApart]
  simp [StartsApart, started, heldAfter, hpq.symm]

end Events

end TouchHandler

/-! ## The web client -/

/-- A contact on the screen, as the browser reports it. -/
structure Touch where
  identifier : Int32
  clientX : Float
  clientY : Float
  force : Float

/-- The canvas's place on the page, and the visual viewport's size where
there is one. -/
structure CanvasBox where
  left : Float
  top : Float
  width : Float
  height : Float
  visualViewport : Option (Float × Float)

/-- A browser touch event: every contact on the screen, and those it is
about. -/
structure DomTouchEvent where
  touches : List Touch
  changedTouches : List Touch

namespace WebClient

/-- `Math.min(Math.max(v, 0), 1)`. -/
def clampUnit (v : Float) : Float := if v ≤ 0 then 0 else if 1 < v then 1 else v

/-- A contact's coordinates over the canvas. -/
def normalized (box : CanvasBox) (t : Touch) : Float × Float :=
  let w := match box.visualViewport with
    | some vv => if 0 < vv.1 then vv.1 else box.width
    | none => box.width
  let h := match box.visualViewport with
    | some vv => if 0 < vv.2 then vv.2 else box.height
    | none => box.height
  ((t.clientX - box.left) / w, (t.clientY - box.top) / h)

/-- `touch.force || 0.5`. -/
def pressure (t : Touch) : Float := if t.force == 0 || t.force.isNaN then 0.5 else t.force

/-- The contact lies on the canvas. -/
def onCanvas (box : CanvasBox) (t : Touch) : Bool :=
  let (x, y) := normalized box t
  0 ≤ x && x ≤ 1 && (0 ≤ y && y ≤ 1)

/-- Contacts as they are sent: clamped, or dropped where they are off the
canvas. -/
def normalizeTouches (box : CanvasBox) (clampOutOfBounds : Bool) (touchList : List Touch) :
    List TouchPoint :=
  if clampOutOfBounds then
    touchList.map fun t =>
      ⟨t.identifier, clampUnit (normalized box t).1, clampUnit (normalized box t).2, pressure t⟩
  else
    (touchList.filter (onCanvas box)).map fun t =>
      ⟨t.identifier, (normalized box t).1, (normalized box t).2, pressure t⟩

/-- A message is sent for a list with something in it. -/
def sendTouch (event : List TouchPoint → TouchEvent) (touches : List TouchPoint) :
    Option TouchEvent :=
  if 0 < touches.length then some (event touches) else none

variable (box : CanvasBox) (e : DomTouchEvent)

def onTouchStart : Option TouchEvent :=
  sendTouch .touchstart (normalizeTouches box false e.touches)

def onTouchMove : Option TouchEvent :=
  sendTouch .touchmove (normalizeTouches box true e.touches)

def onTouchEnd : Option TouchEvent :=
  sendTouch .touchend (normalizeTouches box true e.changedTouches)

def onTouchCancel : Option TouchEvent :=
  sendTouch .touchcancel (normalizeTouches box true e.changedTouches)

variable {box} {event : TouchEvent}

/-- **What the client sends for a new finger** is fresh exactly when no
contact on the canvas is tracked, earlier fingers included; the contacts
of one touch list are different. -/
theorem onTouchStart_fresh_iff {h : TouchHandler} {e : DomTouchEvent}
    (hids : (e.touches.map (·.identifier)).Nodup) (hsent : onTouchStart box e = some event) :
    h.FreshStart event ↔
      ∀ t ∈ e.touches, onCanvas box t → h.activeTouches t.identifier = none := by
  unfold onTouchStart sendTouch at hsent
  split_ifs at hsent
  obtain rfl := Option.some.inj hsent
  have hnodup : (((e.touches.filter (onCanvas box)).map (·.identifier))).Nodup :=
    hids.sublist (List.filter_sublist.map _)
  simp only [TouchHandler.FreshStart, Fresh, normalizeTouches, Bool.false_eq_true, if_false,
    List.map_map, List.forall_mem_map, List.mem_filter, and_imp]
  exact and_iff_right hnodup

end WebClient

/-- A finger, and a second one while the first stays down: the client's
two starts put the first finger down twice. -/
theorem second_finger_downs_first_again :
    let box : CanvasBox := ⟨0, 0, 100, 100, none⟩
    let first : Touch := ⟨0, 25, 25, 0⟩
    let second : Touch := ⟨1, 50, 50, 0⟩
    ∃ e₁ e₂, WebClient.onTouchStart box ⟨[first], [first]⟩ = some e₁ ∧
      WebClient.onTouchStart box ⟨[first, second], [second]⟩ = some e₂ ∧
      ¬ WellFormed Seat.new ((TouchHandler.new ⟨1920, 1080⟩).run [e₁, e₂]).2 := by
  refine ⟨.touchstart [⟨0, 0.25, 0.25, 0.5⟩],
    .touchstart [⟨0, 0.25, 0.25, 0.5⟩, ⟨1, 0.5, 0.5, 0.5⟩], by decide +kernel, by decide +kernel, ?_⟩
  intro hwell
  have hsecond := hwell.2.2.1
  simp [Admissible, Seat.apply, Seat.new] at hsecond

end Input

end WaylandWebStream
