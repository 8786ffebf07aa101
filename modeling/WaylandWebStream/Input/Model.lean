import Mathlib.Data.Option.Basic
import WaylandWebStream.Lib.Held

/-!
# Input — events, handlers and the seat

The client's touch, pointer and key events, what the three handlers call
on the compositor for each, and what those calls leave in the seat: the
keys and buttons held, the touch points that are down with the position
each was last given, and the pointer's last position. Coordinates are
doubles, clamped and scaled as the handlers do it. No pointer constraint
is active, so a motion goes where it says.
-/

namespace WaylandWebStream

namespace Input

/-! ## The seat -/

/-- Output-pixel coordinates. -/
structure Position where
  x : Float
  y : Float
  deriving DecidableEq

/-- The compositor's input methods. -/
inductive SeatCall
  | touchDown (slot : UInt32) (location : Position)
  | touchMotion (slot : UInt32) (location : Position)
  | touchUp (slot : UInt32)
  | touchFrame
  | touchCancel
  | pointerMotion (location : Position)
  | pointerButton (button : UInt32) (pressed : Bool)
  | pointerAxis (deltaX deltaY : Float)
  | pointerRelativeMotion (dx dy : Float)
  | pointerFrame
  | key (keycode : UInt32) (pressed : Bool)
  deriving DecidableEq

/-- What a call changes of the keys held, in XKB numbering: evdev + 8. -/
def SeatCall.keyEdge : SeatCall → Option (Edge UInt32)
  | key keycode true => some (.press (keycode + 8))
  | key keycode false => some (.release (keycode + 8))
  | _ => none

/-- What a call changes of the buttons held. -/
def SeatCall.buttonEdge : SeatCall → Option (Edge UInt32)
  | pointerButton button true => some (.press button)
  | pointerButton button false => some (.release button)
  | _ => none

/-- What the seat holds. -/
structure Seat where
  keys : Finset UInt32
  buttons : Finset UInt32
  /-- The touch points that are down, and where each was last. -/
  touches : UInt32 → Option Position
  /-- Where the pointer was last moved to. -/
  pointer : Option Position

namespace Seat

/-- Nothing held, nothing down. -/
def new : Seat := ⟨∅, ∅, fun _ => none, none⟩

/-- What a call does to the touch points. A motion moves a point that is
down. -/
def touchPoints (touches : UInt32 → Option Position) : SeatCall → UInt32 → Option Position
  | .touchDown slot location => Function.update touches slot (some location)
  | .touchMotion slot location => fun s =>
    if s = slot then (touches s).map fun _ => location else touches s
  | .touchUp slot => Function.update touches slot none
  | .touchCancel => fun _ => none
  | _ => touches

/-- What a call does to the seat. -/
def apply (s : Seat) (c : SeatCall) : Seat where
  keys := c.keyEdge.elim s.keys (Edge.apply s.keys)
  buttons := c.buttonEdge.elim s.buttons (Edge.apply s.buttons)
  touches := touchPoints s.touches c
  pointer := match c with
    | .pointerMotion location => some location
    | _ => s.pointer

section Touches

variable {touches : UInt32 → Option Position} {slot : UInt32} {location : Position}

@[simp] theorem touchPoints_touchDown :
    touchPoints touches (.touchDown slot location) =
      Function.update touches slot (some location) := rfl

@[simp] theorem touchPoints_touchMotion :
    touchPoints touches (.touchMotion slot location) =
      fun s => if s = slot then (touches s).map fun _ => location else touches s := rfl

@[simp] theorem touchPoints_touchUp :
    touchPoints touches (.touchUp slot) = Function.update touches slot none := rfl

@[simp] theorem touchPoints_touchFrame : touchPoints touches .touchFrame = touches := rfl

@[simp] theorem touchPoints_touchCancel : touchPoints touches .touchCancel = fun _ => none := rfl

end Touches

/-- The seat after a sequence of calls. -/
def run (s : Seat) (calls : List SeatCall) : Seat := calls.foldl apply s

end Seat

/-! ## Coordinates -/

/-- Clamps a client's coordinate; what is not finite becomes zero. -/
def normalizeUnit (value : Float) : Float :=
  if value.isFinite then if value < 0 then 0 else if 1 < value then 1 else value else 0

/-- The compositor's size, as both handlers keep it. -/
structure Dimensions where
  width : UInt32
  height : UInt32

/-- Normalized coordinates to compositor coordinates. -/
def Dimensions.toCompositorCoords (d : Dimensions) (x y : Float) : Position :=
  ⟨normalizeUnit x * d.width.toFloat, normalizeUnit y * d.height.toFloat⟩

/-! ## Touch -/

/-- Different identifiers are different slots: `slot as u32`. -/
theorem toUInt32_injective : Function.Injective Int32.toUInt32 :=
  Function.LeftInverse.injective Int32.toInt32_toUInt32

/-- One contact of a touch event. -/
structure TouchPoint where
  identifier : Int32
  x : Float
  y : Float
  pressure : Float
  deriving DecidableEq

/-- The client's touch events. -/
inductive TouchEvent
  | touchstart (touches : List TouchPoint)
  | touchmove (touches : List TouchPoint)
  | touchend (touches : List TouchPoint)
  | touchcancel (touches : List TouchPoint)
  deriving DecidableEq

/-- A tracked contact. -/
structure TouchState where
  location : Position
  pressure : Float

/-- The touch handler: the contacts it tracks. -/
structure TouchHandler where
  dimensions : Dimensions
  activeTouches : Int32 → Option TouchState

namespace TouchHandler

/-- `TouchHandler::new`. -/
def new (dimensions : Dimensions) : TouchHandler := ⟨dimensions, fun _ => none⟩

variable (h : TouchHandler) (t : TouchPoint)

/-- The touch point's coordinates in the compositor. -/
def location : Position := h.dimensions.toCompositorCoords t.x t.y

/-- A contact of a start: tracked, and down. -/
def startPoint : TouchHandler × List SeatCall :=
  ({ h with
      activeTouches := Function.update h.activeTouches t.identifier
        (some ⟨h.location t, t.pressure⟩) },
    [.touchDown t.identifier.toUInt32 (h.location t)])

/-- A contact of a move: moved where it is tracked. -/
def movePoint : TouchHandler × List SeatCall :=
  match h.activeTouches t.identifier with
  | some _ =>
    ({ h with
        activeTouches := Function.update h.activeTouches t.identifier
          (some ⟨h.location t, t.pressure⟩) },
      [.touchMotion t.identifier.toUInt32 (h.location t)])
  | none => (h, [])

/-- A contact of an end: up where it is tracked. -/
def endPoint : TouchHandler × List SeatCall :=
  match h.activeTouches t.identifier with
  | some _ =>
    ({ h with activeTouches := Function.update h.activeTouches t.identifier none },
      [.touchUp t.identifier.toUInt32])
  | none => (h, [])

/-- `for touch in touches`. -/
def forTouches (point : TouchHandler → TouchPoint → TouchHandler × List SeatCall)
    (h : TouchHandler) : List TouchPoint → TouchHandler × List SeatCall
  | [] => (h, [])
  | t :: touches =>
    let (h', calls) := point h t
    let (h'', rest) := forTouches point h' touches
    (h'', calls ++ rest)

/-- `TouchHandler::handle_event`. -/
def handleEvent (h : TouchHandler) : TouchEvent → TouchHandler × List SeatCall
  | .touchstart touches =>
    let (h', calls) := forTouches startPoint h touches
    (h', calls ++ [.touchFrame])
  | .touchmove touches =>
    let (h', calls) := forTouches movePoint h touches
    (h', calls ++ [.touchFrame])
  | .touchend touches =>
    let (h', calls) := forTouches endPoint h touches
    (h', calls ++ [.touchFrame])
  -- The list of a cancel may be incomplete: every contact goes.
  | .touchcancel _ => ({ h with activeTouches := fun _ => none }, [.touchCancel])

end TouchHandler

/-! ## Pointer -/

/-- A pointer sample; `button` counts for down and up only. -/
structure PointerPoint where
  x : Float
  y : Float
  button : Int32
  pointerType : String
  pressure : Float
  deriving DecidableEq

/-- The client's pointer events. -/
inductive MouseEvent
  | down (pointer : PointerPoint)
  | move (pointer : PointerPoint)
  | up (pointer : PointerPoint)
  | cancel (pointer : PointerPoint)
  | wheel (x y deltaX deltaY : Float)
  | relative (dx dy : Float)
  deriving DecidableEq

/-- A browser's button index as a Linux button code. -/
def linuxButtonCode (button : Int32) : Option UInt32 :=
  if button = 0 then some 0x110
  else if button = 1 then some 0x112
  else if button = 2 then some 0x111
  else if button = 3 then some 0x113
  else if button = 4 then some 0x114
  else none

/-- A press or release of a button the server knows. -/
def buttonCall (button : Int32) (pressed : Bool) : List SeatCall :=
  match linuxButtonCode button with
  | some code => [.pointerButton code pressed]
  | none => []

/-- `MouseHandler::handle_event`. -/
def mouseHandleEvent (d : Dimensions) : MouseEvent → List SeatCall
  | .down p =>
    .pointerMotion (d.toCompositorCoords p.x p.y) :: buttonCall p.button true ++ [.pointerFrame]
  | .move p => [.pointerMotion (d.toCompositorCoords p.x p.y), .pointerFrame]
  | .up p =>
    .pointerMotion (d.toCompositorCoords p.x p.y) :: buttonCall p.button false ++ [.pointerFrame]
  -- The source: the client never sends this while a button is held.
  | .cancel _ => []
  | .wheel x y deltaX deltaY =>
    [.pointerMotion (d.toCompositorCoords x y), .pointerAxis deltaX deltaY, .pointerFrame]
  | .relative dx dy => [.pointerRelativeMotion dx dy, .pointerFrame]

/-! ## Keyboard -/

/-- The client's key events. -/
inductive KeyboardEvent
  | down (code : String)
  | up (code : String)
  deriving DecidableEq

/-- The browser's key codes and their evdev keycodes. -/
def evdevKeycodes : List (String × UInt32) :=
  [("Backquote", 41), ("Backslash", 43), ("BracketLeft", 26), ("BracketRight", 27), ("Comma", 51),
    ("Digit0", 11), ("Digit1", 2), ("Digit2", 3), ("Digit3", 4), ("Digit4", 5), ("Digit5", 6),
    ("Digit6", 7), ("Digit7", 8), ("Digit8", 9), ("Digit9", 10), ("Equal", 13),
    ("IntlBackslash", 86), ("IntlRo", 89), ("IntlYen", 124), ("KeyA", 30), ("KeyB", 48),
    ("KeyC", 46), ("KeyD", 32), ("KeyE", 18), ("KeyF", 33), ("KeyG", 34), ("KeyH", 35),
    ("KeyI", 23), ("KeyJ", 36), ("KeyK", 37), ("KeyL", 38), ("KeyM", 50), ("KeyN", 49),
    ("KeyO", 24), ("KeyP", 25), ("KeyQ", 16), ("KeyR", 19), ("KeyS", 31), ("KeyT", 20),
    ("KeyU", 22), ("KeyV", 47), ("KeyW", 17), ("KeyX", 45), ("KeyY", 21), ("KeyZ", 44),
    ("Minus", 12), ("Period", 52), ("Quote", 40), ("Semicolon", 39), ("Slash", 53), ("AltLeft", 56),
    ("AltRight", 100), ("Backspace", 14), ("CapsLock", 58), ("ContextMenu", 127),
    ("ControlLeft", 29), ("ControlRight", 97), ("Enter", 28), ("MetaLeft", 125), ("MetaRight", 126),
    ("ShiftLeft", 42), ("ShiftRight", 54), ("Space", 57), ("Tab", 15), ("Convert", 92),
    ("KanaMode", 93), ("Lang1", 122), ("Lang2", 123), ("NonConvert", 94), ("Delete", 111),
    ("End", 107), ("Help", 138), ("Home", 102), ("Insert", 110), ("PageDown", 109), ("PageUp", 104),
    ("ArrowDown", 108), ("ArrowLeft", 105), ("ArrowRight", 106), ("ArrowUp", 103), ("NumLock", 69),
    ("Numpad0", 82), ("Numpad1", 79), ("Numpad2", 80), ("Numpad3", 81), ("Numpad4", 75),
    ("Numpad5", 76), ("Numpad6", 77), ("Numpad7", 71), ("Numpad8", 72), ("Numpad9", 73),
    ("NumpadAdd", 78), ("NumpadComma", 121), ("NumpadDecimal", 83), ("NumpadDivide", 98),
    ("NumpadEnter", 96), ("NumpadEqual", 117), ("NumpadMultiply", 55), ("NumpadSubtract", 74),
    ("Escape", 1), ("F1", 59), ("F2", 60), ("F3", 61), ("F4", 62), ("F5", 63), ("F6", 64),
    ("F7", 65), ("F8", 66), ("F9", 67), ("F10", 68), ("F11", 87), ("F12", 88), ("F13", 183),
    ("F14", 184), ("F15", 185), ("F16", 186), ("F17", 187), ("F18", 188), ("F19", 189),
    ("F20", 190), ("F21", 191), ("F22", 192), ("F23", 193), ("F24", 194), ("PrintScreen", 99),
    ("ScrollLock", 70), ("Pause", 119)]

/-- A browser's key code as an evdev keycode. -/
def evdevKeycode (code : String) : Option UInt32 := evdevKeycodes.lookup code

/-- `keyboard::handle_event`. -/
def keyboardHandleEvent (event : KeyboardEvent) : List SeatCall :=
  let (code, pressed) := match event with
    | .down code => (code, true)
    | .up code => (code, false)
  match evdevKeycode code with
  | some keycode => [.key keycode pressed]
  | none => []

end Input

end WaylandWebStream
