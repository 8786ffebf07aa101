import WaylandWebStream.Input.Drain
import WaylandWebStream.Input.Sessions

/-!
# Forwarding — the native window's keys and buttons, on their way to the seat

The display thread makes a message of each press and release and puts it
into a channel of 64, with `try_send`; the socket loop sends what is in
it to the server, whose own channels lose nothing but moves. What the
seat will hold once all of it is processed is read off the messages on
their way (`keysToBe`, `buttonsToBe`), and a run of the window's events
can be left to settle at any point (`exists_settled`).
-/

namespace WaylandWebStream

namespace Native

namespace Forwarding

open Input (InputMessage PointerPoint MouseEvent KeyboardEvent Dimensions linuxButtonCode
  evdevKeycode)
open Relation

/-! ## The tables -/

/-- The evdev keycodes and the browser's key codes. -/
def evdevCodes : List (UInt32 × String) :=
  [(41, "Backquote"), (43, "Backslash"), (26, "BracketLeft"), (27, "BracketRight"), (51, "Comma"),
    (11, "Digit0"), (2, "Digit1"), (3, "Digit2"), (4, "Digit3"), (5, "Digit4"), (6, "Digit5"),
    (7, "Digit6"), (8, "Digit7"), (9, "Digit8"), (10, "Digit9"), (13, "Equal"),
    (86, "IntlBackslash"), (89, "IntlRo"), (124, "IntlYen"), (30, "KeyA"), (48, "KeyB"),
    (46, "KeyC"), (32, "KeyD"), (18, "KeyE"), (33, "KeyF"), (34, "KeyG"), (35, "KeyH"),
    (23, "KeyI"), (36, "KeyJ"), (37, "KeyK"), (38, "KeyL"), (50, "KeyM"), (49, "KeyN"),
    (24, "KeyO"), (25, "KeyP"), (16, "KeyQ"), (19, "KeyR"), (31, "KeyS"), (20, "KeyT"),
    (22, "KeyU"), (47, "KeyV"), (17, "KeyW"), (45, "KeyX"), (21, "KeyY"), (44, "KeyZ"),
    (12, "Minus"), (52, "Period"), (40, "Quote"), (39, "Semicolon"), (53, "Slash"),
    (56, "AltLeft"), (100, "AltRight"), (14, "Backspace"), (58, "CapsLock"), (127, "ContextMenu"),
    (29, "ControlLeft"), (97, "ControlRight"), (28, "Enter"), (125, "MetaLeft"),
    (126, "MetaRight"), (42, "ShiftLeft"), (54, "ShiftRight"), (57, "Space"), (15, "Tab"),
    (92, "Convert"), (93, "KanaMode"), (122, "Lang1"), (123, "Lang2"), (94, "NonConvert"),
    (111, "Delete"), (107, "End"), (138, "Help"), (102, "Home"), (110, "Insert"),
    (109, "PageDown"), (104, "PageUp"), (108, "ArrowDown"), (105, "ArrowLeft"),
    (106, "ArrowRight"), (103, "ArrowUp"), (69, "NumLock"), (82, "Numpad0"), (79, "Numpad1"),
    (80, "Numpad2"), (81, "Numpad3"), (75, "Numpad4"), (76, "Numpad5"), (77, "Numpad6"),
    (71, "Numpad7"), (72, "Numpad8"), (73, "Numpad9"), (78, "NumpadAdd"), (121, "NumpadComma"),
    (83, "NumpadDecimal"), (98, "NumpadDivide"), (96, "NumpadEnter"), (117, "NumpadEqual"),
    (55, "NumpadMultiply"), (74, "NumpadSubtract"), (1, "Escape"), (59, "F1"), (60, "F2"),
    (61, "F3"), (62, "F4"), (63, "F5"), (64, "F6"), (65, "F7"), (66, "F8"), (67, "F9"),
    (68, "F10"), (87, "F11"), (88, "F12"), (183, "F13"), (184, "F14"), (185, "F15"), (186, "F16"),
    (187, "F17"), (188, "F18"), (189, "F19"), (190, "F20"), (191, "F21"), (192, "F22"),
    (193, "F23"), (194, "F24"), (99, "PrintScreen"), (70, "ScrollLock"), (119, "Pause")]

def evdevToCode (key : UInt32) : Option String := evdevCodes.lookup key

/-- A Linux button code as a browser's button index. -/
def linuxToBrowserButton (button : UInt32) : UInt32 :=
  if button = 0x110 then 0
  else if button = 0x111 then 2
  else if button = 0x112 then 1
  else 0

/-! ## The window -/

/-- A `wl_keyboard` event. -/
inductive KeyEvent
  /-- The window has the keyboard, with these keys held. -/
  | enter (raw : List UInt32)
  | leave
  | press (rawCode : UInt32)
  | release (rawCode : UInt32)
  | modifiers
  deriving DecidableEq

inductive PointerEventKind
  | enter
  | leave
  | motion
  | press (button : UInt32)
  | release (button : UInt32)
  | axis (horizontal vertical : Float)

/-- A `wl_pointer` event. -/
structure PointerEvent where
  surface : ℕ
  position : Float × Float
  kind : PointerEventKind

/-- What the handlers read of `DisplayState`. -/
structure Display where
  /-- The window's surface. -/
  surface : ℕ
  width : UInt32
  height : UInt32
  pointerPos : Float × Float

/-- Surface-local to normalized coordinates. -/
def norm (pos : Float × Float) (w h : Float) : Float × Float := (pos.1 / w, pos.2 / h)

/-- `KeyboardHandler`: what is sent for an event. -/
def onKey : KeyEvent → Option InputMessage
  | .press rawCode => (evdevToCode rawCode).map fun code => .key (.down code)
  | .release rawCode => (evdevToCode rawCode).map fun code => .key (.up code)
  | .enter _ | .leave | .modifiers => none

namespace Display

variable (d : Display)

/-- The sample of a message, at the pointer's last position. -/
def sample (button : Int32) : PointerPoint := ⟨d.pointerPos.1, d.pointerPos.2, button, "mouse", 0⟩

/-- The pointer is somewhere else. -/
def moveTo (position : Float × Float) : Display :=
  { d with pointerPos := norm position d.width.toFloat d.height.toFloat }

/-- `pointer_frame`, for one event of the frame. -/
def onPointer (e : PointerEvent) : Display × Option InputMessage :=
  if e.surface ≠ d.surface then (d, none)
  else
    match e.kind with
    | .enter => (d.moveTo e.position, none)
    | .leave => (d, none)
    | .motion => (d.moveTo e.position, some (.pointer (.move ((d.moveTo e.position).sample 0))))
    | .press button =>
      (d, some (.pointer (.down (d.sample (linuxToBrowserButton button).toInt32))))
    | .release button =>
      (d, some (.pointer (.up (d.sample (linuxToBrowserButton button).toInt32))))
    | .axis horizontal vertical =>
      (d, some (.pointer (.wheel d.pointerPos.1 d.pointerPos.2 horizontal vertical)))

end Display

/-- **What is physically held** while the window has the focus: nothing
when it has not. -/
structure Physical where
  keys : Finset UInt32
  buttons : Finset UInt32

namespace Physical

/-- Nothing is held. -/
def none : Physical := ⟨∅, ∅⟩

def key (p : Physical) : KeyEvent → Physical
  | .enter raw => { p with keys := raw.toFinset }
  | .leave => { p with keys := ∅ }
  | .press rawCode => { p with keys := insert rawCode p.keys }
  | .release rawCode => { p with keys := p.keys.erase rawCode }
  | .modifiers => p

def pointer (p : Physical) (surface : ℕ) (e : PointerEvent) : Physical :=
  if e.surface ≠ surface then p
  else
    match e.kind with
    | .leave => { p with buttons := ∅ }
    | .press button => { p with buttons := insert button p.buttons }
    | .release button => { p with buttons := p.buttons.erase button }
    | .enter | .motion | .axis _ _ => p

end Physical

/-! ## From the window to the seat -/

/-- The window, the channel behind it, the socket and the server. What is
physically held is kept; no step reads it. -/
structure State where
  display : Display
  channel : List InputMessage
  wire : List InputMessage
  server : Input.State
  physical : Physical

inductive Action
  | key (e : KeyEvent)
  | pointer (e : PointerEvent)
  | configure (width height : UInt32)
  /-- The socket loop takes a message and sends it. -/
  | forward
  /-- The server's handler receives and dispatches one. -/
  | receive
  /-- A step of the server's loop. -/
  | serve (a : Input.Action)

/-- The actions that are not the window's. -/
def Action.carries : Action → Bool
  | .forward | .receive | .serve _ => true
  | .key _ | .pointer _ | .configure _ _ => false

/-- `tokio::sync::mpsc::channel(64)`. -/
def inputCapacity : ℕ := 64

namespace State

variable (s : State)

/-- The channel has room. -/
def HasRoom : Prop := s.channel.length < inputCapacity

instance : Decidable s.HasRoom := inferInstanceAs (Decidable (_ < _))

/-- `send_input`: what finds the channel full is dropped. -/
def sendInput : Option InputMessage → State
  | some message => if s.HasRoom then { s with channel := s.channel ++ [message] } else s
  | none => s

/-- One step of the window, of the socket loop or of the server. -/
def step (conn : ℕ) : Action → Option State
  | .key e => some { s.sendInput (onKey e) with physical := s.physical.key e }
  | .pointer e =>
    let (display, message) := s.display.onPointer e
    some { s.sendInput message with
      display, physical := s.physical.pointer s.display.surface e }
  | .configure width height => some { s with display := { s.display with width, height } }
  | .forward =>
    match s.channel with
    | [] => none
    | message :: rest => some { s with channel := rest, wire := s.wire ++ [message] }
  | .receive =>
    match s.wire with
    | [] => none
    | message :: rest =>
      (s.server.step (.receive conn message)).map fun server => { s with wire := rest, server }
  | .serve a => if a.isLoop then (s.server.step a).map fun server => { s with server } else none

end State

/-- **A native window and its connection**, from the moment the server
receives what it sends. Others may have come before. -/
def machine (d : Dimensions) (conn : ℕ) : Machine State Action where
  init s := (Input.machine d).Reachable s.server ∧ s.server.Drained ∧
    s.server.phase conn = .serving ∧ s.channel = [] ∧ s.wire = [] ∧ s.physical = .none
  step s a := s.step conn a

/-- A step that is not the window's. -/
def Carries (conn : ℕ) (s s' : State) : Prop :=
  ∃ a : Action, a.carries = true ∧ s.step conn a = some s'

/-- **Settled**: every message is processed. -/
structure State.Settled (s : State) : Prop where
  channel : s.channel = []
  wire : s.wire = []
  drained : s.server.Drained

/-! ## The messages -/

/-- Every message there was, on its way or processed. -/
def State.messages (s : State) : List InputMessage :=
  s.server.log.map (·.message) ++ (s.wire ++ s.channel)

/-- The keys the seat will hold. -/
def State.keysToBe (s : State) : Finset UInt32 := Edge.held (s.messages.filterMap (·.keyEdge))

/-- The buttons the seat will hold. -/
def State.buttonsToBe (s : State) : Finset UInt32 :=
  Edge.held (s.messages.filterMap (·.buttonEdge))

variable {d : Dimensions} {conn : ℕ} {s s' : State} {a : Action} {message : InputMessage}

/-- What is known of the server. -/
structure Served (d : Dimensions) (conn : ℕ) (s : State) : Prop where
  reachable : (Input.machine d).Reachable s.server
  serving : s.server.phase conn = .serving

/-- The server's handler receives a message: it is on record. -/
theorem receive_spec {server server' : Input.State}
    (hstep : server.step (.receive conn message) = some server') :
    server'.log.map (·.message) = server.log.map (·.message) ++ [message] ∧
      server'.phase = server.phase := by
  cases Input.trans_of_step hstep with
  | queued _ _ => simp [Input.State.enqueue, Input.State.entry]
  | dropped _ _ _ => simp [Input.State.drop, Input.State.entry]

/-- **A step that is not the window's** loses no message and adds none. -/
theorem Served.carries (h : Served d conn s) (hcarries : Carries conn s s') :
    Served d conn s' ∧ s'.messages = s.messages ∧ s'.physical = s.physical := by
  obtain ⟨a, ha, hstep⟩ := hcarries
  cases a with
  | key e => cases ha
  | pointer e => cases ha
  | configure width height => cases ha
  | forward =>
    simp only [State.step] at hstep
    split at hstep
    · cases hstep
    · rename_i message rest hchannel
      cases hstep
      exact ⟨⟨h.reachable, h.serving⟩, by simp [State.messages, hchannel], rfl⟩
  | receive =>
    simp only [State.step] at hstep
    split at hstep
    · cases hstep
    · rename_i message rest hwire
      obtain ⟨server, hserver, rfl⟩ := Option.map_eq_some_iff.1 hstep
      obtain ⟨hlog, hphase⟩ := receive_spec hserver
      have hreach : (Input.machine d).Reachable server :=
        h.reachable.next (a := .receive conn message) hserver
      refine ⟨⟨hreach, ?_⟩, ?_, rfl⟩
      · rw [← h.serving]
        exact congrFun hphase conn
      · simp [State.messages, hlog, hwire]
  | serve b =>
    simp only [State.step] at hstep
    obtain ⟨hloop, hstep⟩ := Option.ite_none_right_eq_some.1 hstep
    obtain ⟨server, hserver, rfl⟩ := Option.map_eq_some_iff.1 hstep
    have hloops : Input.Loops s.server server := ⟨b, hloop, hserver⟩
    have hreach : (Input.machine d).Reachable server := h.reachable.next (a := b) hserver
    refine ⟨⟨hreach, ?_⟩, ?_, rfl⟩
    · rw [← h.serving]
      exact congrFun hloops.phase conn
    · simp [State.messages, hloops.log]

theorem Served.settles (h : Served d conn s) (hrun : ReflTransGen (Carries conn) s s') :
    Served d conn s' ∧ s'.messages = s.messages ∧ s'.physical = s.physical := by
  induction hrun with
  | refl => exact ⟨h, rfl, rfl⟩
  | tail _ hcarries ih =>
    obtain ⟨hserved, hmessages, hphysical⟩ := ih
    obtain ⟨hserved', hmessages', hphysical'⟩ := hserved.carries hcarries
    exact ⟨hserved', hmessages'.trans hmessages, hphysical'.trans hphysical⟩

/-- **Settled, the seat holds what it was to hold.** -/
theorem State.Settled.seat (h : s.Settled) (hserved : Served d conn s) :
    s.server.seat.keys = s.keysToBe ∧ s.server.seat.buttons = s.buttonsToBe := by
  have haccount := Input.accounted hserved.reachable
  have hmessages : s.messages = s.server.log.map (·.message) := by
    rw [State.messages, h.wire, h.channel, List.append_nil, List.append_nil]
  constructor
  · rw [haccount.keys, haccount.filterMap_injected h.drained .key
      fun _ => InputMessage.keyEdge_of_device, haccount.accepted_of_edge Input.keyEdge_of_isMove,
      State.keysToBe, hmessages, List.filterMap_map]
    rfl
  · rw [haccount.buttons, haccount.filterMap_injected h.drained .pointer
      fun _ => InputMessage.buttonEdge_of_device,
      haccount.accepted_of_edge Input.buttonEdge_of_isMove, State.buttonsToBe, hmessages,
      List.filterMap_map]
    rfl

/-! ## Settling -/

/-- The server's loop goes on while the window does nothing. -/
theorem carries_of_loops {server : Input.State} (hrun : ReflTransGen Input.Loops s.server server) :
    ReflTransGen (Carries conn) s { s with server } := by
  induction hrun with
  | refl => exact .refl
  | @tail b c _ hloops ih =>
    obtain ⟨a, hloop, hstep⟩ := hloops
    refine ih.tail ⟨.serve a, rfl, ?_⟩
    show (if a.isLoop = true then (b.step a).map _ else _) = _
    rw [if_pos hloop, hstep]
    rfl

/-- The socket loop sends what is in the channel. -/
theorem exists_forwarded (l : List InputMessage) (hchannel : s.channel = l) :
    ∃ s', ReflTransGen (Carries conn) s s' ∧ s'.channel = [] := by
  induction l generalizing s with
  | nil => exact ⟨s, .refl, hchannel⟩
  | cons message rest ih =>
    have hforward : Carries conn s { s with channel := rest, wire := s.wire ++ [message] } :=
      ⟨.forward, rfl, by simp only [State.step, hchannel]⟩
    obtain ⟨s', hrun, hempty⟩ := ih (s := { s with
      channel := rest, wire := s.wire ++ [message] }) rfl
    exact ⟨s', .head hforward hrun, hempty⟩

/-- The server receives what is on the socket: its channels are emptied
before each message. -/
theorem exists_received (l : List InputMessage) (hserved : Served d conn s) (hwire : s.wire = l)
    (hchannel : s.channel = []) : ∃ s', ReflTransGen (Carries conn) s s' ∧ s'.Settled := by
  induction l generalizing s with
  | nil =>
    obtain ⟨server, hrun, hdrained⟩ := Input.exists_drained s.server
    exact ⟨{ s with server }, carries_of_loops hrun, hchannel, hwire, hdrained⟩
  | cons message rest ih =>
    obtain ⟨server, hrun, hdrained⟩ := Input.exists_drained s.server
    have hloops : ReflTransGen (Carries conn) s { s with server } := carries_of_loops hrun
    have hserved' : Served d conn { s with server } := (hserved.settles hloops).1
    have hroom : (server.channel message.device).length < Input.capacity message.device := by
      rw [hdrained message.device]
      cases message.device <;> decide
    have hdispatch : server.step (.receive conn message) =
        some (server.enqueue (server.entry conn message true)) := by
      simp only [Input.State.step, Input.State.dispatch]
      rw [if_pos hserved'.serving, if_pos hroom]
    have hreceive : Carries conn { s with server } { s with
        wire := rest, server := server.enqueue (server.entry conn message true) } := by
      refine ⟨.receive, rfl, ?_⟩
      simp only [State.step, hwire, hdispatch]
      rfl
    obtain ⟨s', hrun', hsettled⟩ := ih (hserved'.carries hreceive).1 rfl hchannel
    exact ⟨s', hloops.trans (.head hreceive hrun'), hsettled⟩

/-- **Left alone, the messages are all processed.** -/
theorem Served.exists_settled (h : Served d conn s) :
    ∃ s', ReflTransGen (Carries conn) s s' ∧ s'.Settled := by
  obtain ⟨s₁, hrun, hempty⟩ : ∃ s₁, ReflTransGen (Carries conn) s s₁ ∧ s₁.channel = [] :=
    exists_forwarded _ rfl
  obtain ⟨s₂, hrun₂, hsettled⟩ := exists_received _ (h.settles hrun).1 rfl hempty
  exact ⟨s₂, hrun.trans hrun₂, hsettled⟩

end Forwarding

end Native

end WaylandWebStream
