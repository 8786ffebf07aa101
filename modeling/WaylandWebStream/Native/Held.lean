import Mathlib.Data.Finset.Image
import WaylandWebStream.Native.Forwarding

/-!
# Held — the seat against what is physically held

The window sends a message for a press or a release and none for a
change of focus; a key with no code is not sent, a full channel drops
what it is given, and any button but the middle and the right is sent as
the left one. Each of these parts the seat from what is physically held,
so the two agree throughout a run exactly where no event takes one of
these ways with an effect (`Followed`).
-/

namespace WaylandWebStream

namespace Native

namespace Forwarding

open Input (InputMessage Dimensions linuxButtonCode evdevKeycode)
open Relation

variable {d : Dimensions} {conn : ℕ} {s s' : State} {a : Action} {button : UInt32}

/-! ## Codes -/

/-- **The two tables agree**: a key's code is that key's on the server. -/
theorem evdevKeycode_of_evdevToCode {key : UInt32} {code : String}
    (h : evdevToCode key = some code) : evdevKeycode code = some key := by
  have htables : ∀ p ∈ evdevCodes, evdevKeycode p.2 = some p.1 := by decide +kernel
  obtain ⟨before, after, hsplit, -⟩ := List.lookup_eq_some_iff.1 h
  exact htables (key, code) (by simp [hsplit])

/-- A button with an index of its own. -/
def Known (button : UInt32) : Prop := button = 0x110 ∨ button = 0x111 ∨ button = 0x112

instance : Decidable (Known button) := inferInstanceAs (Decidable (_ ∨ _))

/-- The button the server presses for one of the window's. -/
def pressedAs (button : UInt32) : UInt32 := if Known button then button else 0x110

theorem linuxButtonCode_linuxToBrowserButton :
    linuxButtonCode (linuxToBrowserButton button).toInt32 = some (pressedAs button) := by
  by_cases hleft : button = 0x110
  · subst hleft
    decide
  · by_cases hright : button = 0x111
    · subst hright
      decide
    · by_cases hmiddle : button = 0x112
      · subst hmiddle
        decide
      · rw [linuxToBrowserButton, if_neg hleft, if_neg hright, if_neg hmiddle, pressedAs,
          if_neg (by simp [Known, hleft, hright, hmiddle])]
        decide

theorem known_pressedAs : Known (pressedAs button) := by
  rw [pressedAs]
  split
  · assumption
  · decide

/-! ## What an event changes -/

/-- What a key event changes of the keys the seat will hold. -/
def KeyEvent.edge : KeyEvent → Option (Edge UInt32)
  | press rawCode => if (evdevToCode rawCode).isSome then some (.press rawCode) else none
  | release rawCode => if (evdevToCode rawCode).isSome then some (.release rawCode) else none
  | enter _ | leave | modifiers => none

/-- What a pointer event changes of the buttons the seat will hold. -/
def PointerEventKind.edge : PointerEventKind → Option (Edge UInt32)
  | press button => some (.press (pressedAs button))
  | release button => some (.release (pressedAs button))
  | enter | leave | motion | axis _ _ => none

/-- A key event's message, if it has one, in the seat's numbering. -/
theorem onKey_keyEdge (keys : Finset UInt32) (e : KeyEvent) :
    ((onKey e).bind (·.keyEdge)).elim (keys.image (· + 8)) (Edge.apply (keys.image (· + 8))) =
      (e.edge.elim keys (Edge.apply keys)).image (· + 8) := by
  cases e with
  | press rawCode =>
    cases hcode : evdevToCode rawCode with
    | none => simp [onKey, KeyEvent.edge, hcode]
    | some code =>
      simp [onKey, KeyEvent.edge, hcode, InputMessage.keyEdge, evdevKeycode_of_evdevToCode hcode,
        Edge.apply, Finset.image_insert]
  | release rawCode =>
    cases hcode : evdevToCode rawCode with
    | none => simp [onKey, KeyEvent.edge, hcode]
    | some code =>
      simp [onKey, KeyEvent.edge, hcode, InputMessage.keyEdge, evdevKeycode_of_evdevToCode hcode,
        Edge.apply, Finset.image_erase Input.add_eight_injective]
  | enter raw => rfl
  | leave => rfl
  | modifiers => rfl

theorem onKey_buttonEdge (e : KeyEvent) : (onKey e).bind (·.buttonEdge) = none := by
  cases e with
  | press rawCode =>
    cases hcode : evdevToCode rawCode <;> simp [onKey, hcode, InputMessage.buttonEdge]
  | release rawCode =>
    cases hcode : evdevToCode rawCode <;> simp [onKey, hcode, InputMessage.buttonEdge]
  | enter raw => rfl
  | leave => rfl
  | modifiers => rfl

theorem onPointer_buttonEdge (display : Display) (e : PointerEvent) :
    (display.onPointer e).2.bind (·.buttonEdge) =
      if e.surface ≠ display.surface then none else e.kind.edge := by
  rw [Display.onPointer]
  split
  · rfl
  · cases e.kind with
    | press button =>
      show (linuxButtonCode (linuxToBrowserButton button).toInt32).map Edge.press = _
      rw [linuxButtonCode_linuxToBrowserButton]
      rfl
    | release button =>
      show (linuxButtonCode (linuxToBrowserButton button).toInt32).map Edge.release = _
      rw [linuxButtonCode_linuxToBrowserButton]
      rfl
    | enter => rfl
    | leave => rfl
    | motion => rfl
    | axis horizontal vertical => rfl

theorem onPointer_keyEdge (display : Display) (e : PointerEvent) :
    (display.onPointer e).2.bind (·.keyEdge) = none := by
  rw [Display.onPointer]
  split
  · rfl
  · cases e.kind <;> rfl

/-- What a message changes, where there is room for it. -/
theorem held_sendInput (change : InputMessage → Option (Edge UInt32))
    (message : Option InputMessage) :
    Edge.held ((s.sendInput message).messages.filterMap change) =
      if s.HasRoom then
        (message.bind change).elim (Edge.held (s.messages.filterMap change))
          (Edge.apply (Edge.held (s.messages.filterMap change)))
      else Edge.held (s.messages.filterMap change) := by
  cases message with
  | none => simp [State.sendInput]
  | some message =>
    rw [State.sendInput]
    split
    · have hmessages : State.messages { s with channel := s.channel ++ [message] } =
          s.messages ++ [message] := by simp [State.messages]
      rw [hmessages, List.filterMap_append, Option.bind_some]
      cases hchange : change message with
      | none => simp [hchange]
      | some e => simp [hchange, Edge.held_concat]
    · rfl

/-! ## The seat and the window -/

/-- The seat holds what is physically held, each under its own code. -/
def State.Matches (s : State) : Prop :=
  s.server.seat.keys = s.physical.keys.image (· + 8) ∧
    s.server.seat.buttons = s.physical.buttons

/-- **Nothing stuck, nothing else pressed**: should the events stop here,
the seat holds what is physically held once the messages are processed. -/
def Unstuck (conn : ℕ) (s : State) : Prop :=
  ∀ s', ReflTransGen (Carries conn) s s' → s'.Settled → s'.Matches

/-- What the seat will hold is what is physically held. -/
def State.WillMatch (s : State) : Prop :=
  s.keysToBe = s.physical.keys.image (· + 8) ∧ s.buttonsToBe = s.physical.buttons

/-- What the messages say is what the seat comes to hold. -/
theorem Served.unstuck_iff_willMatch (h : Served d conn s) : Unstuck conn s ↔ s.WillMatch := by
  have hcarried : ∀ s', ReflTransGen (Carries conn) s s' → s'.Settled →
      (s'.Matches ↔ s.WillMatch) := by
    intro s' hrun hsettled
    obtain ⟨hserved, hmessages, hphysical⟩ := h.settles hrun
    obtain ⟨hkeys, hbuttons⟩ := hsettled.seat hserved
    rw [State.Matches, hkeys, hbuttons, hphysical, State.keysToBe, State.buttonsToBe, hmessages]
    rfl
  constructor
  · intro hunstuck
    obtain ⟨s', hrun, hsettled⟩ := h.exists_settled
    exact (hcarried s' hrun hsettled).1 (hunstuck s' hrun hsettled)
  · intro hmatch s' hrun hsettled
    exact (hcarried s' hrun hsettled).2 hmatch

/-! ## The events the seat follows -/

namespace State

/-- A key event the seat follows: focus comes with the keys held already
and goes with none held; a press or release that changes something finds
room, and is of a key with a code. -/
def FollowsKey (s : State) : KeyEvent → Prop
  | .enter raw => raw.toFinset = s.physical.keys
  | .leave => s.physical.keys = ∅
  | .press rawCode => rawCode ∈ s.physical.keys ∨ s.HasRoom ∧ (evdevToCode rawCode).isSome
  | .release rawCode => rawCode ∈ s.physical.keys → s.HasRoom ∧ (evdevToCode rawCode).isSome
  | .modifiers => True

/-- A pointer event the seat follows: the pointer leaves with no button
held; a press or release that changes something finds room, and is of a
button of its own. The release of another lets go of the left one. -/
def FollowsPointer (s : State) : PointerEventKind → Prop
  | .leave => s.physical.buttons = ∅
  | .press button => button ∈ s.physical.buttons ∨ s.HasRoom ∧ Known button
  | .release button =>
    if Known button then button ∈ s.physical.buttons → s.HasRoom
    else s.HasRoom → 0x110 ∉ s.physical.buttons
  | .enter | .motion | .axis _ _ => True

instance (s : State) : (e : KeyEvent) → Decidable (s.FollowsKey e)
  | .enter raw => inferInstanceAs (Decidable (raw.toFinset = s.physical.keys))
  | .leave => inferInstanceAs (Decidable (s.physical.keys = ∅))
  | .press _ => inferInstanceAs (Decidable (_ ∨ _ ∧ _))
  | .release _ => inferInstanceAs (Decidable (_ → _ ∧ _))
  | .modifiers => inferInstanceAs (Decidable True)

instance (s : State) : (kind : PointerEventKind) → Decidable (s.FollowsPointer kind)
  | .leave => inferInstanceAs (Decidable (s.physical.buttons = ∅))
  | .press _ => inferInstanceAs (Decidable (_ ∨ _ ∧ _))
  | .release button =>
    inferInstanceAs (Decidable (if Known button then _ → s.HasRoom else s.HasRoom → _))
  | .enter | .motion | .axis _ _ => inferInstanceAs (Decidable True)

end State

/-- **The steps the seat follows**, whatever the order. -/
def Followed (s : State) : Action → Prop
  | .key e => s.FollowsKey e
  | .pointer e => e.surface = s.display.surface → s.FollowsPointer e.kind
  | .configure _ _ | .forward | .receive | .serve _ => True

instance (s : State) : (a : Action) → Decidable (Followed s a)
  | .key e => inferInstanceAs (Decidable (s.FollowsKey e))
  | .pointer e => inferInstanceAs (Decidable (e.surface = s.display.surface → _))
  | .configure _ _ | .forward | .receive | .serve _ => inferInstanceAs (Decidable True)

/-- The keys the window's message leaves held are the physical ones. -/
theorem followsKey_iff (e : KeyEvent) :
    (if s.HasRoom then e.edge.elim s.physical.keys (Edge.apply s.physical.keys)
      else s.physical.keys) = (s.physical.key e).keys ↔ s.FollowsKey e := by
  cases e with
  | enter raw => simp [KeyEvent.edge, Physical.key, State.FollowsKey, eq_comm]
  | leave => simp [KeyEvent.edge, Physical.key, State.FollowsKey]
  | press rawCode =>
    simp only [KeyEvent.edge, Physical.key, State.FollowsKey]
    by_cases hroom : s.HasRoom
    · by_cases hcode : (evdevToCode rawCode).isSome
      · simp [hroom, hcode, Edge.apply]
      · simp [hroom, hcode, eq_comm (a := s.physical.keys)]
    · simp [hroom, eq_comm (a := s.physical.keys)]
  | release rawCode =>
    simp only [KeyEvent.edge, Physical.key, State.FollowsKey]
    by_cases hroom : s.HasRoom
    · by_cases hcode : (evdevToCode rawCode).isSome
      · simp [hroom, hcode, Edge.apply]
      · simp [hroom, hcode, eq_comm (a := s.physical.keys)]
    · simp [hroom, eq_comm (a := s.physical.keys)]
  | modifiers => simp [KeyEvent.edge, Physical.key, State.FollowsKey]

/-- The buttons the window's message leaves held are the physical ones,
as long as each of those has an index of its own. -/
theorem followsPointer_iff (surface : ℕ) (e : PointerEvent)
    (hknown : ∀ button ∈ s.physical.buttons, Known button) :
    (if s.HasRoom then (if e.surface ≠ surface then none else e.kind.edge).elim
        s.physical.buttons (Edge.apply s.physical.buttons)
      else s.physical.buttons) = (s.physical.pointer surface e).buttons ↔
      (e.surface = surface → s.FollowsPointer e.kind) := by
  by_cases hsurface : e.surface = surface
  · rw [if_neg (not_not.2 hsurface), Physical.pointer, if_neg (not_not.2 hsurface),
      forall_prop_of_true hsurface]
    cases e.kind with
    | leave => simp [PointerEventKind.edge, State.FollowsPointer]
    | press button =>
      simp only [PointerEventKind.edge, State.FollowsPointer, pressedAs]
      by_cases hroom : s.HasRoom
      · by_cases hbutton : Known button
        · simp [hroom, hbutton, Edge.apply]
        · -- the left button goes down, and this one is not among those held
          have hup : button ∉ s.physical.buttons := fun hdown => hbutton (hknown button hdown)
          have hne : button ≠ 0x110 := fun hleft => hbutton (.inl hleft)
          have hdiffer : insert 0x110 s.physical.buttons ≠ insert button s.physical.buttons := by
            intro hsame
            have hmem : button ∈ insert 0x110 s.physical.buttons := by
              rw [hsame]
              exact Finset.mem_insert_self _ _
            exact (Finset.mem_insert.1 hmem).elim hne hup
          simp [hroom, hbutton, Edge.apply, hup, hdiffer]
      · simp [hroom, eq_comm (a := s.physical.buttons)]
    | release button =>
      simp only [PointerEventKind.edge, State.FollowsPointer, pressedAs]
      by_cases hbutton : Known button
      · by_cases hroom : s.HasRoom
        · simp [hroom, hbutton, Edge.apply]
        · simp [hroom, hbutton, eq_comm (a := s.physical.buttons)]
      · have hup : button ∉ s.physical.buttons := fun hdown => hbutton (hknown button hdown)
        by_cases hroom : s.HasRoom
        · simp [hroom, hbutton, Edge.apply, Finset.erase_eq_of_notMem hup]
        · simp [hroom, hbutton, Finset.erase_eq_of_notMem hup]
    | enter => simp [PointerEventKind.edge, State.FollowsPointer]
    | motion => simp [PointerEventKind.edge, State.FollowsPointer]
    | axis horizontal vertical => simp [PointerEventKind.edge, State.FollowsPointer]
  · simp [hsurface, Physical.pointer]

/-! ## Runs -/

/-- What is known of a run's states: the server's part, and that only
buttons with an index of their own will be held. -/
structure Forwarded (d : Dimensions) (conn : ℕ) (s : State) : Prop where
  served : Served d conn s
  known : ∀ button ∈ s.buttonsToBe, Known button

theorem apply_known {h : Finset UInt32} {e : Option (Edge UInt32)}
    (hknown : ∀ button ∈ h, Known button)
    (he : ∀ button, e = some (.press button) → Known button) :
    ∀ button ∈ e.elim h (Edge.apply h), Known button := by
  intro button hmem
  cases e with
  | none => exact hknown button hmem
  | some e =>
    rcases Edge.mem_apply.1 hmem with hpress | ⟨hheld, -⟩
    · exact he button (congrArg some hpress)
    · exact hknown button hheld

/-- A pointer event presses buttons with an index only. -/
theorem edge_known {kind : PointerEventKind} {surface surface' : ℕ}
    (h : (if surface ≠ surface' then none else kind.edge) = some (.press button)) :
    Known button := by
  split at h
  · cases h
  · cases kind with
    | press b =>
      obtain rfl := Edge.press.inj (Option.some.inj h)
      exact known_pressedAs
    | release b => exact absurd (Option.some.inj h) nofun
    | enter => cases h
    | leave => cases h
    | motion => cases h
    | axis horizontal vertical => cases h

/-- A message of the window is on its way: the server has none of it. -/
theorem sendInput_server (message : Option InputMessage) :
    (s.sendInput message).server = s.server := by
  cases message with
  | none => rfl
  | some message =>
    rw [State.sendInput]
    split <;> rfl

/-- What an event of the pointer makes the seat hold. -/
theorem buttonsToBe_pointer (e : PointerEvent) :
    (s.sendInput (s.display.onPointer e).2).buttonsToBe =
      if s.HasRoom then (if e.surface ≠ s.display.surface then none else e.kind.edge).elim
          s.buttonsToBe (Edge.apply s.buttonsToBe)
        else s.buttonsToBe := by
  rw [State.buttonsToBe, held_sendInput, onPointer_buttonEdge]
  rfl

/-- A key event leaves the buttons alone, and the pointer the keys. -/
theorem buttonsToBe_key (e : KeyEvent) : (s.sendInput (onKey e)).buttonsToBe = s.buttonsToBe := by
  rw [State.buttonsToBe, held_sendInput, onKey_buttonEdge, Option.elim_none, ite_self]
  rfl

theorem keysToBe_pointer (e : PointerEvent) :
    (s.sendInput (s.display.onPointer e).2).keysToBe = s.keysToBe := by
  rw [State.keysToBe, held_sendInput, onPointer_keyEdge, Option.elim_none, ite_self]
  rfl

/-- What a key event makes the seat hold, where that is what is held. -/
theorem keysToBe_key {keys : Finset UInt32} (hkeys : s.keysToBe = keys.image (· + 8))
    (e : KeyEvent) : (s.sendInput (onKey e)).keysToBe =
      (if s.HasRoom then e.edge.elim keys (Edge.apply keys) else keys).image (· + 8) := by
  have hheld : Edge.held (s.messages.filterMap (·.keyEdge)) = keys.image (· + 8) := hkeys
  rw [State.keysToBe, held_sendInput, hheld, onKey_keyEdge]
  split <;> rfl

/-- A step of the window's run keeps what is known. -/
theorem Forwarded.step (h : Forwarded d conn s) (hstep : s.step conn a = some s') :
    Forwarded d conn s' := by
  have hcarried : a.carries = true → Forwarded d conn s' := by
    intro hcarries
    obtain ⟨hserved, hmessages, -⟩ := h.served.carries ⟨a, hcarries, hstep⟩
    refine ⟨hserved, ?_⟩
    rw [State.buttonsToBe, hmessages]
    exact h.known
  cases a with
  | key e =>
    cases hstep
    have hserver := sendInput_server (s := s) (onKey e)
    refine ⟨⟨hserver ▸ h.served.reachable, hserver ▸ h.served.serving⟩, ?_⟩
    show ∀ button ∈ (s.sendInput (onKey e)).buttonsToBe, _
    rw [buttonsToBe_key]
    exact h.known
  | pointer e =>
    cases hstep
    have hserver := sendInput_server (s := s) (s.display.onPointer e).2
    refine ⟨⟨hserver ▸ h.served.reachable, hserver ▸ h.served.serving⟩, ?_⟩
    show ∀ button ∈ (s.sendInput (s.display.onPointer e).2).buttonsToBe, _
    rw [buttonsToBe_pointer]
    split
    · exact apply_known h.known fun button hpress => edge_known hpress
    · exact h.known
  | configure width height =>
    cases hstep
    exact ⟨⟨h.served.reachable, h.served.serving⟩, h.known⟩
  | forward => exact hcarried rfl
  | receive => exact hcarried rfl
  | serve b => exact hcarried rfl

/-- **One step**: the seat goes on to hold what is physically held
exactly where it follows the step. -/
theorem willMatch_step (h : Forwarded d conn s) (hmatch : s.WillMatch)
    (hstep : s.step conn a = some s') : s'.WillMatch ↔ Followed s a := by
  have hcarried : a.carries = true → s'.WillMatch := by
    intro hcarries
    obtain ⟨-, hmessages, hphysical⟩ := h.served.carries ⟨a, hcarries, hstep⟩
    rw [State.WillMatch, State.keysToBe, State.buttonsToBe, hmessages, hphysical]
    exact hmatch
  obtain ⟨hkeys, hbuttons⟩ := hmatch
  cases a with
  | key e =>
    cases hstep
    have himage : Function.Injective fun keys : Finset UInt32 => keys.image (· + 8) :=
      Finset.image_injective Input.add_eight_injective
    show (s.sendInput (onKey e)).keysToBe = _ ∧ (s.sendInput (onKey e)).buttonsToBe = _ ↔ _
    rw [keysToBe_key hkeys, buttonsToBe_key, himage.eq_iff, followsKey_iff]
    refine and_iff_left ?_
    rw [hbuttons]
    cases e <;> rfl
  | pointer e =>
    cases hstep
    show (s.sendInput (s.display.onPointer e).2).keysToBe = _ ∧
      (s.sendInput (s.display.onPointer e).2).buttonsToBe = _ ↔ _
    have hheld : (s.physical.pointer s.display.surface e).keys = s.physical.keys := by
      rw [Physical.pointer]
      split
      · rfl
      · cases e.kind <;> rfl
    rw [keysToBe_pointer, buttonsToBe_pointer, hbuttons,
      followsPointer_iff _ _ fun button hdown => h.known button (hbuttons ▸ hdown)]
    refine and_iff_right ?_
    rw [hkeys]
    exact congrArg (Finset.image _) hheld.symm
  | configure width height =>
    cases hstep
    exact iff_of_true ⟨hkeys, hbuttons⟩ trivial
  | forward => exact iff_of_true (hcarried rfl) trivial
  | receive => exact iff_of_true (hcarried rfl) trivial
  | serve b => exact iff_of_true (hcarried rfl) trivial

/-- **When nothing is stuck and nothing else pressed**: at every point of
a run, the seat would come to hold what is physically held, exactly where
it held nothing when the window connected and follows every step. -/
theorem unstuck_iff {s₀ : State} {acts : List Action} (hstart : (machine d conn).init s₀)
    (hexec : (machine d conn).exec s₀ acts = some s) :
    (machine d conn).Throughout (Unstuck conn) s₀ acts ↔
      (s₀.server.seat.keys = ∅ ∧ s₀.server.seat.buttons = ∅) ∧
        (machine d conn).Run Followed s₀ acts s := by
  obtain ⟨hreachable, hdrained, hserving, hchannel, hwire, hphysical⟩ := hstart
  have hserved : Served d conn s₀ := ⟨hreachable, hserving⟩
  obtain ⟨hkeys, hbuttons⟩ := State.Settled.seat ⟨hchannel, hwire, hdrained⟩ hserved
  have hmatch : s₀.WillMatch ↔ s₀.server.seat.keys = ∅ ∧ s₀.server.seat.buttons = ∅ := by
    rw [State.WillMatch, ← hkeys, ← hbuttons, hphysical]
    rfl
  have hfirst : (machine d conn).Throughout (Unstuck conn) s₀ acts → s₀.WillMatch := fun h =>
    hserved.unstuck_iff_willMatch.1 (h [] s₀ List.nil_prefix rfl)
  rw [← hmatch]
  suffices hrun : s₀.WillMatch → ((machine d conn).Throughout (Unstuck conn) s₀ acts ↔
      (machine d conn).Run Followed s₀ acts s) from
    ⟨fun h => ⟨hfirst h, (hrun (hfirst h)).1 h⟩, fun h => (hrun h.1).2 h.2⟩
  intro hmatch₀
  refine Machine.throughout_iff_run (Q := Forwarded d conn)
    (fun s a s' hs _ hstep _ => hs.step hstep) (fun s a s' hs hunstuck hstep => ?_) ⟨hserved, ?_⟩
    (hserved.unstuck_iff_willMatch.2 hmatch₀) hexec
  · rw [(hs.step hstep).served.unstuck_iff_willMatch]
    exact willMatch_step hs (hs.served.unstuck_iff_willMatch.1 hunstuck) hstep
  · -- nothing is held yet
    intro button hmem
    rw [hmatch₀.2, hphysical] at hmem
    exact absurd hmem (Finset.notMem_empty _)

/-- A window of 1280 by 720 whose connection is the first. -/
def opened : State where
  display := ⟨0, 1280, 720, (0, 0)⟩
  channel := []
  wire := []
  server := { Input.initial ⟨1280, 720⟩ with
    generation := 1
    phase := Function.update (Function.update (fun _ => .absent) 1 .greeting) 1 .serving }
  physical := .none

theorem opened_init : (machine ⟨1280, 720⟩ 1).init opened := by
  have hconnected : (Input.machine ⟨1280, 720⟩).exec (Input.initial ⟨1280, 720⟩)
      [.connect, .serve 1] = some opened.server := rfl
  exact ⟨Machine.reach_of_exec _ (Machine.Reachable.start rfl) hconnected, fun _ => rfl, rfl, rfl,
    rfl, rfl⟩

/-- Ctrl is held while the left button is clicked, and goes up. -/
def ctrlClick : List Action :=
  [.key (.enter []), .key (.press 29), .pointer ⟨0, (0, 0), .press 0x110⟩, .forward,
    .pointer ⟨0, (0, 0), .release 0x110⟩, .key (.release 29), .key .leave]

theorem unstuck_iff_ctrlClick :
    ∃ s, (machine ⟨1280, 720⟩ 1).exec opened ctrlClick = some s ∧
      (machine ⟨1280, 720⟩ 1).Throughout (Unstuck 1) opened ctrlClick := by
  have hexec : ∃ s, (machine ⟨1280, 720⟩ 1).exec opened ctrlClick = some s ∧
      (machine ⟨1280, 720⟩ 1).Run Followed opened ctrlClick s := by
    refine ⟨_, rfl, ?_, _, rfl, ?_, _, rfl, ?_, _, rfl, ?_, _, rfl, ?_, _, rfl, ?_, _, rfl, ?_, _,
      rfl, rfl⟩
    all_goals decide
  obtain ⟨s, hexec, hrun⟩ := hexec
  exact ⟨s, hexec, (unstuck_iff opened_init hexec).2 ⟨⟨rfl, rfl⟩, hrun⟩⟩

/-- Ctrl is held when the keyboard goes to another window. -/
def focusLost : List Action :=
  [.key (.enter []), .key (.press 29), .key .leave, .forward, .receive, .serve .beginPass,
    .serve .advance, .serve .advance, .serve .take, .serve .advance]

/-- The button at the side goes down. -/
def sideButton : List Action :=
  [.pointer ⟨0, (0, 0), .enter⟩, .pointer ⟨0, (0, 0), .press 0x113⟩, .forward, .receive,
    .serve .beginPass, .serve .advance, .serve .take, .serve .advance, .serve .advance]

/-- **Ctrl stays down**, and the left button goes down for another. -/
theorem not_unstuck :
    (∃ s, (machine ⟨1280, 720⟩ 1).exec opened focusLost = some s ∧ s.Settled ∧
      s.server.seat.keys = {37} ∧ s.physical.keys = ∅ ∧ ¬Unstuck 1 s) ∧
    ∃ s, (machine ⟨1280, 720⟩ 1).exec opened sideButton = some s ∧ s.Settled ∧
      s.server.seat.buttons = {0x110} ∧ s.physical.buttons = {0x113} ∧ ¬Unstuck 1 s := by
  have hkey : ∃ s, (machine ⟨1280, 720⟩ 1).exec opened focusLost = some s ∧ s.channel = [] ∧
      s.wire = [] ∧ (∀ device, s.server.channel device = []) ∧ s.server.seat.keys = {37} ∧
      s.physical.keys = ∅ := by
    refine ⟨_, rfl, rfl, rfl, fun device => ?_, by decide +kernel, rfl⟩
    cases device <;> rfl
  have hbutton : ∃ s, (machine ⟨1280, 720⟩ 1).exec opened sideButton = some s ∧ s.channel = [] ∧
      s.wire = [] ∧ (∀ device, s.server.channel device = []) ∧
      s.server.seat.buttons = {0x110} ∧ s.physical.buttons = {0x113} := by
    refine ⟨_, rfl, rfl, rfl, fun device => ?_, by decide +kernel, rfl⟩
    cases device <;> rfl
  obtain ⟨s, hexec, hchannel, hwire, hdrained, hseat, hphysical⟩ := hkey
  obtain ⟨t, hexec', hchannel', hwire', hdrained', hseat', hphysical'⟩ := hbutton
  have hsettled : s.Settled := ⟨hchannel, hwire, hdrained⟩
  have hsettled' : t.Settled := ⟨hchannel', hwire', hdrained'⟩
  refine ⟨⟨s, hexec, hsettled, hseat, hphysical, fun hunstuck => ?_⟩,
    t, hexec', hsettled', hseat', hphysical', fun hunstuck => ?_⟩
  · have hkeys := (hunstuck s .refl hsettled).1
    rw [hseat, hphysical] at hkeys
    exact absurd hkeys (by decide)
  · have hbuttons := (hunstuck t .refl hsettled').2
    rw [hseat', hphysical'] at hbuttons
    exact absurd hbuttons (by decide)

end Forwarding

end Native

end WaylandWebStream
