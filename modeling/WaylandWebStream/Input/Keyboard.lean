import WaylandWebStream.Input.Uplink
import Mathlib.Data.Finset.Lattice.Lemmas
import Mathlib.Data.Finset.SDiff
import Mathlib.Data.List.Nodup

/-!
# The page's keyboard — from the canvas to the seat

The canvas forwards each key by its physical code and keeps the codes it
has sent a keydown for. A key can be let go where the page does not see
it, so the page lets go of all of them when it loses the focus. The
browser's own repeats are not sent. Over a connection that lasts, the
seat then holds exactly the keys that are down as far as the page can
tell, and nothing once the focus is lost.
-/

namespace WaylandWebStream

namespace WebKeyboard

open Input (InputMessage KeyboardEvent Device Dimensions evdevKeycode evdevKeycodes)

/-! ## The table -/

theorem mem_of_evdevKeycode {code : String} {keycode : UInt32}
    (h : evdevKeycode code = some keycode) : (code, keycode) ∈ evdevKeycodes := by
  obtain ⟨before, after, hsplit, -⟩ := List.lookup_eq_some_iff.1 h
  rw [hsplit]
  exact List.mem_append_right _ List.mem_cons_self

/-- **No two codes are one key.** -/
theorem evdevKeycode_inj {code code' : String} {keycode : UInt32}
    (h : evdevKeycode code = some keycode) (h' : evdevKeycode code' = some keycode) :
    code = code' := by
  have hnodup : (evdevKeycodes.map Prod.snd).Nodup := by decide +kernel
  exact congrArg Prod.fst (List.inj_on_of_nodup_map hnodup (mem_of_evdevKeycode h)
    (mem_of_evdevKeycode h') rfl)

/-! ## The page -/

/-- What happens to the keyboard, as the page hears of it. -/
inductive KeyInput
  /-- `repeated` is the browser's own repeat. -/
  | keydown (code : String) (repeated : Bool)
  | keyup (code : String)
  /-- The canvas or the window loses the focus, or the tab is hidden. -/
  | blur
  deriving DecidableEq

/-- `pressedCodes.add`; a set keeps the order of insertion. -/
def add (pressedCodes : List String) (code : String) : List String :=
  if code ∈ pressedCodes then pressedCodes else pressedCodes ++ [code]

/-- `pressedCodes.delete`. -/
def delete (pressedCodes : List String) (code : String) : List String :=
  pressedCodes.filter (· ≠ code)

/-- A handler of the canvas: the codes after it, and what it sends. -/
def onInput (pressedCodes : List String) : KeyInput → List String × List KeyboardEvent
  | .keydown code repeated =>
    if repeated then (pressedCodes, []) else (add pressedCodes code, [.down code])
  | .keyup code => (delete pressedCodes code, [.up code])
  | .blur => ([], pressedCodes.map .up)

/-- The keys that are down, as far as a page with the focus can tell. -/
def physical (down : Finset String) : KeyInput → Finset String
  | .keydown code repeated => if repeated then down else insert code down
  | .keyup code => down.erase code
  | .blur => ∅

/-- The page: the codes it has sent a keydown for, and the keys that are down.
No handler reads these. -/
structure Page where
  pressedCodes : List String
  down : Finset String

/-- The canvas's handlers. -/
def sender : Uplink.Sender Page KeyInput := fun page e =>
  let (pressedCodes, sent) := onInput page.pressedCodes e
  (⟨pressedCodes, physical page.down e⟩, sent.map .key)

/-- **A page and its connection**, from a moment when no key is held. -/
def machine (d : Dimensions) (conn : ℕ) (before : List Input.Entry) :
    Machine (Uplink.State Page) (Uplink.Action (Uplink.Among .key KeyInput)) :=
  Uplink.machine d conn before
    (fun page server => page = ⟨[], ∅⟩ ∧ server.seat.keys = ∅) (sender.among .key)

/-- **The seat's keys are those that are down**, in XKB numbering; codes
with no keycode apart. -/
def Tracks (keys : Finset UInt32) (codes : Finset String) : Prop :=
  ∀ keycode, keycode + 8 ∈ keys ↔ ∃ code ∈ codes, evdevKeycode code = some keycode

/-! ## What the page sends -/

section Sent

variable {keys : Finset UInt32} {codes : Finset String} {messages : List InputMessage}

/-- What messages leave held. -/
def heldAfter (keys : Finset UInt32) (messages : List InputMessage) : Finset UInt32 :=
  (messages.filterMap (·.keyEdge)).foldl Edge.apply keys

theorem heldAfter_cons (m : InputMessage) :
    heldAfter keys (m :: messages) = heldAfter (heldAfter keys [m]) messages := by
  unfold heldAfter
  rw [List.filterMap_cons]
  cases hedge : m.keyEdge with
  | none => simp [hedge]
  | some e => simp [hedge]

/-- A keydown presses its key. -/
theorem Tracks.keydown (h : Tracks keys codes) (code : String) :
    Tracks (heldAfter keys [.key (.down code)]) (insert code codes) := by
  intro keycode
  have hold := h keycode
  unfold heldAfter
  cases hcode : evdevKeycode code with
  | none =>
    have hnone : InputMessage.keyEdge (.key (.down code)) = none := by
      simp [InputMessage.keyEdge, hcode]
    simp [hnone, hold, hcode]
  | some k =>
    have hsome : InputMessage.keyEdge (.key (.down code)) = some (.press (k + 8)) := by
      simp [InputMessage.keyEdge, hcode]
    have hadd : keycode + 8 = k + 8 ↔ k = keycode :=
      (UInt32.add_left_inj 8).trans eq_comm
    simp [hsome, Edge.apply, hold, hcode, hadd]

/-- A keyup releases its key, and no other code's. -/
theorem Tracks.keyup (h : Tracks keys codes) (code : String) :
    Tracks (heldAfter keys [.key (.up code)]) (codes.erase code) := by
  intro keycode
  have hold := h keycode
  unfold heldAfter
  cases hcode : evdevKeycode code with
  | none =>
    have hnone : InputMessage.keyEdge (.key (.up code)) = none := by
      simp [InputMessage.keyEdge, hcode]
    have hother : ∀ c, evdevKeycode c = some keycode → c ≠ code := by
      rintro c hc rfl
      rw [hcode] at hc
      cases hc
    simp only [List.filterMap_cons, hnone, List.filterMap_nil, List.foldl_nil, hold,
      Finset.mem_erase]
    constructor
    · rintro ⟨c, hc, hkey⟩
      exact ⟨c, ⟨hother c hkey, hc⟩, hkey⟩
    · rintro ⟨c, ⟨-, hc⟩, hkey⟩
      exact ⟨c, hc, hkey⟩
  | some k =>
    have hsome : InputMessage.keyEdge (.key (.up code)) = some (.release (k + 8)) := by
      simp [InputMessage.keyEdge, hcode]
    have hother : ∀ c, evdevKeycode c = some keycode → (c ≠ code ↔ keycode + 8 ≠ k + 8) := by
      intro c hc
      refine not_congr ⟨?_, fun heq => ?_⟩
      · rintro rfl
        rw [Option.some.inj (hc.symm.trans hcode)]
      · rw [(UInt32.add_left_inj 8).1 heq] at hc
        exact evdevKeycode_inj hc hcode
    simp only [List.filterMap_cons, hsome, List.filterMap_nil, List.foldl_cons, List.foldl_nil,
      Edge.apply, Finset.mem_erase, hold]
    constructor
    · rintro ⟨hne, c, hc, hkey⟩
      exact ⟨c, ⟨(hother c hkey).2 hne, hc⟩, hkey⟩
    · rintro ⟨c, ⟨hne, hc⟩, hkey⟩
      exact ⟨(hother c hkey).1 hne, c, hc, hkey⟩

/-- Keyups release all their keys. -/
theorem Tracks.keyups (h : Tracks keys codes) (released : List String) :
    Tracks (heldAfter keys ((released.map KeyboardEvent.up).map .key))
      (codes \ released.toFinset) := by
  induction released generalizing keys codes with
  | nil =>
    rw [List.toFinset_nil, Finset.sdiff_empty]
    exact h
  | cons code released ih =>
    have hrest : codes \ insert code released.toFinset = codes.erase code \ released.toFinset := by
      ext c
      simp only [Finset.mem_sdiff, Finset.mem_insert, Finset.mem_erase]
      tauto
    rw [List.map_cons, List.map_cons, heldAfter_cons, List.toFinset_cons, hrest]
    exact ih (h.keyup code)

/-- The codes the page keeps, as a set. -/
theorem toFinset_onInput (pressedCodes : List String) (e : KeyInput) :
    (onInput pressedCodes e).1.toFinset = physical pressedCodes.toFinset e := by
  cases e with
  | keydown code repeated =>
    cases repeated with
    | true => rfl
    | false =>
      simp only [onInput, physical, add, Bool.false_eq_true, if_false]
      split
      · next hmem => rw [Finset.insert_eq_of_mem (List.mem_toFinset.2 hmem)]
      · rw [List.toFinset_append, List.toFinset_cons, List.toFinset_nil, Finset.union_insert,
          Finset.union_empty]
  | keyup code =>
    ext c
    simp [onInput, physical, delete, and_comm]
  | blur => rfl

/-- **What the page sends keeps track of what is down.** -/
theorem Tracks.onInput {pressedCodes : List String} (h : Tracks keys pressedCodes.toFinset)
    (e : KeyInput) : Tracks (heldAfter keys ((onInput pressedCodes e).2.map .key))
      (physical pressedCodes.toFinset e) := by
  cases e with
  | keydown code repeated =>
    cases repeated with
    | true => exact h
    | false => exact h.keydown code
  | keyup code => exact h.keyup code
  | blur =>
    have hreleased := h.keyups pressedCodes
    rw [Finset.sdiff_self] at hreleased
    exact hreleased

end Sent

/-! ## The seat -/

section Runs

variable {d : Dimensions} {conn : ℕ} {before : List Input.Entry} {s : Uplink.State Page}

/-- What more messages leave held. -/
theorem held_append (sent more : List InputMessage) :
    Edge.held ((sent ++ more).filterMap (·.keyEdge)) =
      heldAfter (Edge.held (sent.filterMap (·.keyEdge))) more := by
  rw [List.filterMap_append, Edge.held, List.foldl_append]
  rfl

/-- **What is kept of the page**: it knows what is down, and has said so. -/
structure Kept (page : Page) (sent : List InputMessage) : Prop where
  down : page.pressedCodes.toFinset = page.down
  tracks : Tracks (Edge.held (sent.filterMap (·.keyEdge))) page.down

theorem Kept.sends {page : Page} {sent : List InputMessage} (h : Kept page sent)
    (e : Uplink.Among .key KeyInput) :
    Kept (sender.among .key page e).1 (sent ++ (sender.among .key page e).2) := by
  have htracks := h.tracks
  cases e with
  | own e =>
    rw [← h.down] at htracks
    refine ⟨?_, ?_⟩
    · show (onInput page.pressedCodes e).1.toFinset = physical page.down e
      rw [toFinset_onInput, h.down]
    · rw [held_append]
      have hsends := htracks.onInput e
      rw [h.down] at hsends
      exact hsends
  | other message hother =>
    refine ⟨h.down, ?_⟩
    rw [held_append, heldAfter]
    simp only [Uplink.Sender.among, List.filterMap_cons, InputMessage.keyEdge_of_device hother]
    exact htracks

theorem kept_of_reachable (h : (machine d conn before).Reachable s) : Kept s.page s.sent := by
  refine Uplink.page_invariant (fun page server hstart => ?_) (fun page sent e _ hs => hs.sends e)
    (Uplink.reach_meets h)
  rw [hstart.1]
  refine ⟨rfl, fun keycode => ⟨fun hmem => absurd hmem (Finset.notMem_empty _), ?_⟩⟩
  rintro ⟨code, hmem, -⟩
  exact absurd hmem (Finset.notMem_empty _)

/-- **The seat holds what is down, and nothing else.** Whatever happened to
the keyboard, keyups that never reach the page included, and whatever was
sent in between, once the messages are processed the seat's keys are those
down since the page last lost the focus, and the page still knows which
these are. -/
theorem seat_tracks_keyboard (h : (machine d conn before).Reachable s) (hsettled : s.Settled) :
    Tracks s.server.seat.keys s.page.down ∧ s.page.pressedCodes.toFinset = s.page.down ∧
      (s.page.down = ∅ → s.server.seat.keys = ∅) := by
  have hkept := kept_of_reachable h
  have htracks := hkept.tracks
  rw [← Uplink.seat_keys (fun page server hstart => hstart.2) h hsettled] at htracks
  refine ⟨htracks, hkept.down, fun hnone => ?_⟩
  rw [Finset.eq_empty_iff_forall_notMem]
  intro key hkey
  have heq : key - 8 + 8 = key := UInt32.sub_add_cancel key 8
  obtain ⟨code, hcode, -⟩ := (htracks (key - 8)).1 (heq.symm ▸ hkey)
  rw [hnone] at hcode
  exact absurd hcode (Finset.notMem_empty _)

/-- A page just connected, the first. -/
def someState : Uplink.State Page where
  page := ⟨[], ∅⟩
  wire := []
  server := { Input.initial ⟨1280, 720⟩ with
    generation := 1
    phase := Function.update (Function.update (fun _ => .absent) 1 .greeting) 1 .serving }
  sent := []

/-- Alt and Tab go down, the window manager switches away and takes their
keyups; back in the page, a key is typed and held. -/
def switchedAway : List (Uplink.Action (Uplink.Among .key KeyInput)) :=
  [.page (.own (.keydown "AltLeft" false)), .page (.own (.keydown "Tab" false)),
    .page (.own .blur), .page (.own (.keydown "KeyA" false)),
    .page (.own (.keydown "KeyA" true))] ++
    List.replicate 5 .receive ++
    [.serve .beginPass, .serve .advance, .serve .advance] ++
    List.replicate 5 (.serve .take) ++ [.serve .advance]

theorem seat_tracks_keyboard_switchedAway : ∃ s : Uplink.State Page,
    s.page.down = {"KeyA"} ∧ Tracks s.server.seat.keys s.page.down := by
  have hserver : (Input.machine ⟨1280, 720⟩).exec (Input.initial ⟨1280, 720⟩)
      [.connect, .serve 1] = some someState.server := rfl
  have hreach := Machine.reach_of_exec _ (.start rfl) hserver
  have hstart : (machine ⟨1280, 720⟩ 1 []).init someState :=
    ⟨hreach, fun device => rfl, rfl, rfl, ⟨rfl, rfl⟩, rfl, rfl⟩
  have hrun : ∃ s, (machine ⟨1280, 720⟩ 1 []).exec someState switchedAway = some s ∧
      s.Settled ∧ s.page.down = {"KeyA"} := by
    refine ⟨_, rfl, ⟨rfl, fun device => ?_⟩, rfl⟩
    cases device <;> rfl
  obtain ⟨s, hexec, hsettled, hdown⟩ := hrun
  exact ⟨s, hdown,
    (seat_tracks_keyboard (Machine.reach_of_exec _ (.start hstart) hexec) hsettled).1⟩

end Runs

end WebKeyboard

end WaylandWebStream
