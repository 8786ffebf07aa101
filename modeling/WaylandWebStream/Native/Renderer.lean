import WaylandWebStream.Lib.Machine
import WaylandWebStream.Native.Blit
import Mathlib.Data.List.FinRange

/-!
# Renderer — three slots of shared memory, and a compositor that borrows them

The native window draws a frame into a free slot and attaches it; from then
on the compositor has it, until it sends a release, which comes back with no
more than the slot's index. What the renderer does is told by its effects,
in order. The machine interleaves its calls with the compositor's releases.
-/

namespace WaylandWebStream

namespace Native

open Strided

/-- The index of a slot, which its `wl_buffer` carries. -/
abbrev SlotId := Fin 3

/-- **A slot**: its `wl_buffer`, the memory mapped for it, and who has it. -/
structure BufferSlot where
  /-- The `wl_buffer` object. -/
  buffer : ℕ
  /-- The mapping, `mmap_size` bytes of it. -/
  mapping : Bytes
  width : UInt32
  height : UInt32
  /-- Not with the compositor: safe to write and attach. -/
  released : Bool
  /-- Of a size that is past, to be dropped when the compositor is done. -/
  zombie : Bool

/-- Released, and not a zombie. -/
def BufferSlot.free (slot : BufferSlot) : Bool := slot.released && !slot.zombie

/-- A fresh slot, zeroed. The allocation may fail, and `mmap` of nothing does. -/
def createBufferSlot (allocated : Bool) (buffer : ℕ) (width height : UInt32) :
    Option BufferSlot :=
  if allocated && bufferSize width height != 0 then
    some { buffer, mapping := List.replicate (bufferSize width height) 0, width, height,
           released := true, zombie := false }
  else none

structure ShmRenderer where
  slots : SlotId → Option BufferSlot
  width : UInt32
  height : UInt32
  nextIdx : SlotId
  renderCount : UInt64
  /-- How many `wl_buffer`s the connection has made so far. -/
  made : ℕ

/-- What the renderer does to a slot, for others to see. -/
inductive Effect
  /-- One copy of a blit, from a frame of so many bytes. -/
  | copy (idx : SlotId) (slot : BufferSlot) (frameLen : ℕ) (c : Copy)
  /-- The slot is attached and committed, at the renderer's size. -/
  | attach (idx : SlotId) (slot : BufferSlot) (width height : UInt32)
  /-- The slot is dropped, its memory unmapped. -/
  | drop (slot : BufferSlot)
  /-- A release event of a buffer is handled, for what its index stores. -/
  | release (buffer : ℕ) (stored : Option BufferSlot)

namespace ShmRenderer

variable (r : ShmRenderer)

def setSlot (idx : SlotId) (slot : Option BufferSlot) : ShmRenderer :=
  { r with slots := Function.update r.slots idx slot }

/-- Fills the empty ones of some indices, up to the first failure. -/
def recreateFrom (allocates : SlotId → Bool) : List SlotId → ShmRenderer → ShmRenderer × Bool
  | [], r => (r, true)
  | idx :: rest, r =>
    match r.slots idx with
    | some _ => recreateFrom allocates rest r
    | none =>
      match createBufferSlot (allocates idx) r.made r.width r.height with
      | none => (r, false)
      | some slot =>
        recreateFrom allocates rest { r.setSlot idx (some slot) with made := r.made + 1 }

def recreateSlots (allocates : SlotId → Bool) : ShmRenderer × Bool :=
  recreateFrom allocates (List.finRange 3) r

/-- A renderer without its slots. -/
def bare (width height : UInt32) : ShmRenderer :=
  { slots := fun _ => none, width, height, nextIdx := 0, renderCount := 0, made := 0 }

/-- What a resize leaves of a slot. -/
def outgrow : Option BufferSlot → Option BufferSlot
  | some slot => if slot.released then none else some { slot with zombie := true }
  | none => none

/-- What a resize drops. -/
def dropped : Option BufferSlot → Option Effect
  | some slot => if slot.released then some (.drop slot) else none
  | none => none

def resize (newW newH : UInt32) : ShmRenderer × List Effect :=
  if newW = r.width ∧ newH = r.height then (r, [])
  else
    ({ r with width := newW, height := newH, slots := fun i => outgrow (r.slots i) },
      (List.finRange 3).filterMap fun i => dropped (r.slots i))

/-- The slot goes to the compositor. -/
def attach (idx : SlotId) (slot : BufferSlot) : ShmRenderer × Effect :=
  ({ r.setSlot idx (some { slot with released := false }) with nextIdx := idx + 1 },
    .attach idx slot r.width r.height)

/-- Which slots may be taken. -/
def released (idx : SlotId) : Bool := (r.slots idx).any BufferSlot.free

def prime : ShmRenderer × List Effect × Bool :=
  match (List.finRange 3).find? r.released with
  | none => (r, [], false)
  | some idx =>
    match r.slots idx with
    | none => (r, [], false)
    | some slot => ((r.attach idx slot).1, [(r.attach idx slot).2], true)

def resizeAndPrime (allocates : SlotId → Bool) (newW newH : UInt32) :
    ShmRenderer × List Effect × Bool :=
  let (resized, drops) := r.resize newW newH
  match resized.recreateSlots allocates with
  | (filled, false) => (filled, drops, false)
  | (filled, true) =>
    let (primed, effects, ok) := filled.prime
    (primed, drops ++ effects, ok)

/-- A release event for an index: the slot is free, or gone. -/
def releaseSlot (idx : SlotId) : ShmRenderer × List Effect :=
  match r.slots idx with
  | none => (r, [])
  | some slot =>
    if slot.zombie then (r.setSlot idx none, [.drop { slot with released := true }])
    else (r.setSlot idx (some { slot with released := true }), [])

/-- The next slot to draw into, from the preferred one on. -/
def pickNextReleased (released : SlotId → Bool) (preferred : SlotId) : Option SlotId :=
  ((List.finRange 3).map fun i => preferred + i).find? released

/-- The empty indices are filled before a frame is drawn. -/
def ready (allocates : SlotId → Bool) : ShmRenderer × Bool :=
  if (List.finRange 3).any fun i => (r.slots i).isNone then r.recreateSlots allocates
  else (r, true)

/-- The slot a frame would be drawn into, and its index. -/
def pick : Option (SlotId × BufferSlot) :=
  (pickNextReleased r.released r.nextIdx).bind fun idx => (r.slots idx).map fun slot => (idx, slot)

/-- A frame is of the slot's size, up to the server's rounding. -/
def tolerates (slot : BufferSlot) (frame : DecodedFrame) : Bool :=
  absDiff frame.width slot.width ≤ 2 && absDiff frame.height slot.height ≤ 2

/-- The slot with the frame in it. -/
def drawn (slot : BufferSlot) (frame : DecodedFrame) : BufferSlot :=
  { slot with mapping := blitInto frame slot.mapping slot.width.toNat slot.height.toNat }

/-- The copies that draw it. -/
def copies (idx : SlotId) (slot : BufferSlot) (frame : DecodedFrame) : List Effect :=
  (blitsOf frame slot.width.toNat slot.height.toNat slot.mapping.length).map
    (.copy idx slot frame.pixels.length)

/-- **One decoded frame is drawn and attached.** The answer is `none` for
an error, and whether the frame went out otherwise. -/
def render (allocates : SlotId → Bool) (frame : DecodedFrame) :
    ShmRenderer × List Effect × Option Bool :=
  match r.ready allocates with
  | (filled, false) => (filled, [], none)
  | (filled, true) =>
    match filled.pick with
    | none => (filled, [], some false)
    | some (idx, slot) =>
      if tolerates slot frame then
        let (sent, effect) := filled.attach idx (drawn slot frame)
        ({ sent with renderCount := sent.renderCount + 1 }, copies idx slot frame ++ [effect],
          some true)
      else (filled, [], some false)

end ShmRenderer

/-! ## The window and its compositor -/

/-- A buffer that was attached, with the index it carries. -/
structure Attached where
  buffer : ℕ
  slot : SlotId
deriving DecidableEq

/-- A frame that went out, and the slot it went out in. -/
structure Shown where
  frame : DecodedFrame
  slot : BufferSlot

/-- **The renderer and the compositor**: what the compositor holds, the
releases it has sent and the window not yet handled, and the frames shown. -/
structure State where
  renderer : ShmRenderer
  held : List Attached
  releases : List Attached
  shown : List Shown

inductive Action
  | resize (newW newH : UInt32)
  | resizeAndPrime (allocates : SlotId → Bool) (newW newH : UInt32)
  | prime
  | render (allocates : SlotId → Bool) (frame : DecodedFrame)
  /-- The compositor is done with one of the buffers it holds. -/
  | compositorReleases (n : ℕ)
  /-- The window handles the next release event. -/
  | dispatch

/-- What an effect hands to the compositor. -/
def Effect.attached : Effect → Option Attached
  | .attach idx slot _ _ => some ⟨slot.buffer, idx⟩
  | .copy _ _ _ _ | .drop _ | .release _ _ => none

/-- The frame an effect of a render shows. -/
def Effect.shown (frame : DecodedFrame) : Effect → Option Shown
  | .attach _ slot _ _ => some ⟨frame, slot⟩
  | .copy _ _ _ _ | .drop _ | .release _ _ => none

namespace State

variable (s : State)

/-- The buffers whose release is still to be handled. -/
def awaiting : List Attached := s.held ++ s.releases

/-- The renderer has acted. -/
def after (r : ShmRenderer) (effects : List Effect) : State :=
  { s with renderer := r, held := s.held ++ effects.filterMap Effect.attached }

/-- The state an action finds: a release event is taken off the queue first. -/
def found : Action → State
  | .dispatch => { s with releases := s.releases.tail }
  | _ => s

/-- **What an action does**, and the effects it has on the way. -/
def act : Action → Option (State × List Effect)
  | .resize newW newH =>
    let (r, effects) := s.renderer.resize newW newH
    some (s.after r effects, effects)
  | .resizeAndPrime allocates newW newH =>
    let (r, effects, _) := s.renderer.resizeAndPrime allocates newW newH
    some (s.after r effects, effects)
  | .prime =>
    let (r, effects, _) := s.renderer.prime
    some (s.after r effects, effects)
  | .render allocates frame =>
    let (r, effects, _) := s.renderer.render allocates frame
    some ({ s.after r effects with
            shown := s.shown ++ effects.filterMap (Effect.shown frame) }, effects)
  | .compositorReleases n =>
    match s.held[n]? with
    | none => none
    | some e => some ({ s with held := s.held.eraseIdx n, releases := s.releases ++ [e] }, [])
  | .dispatch =>
    match s.releases with
    | [] => none
    | e :: rest =>
      let (r, effects) := s.renderer.releaseSlot e.slot
      some ({ s with renderer := r, releases := rest },
        .release e.buffer (s.renderer.slots e.slot) :: effects)

end State

/-- **The native window as a machine**, from `ShmRenderer::new` on. -/
def machine : Machine State Action where
  init s := ∃ width height, ∃ allocates : SlotId → Bool,
    (ShmRenderer.bare width height).recreateSlots allocates = (s.renderer, true) ∧
      s.held = [] ∧ s.releases = [] ∧ s.shown = []
  step s a := (s.act a).map Prod.fst

end Native

end WaylandWebStream
