import WaylandWebStream.Compositor.Readers
import WaylandWebStream.Lib.Base64
import WaylandWebStream.Wire.Messages
import Mathlib.Logic.Function.Basic

/-!
# The cursor — a client's image, on its way out

A client sets its cursor to nothing, to a named shape or to a surface.
The pixels of a surface are read when it is set and again whenever it
commits; where they cannot be read, the cursor before stays. The main
loop takes what was last extracted and sends it with its pixels in
base64.
-/

namespace WaylandWebStream

namespace Compositor

open Wire (CursorUpdate)

/-- The named shapes `cursor_icon_to_css` tells apart. -/
inductive CursorIcon
  | default | contextMenu | help | pointer | progress | wait | cell | crosshair | text
  | verticalText | alias | copy | move | noDrop | notAllowed | grab | grabbing
  | eResize | nResize | neResize | nwResize | sResize | seResize | swResize | wResize
  | ewResize | nsResize | neswResize | nwseResize | colResize | rowResize
  | allScroll | zoomIn | zoomOut
  /-- A shape of a later version of the protocol. -/
  | other
  deriving DecidableEq

/-- The name browsers have for a shape. -/
def cursorIconToCss : CursorIcon → String
  | .default => "default"
  | .contextMenu => "context-menu"
  | .help => "help"
  | .pointer => "pointer"
  | .progress => "progress"
  | .wait => "wait"
  | .cell => "cell"
  | .crosshair => "crosshair"
  | .text => "text"
  | .verticalText => "vertical-text"
  | .alias => "alias"
  | .copy => "copy"
  | .move => "move"
  | .noDrop => "no-drop"
  | .notAllowed => "not-allowed"
  | .grab => "grab"
  | .grabbing => "grabbing"
  | .eResize => "e-resize"
  | .nResize => "n-resize"
  | .neResize => "ne-resize"
  | .nwResize => "nw-resize"
  | .sResize => "s-resize"
  | .seResize => "se-resize"
  | .swResize => "sw-resize"
  | .wResize => "w-resize"
  | .ewResize => "ew-resize"
  | .nsResize => "ns-resize"
  | .neswResize => "nesw-resize"
  | .nwseResize => "nwse-resize"
  | .colResize => "col-resize"
  | .rowResize => "row-resize"
  | .allScroll => "all-scroll"
  | .zoomIn => "zoom-in"
  | .zoomOut => "zoom-out"
  | .other => "default"

/-- `Point<i32, Logical>`. -/
structure Hotspot where
  x : Int32
  y : Int32
  deriving DecidableEq

/-- What a client sets its cursor to. -/
inductive CursorImageStatus (ι : Type)
  | hidden
  | named (icon : CursorIcon)
  /-- A surface, and the hotspot it has by then. -/
  | surface (wlSurface : ι) (hotspot : Hotspot)
  deriving DecidableEq

/-- A cursor on its way to the main loop. -/
inductive CursorPending
  | hidden
  | named (name : String)
  | surface (width height : UInt32) (hotspotX hotspotY : Int32) (rgba : Bytes)
  deriving DecidableEq

/-- The wire's form of it. -/
def cursorPendingToUpdate : CursorPending → CursorUpdate
  | .hidden => .hidden
  | .named name => .named name
  | .surface width height hotspotX hotspotY rgba =>
    .surface width height hotspotX hotspotY (Base64.encode rgba)

/-- The cursor, as the compositor keeps it. -/
structure CursorState (ι : Type) where
  /-- The buffer each surface has committed. -/
  buffers : ι → Option WlBuffer
  cursorSurface : Option (ι × Hotspot)
  cursorPending : Option CursorPending
  /-- What the focused client last set, which nothing reads. -/
  image : Option (CursorImageStatus ι)

namespace CursorState

variable {ι : Type} [DecidableEq ι]

/-- Nothing committed, nothing set. -/
def initial : CursorState ι := ⟨fun _ => none, none, none, none⟩

section Operations

variable (glReadback : Dmabuf → Option Image) (s : CursorState ι)

/-- The pixels a surface has committed. -/
def readBufferRgba (wlSurface : ι) : Except Panic (Option Image) :=
  match s.buffers wlSurface with
  | none => pure none
  | some buffer => readWlBufferRgba glReadback buffer

def readCursorPixels (wlSurface : ι) (hotspot : Hotspot) : Except Panic (Option CursorPending) := do
  match ← s.readBufferRgba glReadback wlSurface with
  | none => pure none
  | some img =>
    pure (some (.surface (UInt32.ofNat img.width) (UInt32.ofNat img.height) hotspot.x hotspot.y
      img.rgba))

/-- Stages the cursor surface's pixels, if there are any to read. -/
def tryExtractCursor : Except Panic (CursorState ι) :=
  match s.cursorSurface with
  | none => pure s
  | some (wlSurface, hotspot) => do
    match ← s.readCursorPixels glReadback wlSurface hotspot with
    | none => pure s
    | some pending => pure { s with cursorPending := some pending }

/-- The focused client sets its cursor. -/
def cursorImage (image : CursorImageStatus ι) : Except Panic (CursorState ι) :=
  let s := { s with image := some image }
  match image with
  | .hidden => pure { s with cursorSurface := none, cursorPending := some .hidden }
  | .named icon =>
    pure { s with cursorSurface := none, cursorPending := some (.named (cursorIconToCss icon)) }
  | .surface wlSurface hotspot =>
    { s with cursorSurface := some (wlSurface, hotspot) }.tryExtractCursor glReadback

/-- The buffer a commit attaches, or none, is the surface's. -/
def applyBuffer (surface : ι) (attached : Option (Option WlBuffer)) : CursorState ι :=
  match attached with
  | none => s
  | some buffer => { s with buffers := Function.update s.buffers surface buffer }

/-- A commit: the cursor surface is read again. -/
def commit (surface : ι) (attached : Option (Option WlBuffer)) : Except Panic (CursorState ι) :=
  let s := s.applyBuffer surface attached
  if s.cursorSurface.map Prod.fst = some surface then s.tryExtractCursor glReadback else pure s

/-- What was extracted since the last call. -/
def takeCursorPending : Option CursorPending × CursorState ι :=
  (s.cursorPending, { s with cursorPending := none })

end Operations

/-! ## What is shown of the cursor -/

section Shown

variable {glReadback : Dmabuf → Option Image} {s s' : CursorState ι}

/-- The page's cursor, once what is pending is taken. -/
def latest (s : CursorState ι) (taken : CursorUpdate) : CursorUpdate :=
  (s.cursorPending.map cursorPendingToUpdate).getD taken

/-- **What is taken or pending is what the client set**: its shape, or the
pixels its surface has, as far as they can be read. -/
structure Extracted (glReadback : Dmabuf → Option Image) (s : CursorState ι)
    (taken : CursorUpdate) : Prop where
  unset : s.image = none → s.latest taken = .default
  hidden : s.image = some .hidden → s.latest taken = .hidden
  named : ∀ icon, s.image = some (.named icon) → s.latest taken = .named (cursorIconToCss icon)
  cursorSurface : ∀ wlSurface hotspot, s.image = some (.surface wlSurface hotspot) ↔
    s.cursorSurface = some (wlSurface, hotspot)
  surface : ∀ wlSurface hotspot img, s.cursorSurface = some (wlSurface, hotspot) →
    s.readBufferRgba glReadback wlSurface = .ok (some img) →
    s.latest taken = .surface (UInt32.ofNat img.width) (UInt32.ofNat img.height) hotspot.x hotspot.y
      (Base64.encode img.rgba)

omit [DecidableEq ι] in
/-- **An extraction stages what can be read**, and touches nothing else. -/
theorem tryExtractCursor_ok (h : s.tryExtractCursor glReadback = .ok s') :
    s'.buffers = s.buffers ∧ s'.cursorSurface = s.cursorSurface ∧ s'.image = s.image ∧
      ∀ wlSurface hotspot, s.cursorSurface = some (wlSurface, hotspot) →
        ∃ read, s.readBufferRgba glReadback wlSurface = .ok read ∧
          s'.cursorPending = (read.map fun img => CursorPending.surface (UInt32.ofNat img.width)
            (UInt32.ofNat img.height) hotspot.x hotspot.y img.rgba).or s.cursorPending := by
  rw [tryExtractCursor] at h
  cases hsurface : s.cursorSurface with
  | none =>
    rw [hsurface] at h
    cases h
    exact ⟨rfl, hsurface, rfl, fun _ _ heq => absurd heq nofun⟩
  | some cursor =>
    obtain ⟨wlSurface, hotspot⟩ := cursor
    rw [hsurface] at h
    cases hread : s.readBufferRgba glReadback wlSurface with
    | error e =>
      simp only [readCursorPixels, hread] at h
      cases h
    | ok read =>
      simp only [readCursorPixels, hread] at h
      cases read with
      | none =>
        cases h
        refine ⟨rfl, hsurface, rfl, fun w p heq => ?_⟩
        cases heq
        exact ⟨none, hread, rfl⟩
      | some img =>
        cases h
        refine ⟨rfl, rfl, rfl, fun w p heq => ?_⟩
        cases heq
        exact ⟨some img, hread, rfl⟩

omit [DecidableEq ι] in
/-- Where a surface is the client's cursor, an extraction leaves it staged. -/
theorem Extracted.extract {taken : CursorUpdate} {wlSurface : ι} {hotspot : Hotspot}
    (himage : s.image = some (.surface wlSurface hotspot))
    (hcursor : s.cursorSurface = some (wlSurface, hotspot))
    (h : s.tryExtractCursor glReadback = .ok s') : Extracted glReadback s' taken := by
  obtain ⟨hbuffers, hsurface, hsame, hpending⟩ := tryExtractCursor_ok h
  refine ⟨fun hunset => ?_, fun hhidden => ?_, fun icon hnamed => ?_, fun w p => ?_,
    fun w p img hw hread => ?_⟩
  · rw [hsame, himage] at hunset
    cases hunset
  · rw [hsame, himage] at hhidden
    cases hhidden
  · rw [hsame, himage] at hnamed
    cases hnamed
  · rw [hsame, hsurface, himage, hcursor]
    simp
  · rw [hsurface] at hw
    obtain ⟨read, hread', hstaged⟩ := hpending w p hw
    rw [readBufferRgba, hbuffers] at hread
    obtain rfl : some img = read := by
      rw [readBufferRgba, hread] at hread'
      exact Except.ok.inj hread'
    rw [latest, hstaged]
    rfl

omit [DecidableEq ι] in
/-- What the client sets is staged. -/
theorem Extracted.cursorImage {taken : CursorUpdate} {image : CursorImageStatus ι}
    (h : s.cursorImage glReadback image = .ok s') : Extracted glReadback s' taken := by
  cases image with
  | hidden =>
    cases h
    exact ⟨nofun, fun _ => rfl, nofun, fun _ _ => ⟨nofun, nofun⟩, nofun⟩
  | named icon =>
    cases h
    refine ⟨nofun, nofun, fun icon' heq => ?_, fun _ _ => ⟨nofun, nofun⟩, nofun⟩
    cases heq
    rfl
  | surface wlSurface hotspot =>
    have hextract : CursorState.tryExtractCursor glReadback { s with
        image := some (.surface wlSurface hotspot)
        cursorSurface := some (wlSurface, hotspot) } = .ok s' := h
    exact Extracted.extract rfl rfl hextract

/-- Only the surface's own buffer changes. -/
theorem applyBuffer_frame (s : CursorState ι) (surface : ι) (attached : Option (Option WlBuffer)) :
    (s.applyBuffer surface attached).cursorSurface = s.cursorSurface ∧
      (s.applyBuffer surface attached).cursorPending = s.cursorPending ∧
      (s.applyBuffer surface attached).image = s.image ∧
      ∀ w, w ≠ surface → (s.applyBuffer surface attached).buffers w = s.buffers w := by
  cases attached with
  | none => exact ⟨rfl, rfl, rfl, fun _ _ => rfl⟩
  | some buffer => exact ⟨rfl, rfl, rfl, fun w hw => Function.update_of_ne hw ..⟩

/-- A commit stages what the cursor surface has then. -/
theorem Extracted.commit {taken : CursorUpdate} {surface : ι}
    {attached : Option (Option WlBuffer)} (hs : Extracted glReadback s taken)
    (h : s.commit glReadback surface attached = .ok s') : Extracted glReadback s' taken := by
  obtain ⟨hcursor, hpending, himage, hother⟩ := applyBuffer_frame s surface attached
  unfold CursorState.commit at h
  generalize s.applyBuffer surface attached = t at h hcursor hpending himage hother
  dsimp only at h
  by_cases hmine : t.cursorSurface.map Prod.fst = some surface
  · rw [if_pos hmine] at h
    obtain ⟨⟨w, hotspot⟩, hset, rfl⟩ := Option.map_eq_some_iff.1 hmine
    refine Extracted.extract ?_ hset h
    rw [himage]
    exact (hs.cursorSurface _ _).2 (hcursor ▸ hset)
  · rw [if_neg hmine] at h
    cases h
    refine ⟨fun hunset => ?_, fun hhidden => ?_, fun icon hnamed => ?_, fun w p => ?_,
      fun w p img hw hread => ?_⟩
    · rw [latest, hpending]
      exact hs.unset (himage ▸ hunset)
    · rw [latest, hpending]
      exact hs.hidden (himage ▸ hhidden)
    · rw [latest, hpending]
      exact hs.named icon (himage ▸ hnamed)
    · rw [himage, hcursor]
      exact hs.cursorSurface w p
    · have hne : w ≠ surface := by
        rintro rfl
        exact hmine (by rw [hw]; rfl)
      rw [readBufferRgba, hother w hne] at hread
      rw [latest, hpending]
      exact hs.surface w p img (hcursor ▸ hw) hread

omit [DecidableEq ι] in
/-- What is pending is taken. -/
theorem Extracted.take {taken : CursorUpdate} (hs : Extracted glReadback s taken) :
    Extracted glReadback s.takeCursorPending.2 (s.latest taken) :=
  ⟨hs.unset, hs.hidden, hs.named, hs.cursorSurface, hs.surface⟩

omit [DecidableEq ι] in
theorem Extracted.initial : Extracted glReadback (initial : CursorState ι) .default :=
  ⟨fun _ => rfl, nofun, nofun, fun _ _ => ⟨nofun, nofun⟩, nofun⟩

end Shown

end CursorState

end Compositor

end WaylandWebStream
