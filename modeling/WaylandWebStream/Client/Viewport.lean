import Mathlib.Data.Rat.Floor
import WaylandWebStream.Clipboard.Sync
import WaylandWebStream.Lib.Machine

/-!
# The viewport — from a window's size to the server's

`Viewport` asks the server for the resolution and scale of the window, after
every change of either, and `ClientChannel` carries the request, queues it
or drops it. What the viewport remembers (`lastSent`) is the size it last
handed over, whatever became of it: a request of the same size is not made
again. Sizes and ratios are rationals; a product is rounded as the doubles'
is, by any `round`, and everything else is exact in doubles as well.
-/

namespace WaylandWebStream

namespace Viewport

open Clipboard (Phase)

/-- A size in CSS pixels. -/
structure CssSize where
  width : ℚ
  height : ℚ
  deriving DecidableEq

structure RenderResolution where
  width : ℚ
  height : ℚ
  deriving DecidableEq

/-- The `resize` message. -/
structure Resize where
  width : ℚ
  height : ℚ
  scale : ℚ
  deriving DecidableEq

/-- Its size. -/
def Resize.size (r : Resize) : RenderResolution := ⟨r.width, r.height⟩

def MAX_RENDER_WIDTH : ℚ := 3840

def MAX_RENDER_HEIGHT : ℚ := 2160

def ALIGNMENT : ℚ := 16

def floorToAlignment (px : ℚ) : ℚ := ⌊px / ALIGNMENT⌋ * ALIGNMENT

def computeRenderResolution (round : ℚ → ℚ) (viewport : CssSize) (pixelRatio : ℚ) :
    RenderResolution where
  width := min (floorToAlignment (round (viewport.width * pixelRatio))) MAX_RENDER_WIDTH
  height := min (floorToAlignment (round (viewport.height * pixelRatio))) MAX_RENDER_HEIGHT

/-- The window, the viewport and its channel, and what the server has been
asked for. -/
structure State where
  /-- What `getViewportCssSize` reads. -/
  viewport : CssSize
  devicePixelRatio : ℚ
  useNative : Bool
  lastSent : Option RenderResolution := none
  lastCssSize : Option CssSize := none
  /-- The size in the canvas's style. -/
  canvasStyle : Option CssSize := none
  debounceTimer : Bool := false
  phase : Phase := .idle
  sendQueue : List Resize := []
  /-- The server is at the other end of the open socket. -/
  link : Bool := false
  /-- Requests on their way on the socket. -/
  toServer : List Resize := []
  /-- Every request the server received, from this client or another. -/
  received : List Resize
  /-- The request last handed to `sendControl`. -/
  handed : Option Resize := none
  deriving DecidableEq

namespace State

variable (round : ℚ → ℚ) (s : State)

/-- A ratio of zero is no ratio. -/
def pixelRatio : ℚ :=
  if s.useNative then if s.devicePixelRatio = 0 then 1 else s.devicePixelRatio else 1

def render : RenderResolution := computeRenderResolution round s.viewport s.pixelRatio

/-- The request for what the window is now. -/
def desired : Resize :=
  ⟨(s.render round).width, (s.render round).height, s.pixelRatio⟩

/-- `ClientChannel::send`, which drops what comes while it is closed. -/
def send (r : Resize) : State :=
  match s.phase with
  | .open =>
    if s.link then { s with handed := some r, toServer := s.toServer ++ [r] }
    else { s with handed := some r }
  | .idle | .connecting => { s with handed := some r, sendQueue := s.sendQueue ++ [r] }
  | .closed => { s with handed := some r }

/-- The canvas fills the viewport. -/
def fitCanvas : State :=
  if s.lastCssSize = some s.viewport then s
  else { s with canvasStyle := some s.viewport, lastCssSize := some s.viewport }

/-- `update`: a request, unless it is for the size of the last one. -/
def update : State :=
  let s' := s.fitCanvas
  if s'.lastSent = some (s.render round) then s'
  else { s' with lastSent := some (s.render round) }.send (s.desired round)

/-- `start`: the subscription to the native-resolution store calls back at
once. -/
def start : State := (s.update round).update round

end State

/-! ## The machine -/

/-- What happens to the window, the connection and the server. -/
inductive Action
  /-- The window is resized, zoomed, turned or moved to another monitor. -/
  | windowResize (viewport : CssSize) (devicePixelRatio : ℚ)
  /-- The visual viewport changes: a URL bar, the soft keyboard. -/
  | visualViewportChange (viewport : CssSize) (devicePixelRatio : ℚ)
  | toggleNative
  /-- The debounce timer runs out. -/
  | debounce
  | connect
  | reconnect
  /-- The socket opens. -/
  | opens
  /-- The server is gone from the other end. -/
  | drops
  /-- The socket is closed. -/
  | closes
  /-- The server takes the next request off the socket. -/
  | receives
  /-- Another client, which the server serves instead, makes a request. -/
  | other (r : Resize)

variable (round : ℚ → ℚ)

def step (s : State) : Action → Option State
  | .windowResize viewport devicePixelRatio =>
    some { s with viewport, devicePixelRatio, debounceTimer := true }
  | .visualViewportChange viewport devicePixelRatio =>
    some ({ s with viewport, devicePixelRatio }.update round)
  | .toggleNative => some ({ s with useNative := !s.useNative }.update round)
  | .debounce =>
    if s.debounceTimer then some ({ s with debounceTimer := false }.update round) else none
  | .connect => if s.phase = .idle then some { s with phase := .connecting } else none
  | .reconnect => if s.phase = .closed then some { s with phase := .connecting } else some s
  | .opens =>
    if s.phase = .connecting then
      some { s with phase := .open, link := true, toServer := s.sendQueue, sendQueue := [] }
    else none
  | .drops =>
    if s.phase = .open ∧ s.link then some { s with link := false, toServer := [] } else none
  | .closes =>
    if s.phase = .connecting ∨ s.phase = .open then
      some { s with phase := .closed, link := false, toServer := [], sendQueue := [] }
    else none
  | .receives =>
    match s.toServer with
    | r :: rest =>
      if s.link then some { s with toServer := rest, received := s.received ++ [r] } else none
    | [] => none
  | .other r => if s.link then none else some { s with received := s.received ++ [r] }

/-- A viewport just started on a channel not yet connected. -/
def machine : Machine State Action where
  init s := ∃ viewport devicePixelRatio useNative received,
    s = State.start round { viewport, devicePixelRatio, useNative, received }
  step := step round

end Viewport

end WaylandWebStream
