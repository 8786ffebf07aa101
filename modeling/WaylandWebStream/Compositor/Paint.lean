import WaylandWebStream.Lib.Overwrite

/-!
# The software renderer — clips, pixel routines, compositing

The output framebuffer is a BGRA byte string, `width * height * 4` bytes
of it, kept from frame to frame: a frame repaints the clips of its damage
and carries the rest over. Offsets are `u32` arithmetic, which wraps.
-/

namespace WaylandWebStream

namespace Compositor

/-- `u32` arithmetic, which wraps. -/
def u32 (n : ℕ) : ℕ := n % 2 ^ 32

/-- A damage rectangle in logical coordinates. -/
structure Rect where
  x : ℤ
  y : ℤ
  w : ℤ
  h : ℤ
  deriving DecidableEq

/-- A pixel clip, `[x0, x1) × [y0, y1)`. -/
structure Clip where
  x0 : ℕ
  y0 : ℕ
  x1 : ℕ
  y1 : ℕ
  deriving DecidableEq

/-- The rows handed to the encoder for conversion. -/
structure DamageRect where
  y : ℕ
  height : ℕ
  deriving DecidableEq

namespace Clip

/-- The whole output. -/
def full (width height : ℕ) : Clip := ⟨0, 0, width, height⟩

/-- A value moved into `[0, hi]`. -/
def clamp (v hi : ℤ) : ℕ := (max 0 (min v hi)).toNat

/-- A damage rectangle as a clip, clamped to the output. -/
def fromLogical (rect : Rect) (width height : ℕ) : Clip where
  x0 := clamp rect.x width
  y0 := clamp rect.y height
  x1 := clamp (rect.x + rect.w) width
  y1 := clamp (rect.y + rect.h) height

def isEmpty (c : Clip) : Bool := c.x0 ≥ c.x1 || c.y0 ≥ c.y1

end Clip

/-- The byte a pixel starts at, `((y * width + x) * 4) as usize`. -/
def byteIndex (width x y : ℕ) : ℕ := u32 (u32 (u32 (y * width) + x) * 4)

/-- `for i in a..b`. -/
def forRange {γ : Type*} (a b : ℕ) (dst : γ) (body : γ → ℕ → γ) : γ :=
  (List.range' a (b - a)).foldl body dst

/-- Zeroes the clip, one row span at a time. -/
def clearRegion (dst : Bytes) (width : ℕ) (clip : Clip) : Bytes :=
  forRange clip.y0 clip.y1 dst fun dst y =>
    let start := byteIndex width clip.x0 y
    let stop := byteIndex width clip.x1 y
    if stop ≤ dst.length then dst.splice start (List.replicate (stop - start) 0) else dst

/-- Copies a window's BGRA buffer to `(posX, posY)`, 1:1, what lies in
the output and in the clip. -/
def blitBgra (dst : Bytes) (dstWidth dstHeight posX posY : ℕ) (src : Bytes)
    (srcW srcH srcStride : ℕ) (clip : Clip) : Bytes :=
  let targetWidth := dstWidth - posX
  let targetHeight := dstHeight - posY
  if srcW = 0 ∨ srcH = 0 ∨ targetWidth = 0 ∨ targetHeight = 0 then dst
  else
    let copyW := min srcW targetWidth
    let copyH := min srcH targetHeight
    let dx0 := max posX clip.x0
    let dx1 := min (u32 (posX + copyW)) clip.x1
    let dy0 := max posY clip.y0
    let dy1 := min (u32 (posY + copyH)) clip.y1
    if dx0 ≥ dx1 ∨ dy0 ≥ dy1 then dst
    else
      let rowBytes := u32 ((dx1 - dx0) * 4)
      forRange dy0 dy1 dst fun dst destY =>
        let srcIdx := u32 (u32 ((destY - posY) * srcStride) + u32 ((dx0 - posX) * 4))
        let destIdx := byteIndex dstWidth dx0 destY
        if srcIdx + rowBytes ≤ src.length ∧ destIdx + rowBytes ≤ dst.length then
          dst.splice destIdx ((src.drop srcIdx).take rowBytes)
        else dst

/-- A colour as `rgba8888()` gives it. -/
structure Rgba where
  r : UInt8
  g : UInt8
  b : UInt8
  a : UInt8
  deriving DecidableEq

/-- The colour as it is packed in the output. -/
def Rgba.bgra (c : Rgba) : Bytes := [c.b, c.g, c.r, c.a]

/-- `dst.get_mut(idx..idx + 4)`, and the four bytes copied where it is there. -/
def putPixel (dst : Bytes) (idx : ℕ) (px : Bytes) : Bytes :=
  if idx + 4 ≤ dst.length then dst.splice idx px else dst

/-- Fills the output from `(posX, posY)` on, restricted to the clip. -/
def fillSolid (dst : Bytes) (dstWidth dstHeight posX posY : ℕ) (rgba : Rgba) (clip : Clip) :
    Bytes :=
  let x0 := max posX clip.x0
  let x1 := min dstWidth clip.x1
  let y0 := max posY clip.y0
  let y1 := min dstHeight clip.y1
  forRange y0 y1 dst fun dst destY =>
    forRange x0 x1 dst fun dst destX => putPixel dst (byteIndex dstWidth destX destY) rgba.bgra

def rootWeaveBits : List ℕ := [0b0110, 0b1001, 0b1001, 0b0110]

/-- The weave's colour at a pixel, keyed off absolute coordinates. -/
def weaveColor (x y : ℕ) : UInt8 :=
  if (rootWeaveBits.getD (y % 4) 0 >>> (x % 4)) &&& 1 = 1 then 255 else 0

/-- The root weave stipple, used when no window is mapped. -/
def renderRootWeave (dst : Bytes) (width height : ℕ) (clip : Clip) : Bytes :=
  let y1 := min height clip.y1
  let x1 := min width clip.x1
  forRange clip.y0 y1 dst fun dst y =>
    forRange clip.x0 x1 dst fun dst x =>
      putPixel dst (byteIndex width x y)
        [weaveColor x y, weaveColor x y, weaveColor x y, 255]

/-- An SHM buffer: its pool, and where in the pool the pixels lie. -/
structure ShmBuffer where
  pool : Bytes
  offset : ℕ
  width : ℕ
  height : ℕ
  stride : ℕ
  deriving DecidableEq

/-- What a surface has attached. -/
inductive Buffer
  | shm (b : ShmBuffer)
  | singlePixel (rgba : Rgba)
  /-- Neither of the two: nothing of it is painted. -/
  | other (width height : ℕ)
  deriving DecidableEq

/-- A mapped window: where it is, and its surface's buffer. -/
structure Window where
  x : ℤ
  y : ℤ
  buffer : Option Buffer
  deriving DecidableEq

namespace Window

def posX (win : Window) : ℕ := (max win.x 0).toNat

def posY (win : Window) : ℕ := (max win.y 0).toNat

/-- One window into one clip. A buffer that does not fit its pool is not
painted. -/
def paint (win : Window) (width height : ℕ) (clip : Clip) (dst : Bytes) : Bytes :=
  match win.buffer with
  | some (.shm b) =>
    let expectedLen := u32 (b.stride * b.height)
    if b.offset + expectedLen ≤ b.pool.length then
      blitBgra dst width height win.posX win.posY ((b.pool.drop b.offset).take expectedLen)
        b.width b.height b.stride clip
    else dst
  | some (.singlePixel rgba) => fillSolid dst width height win.posX win.posY rgba clip
  | some (.other _ _) => dst
  | none => dst

end Window

/-- One clip: cleared, then every window, or the root weave. -/
def compositeClip (width height : ℕ) (windows : List Window) (dst : Bytes) (clip : Clip) : Bytes :=
  let dst := clearRegion dst width clip
  let dst := windows.foldl (fun dst win => win.paint width height clip dst) dst
  if windows.length = 0 then renderRootWeave dst width height clip else dst

/-- Clip by clip, in order. -/
def compositeClips (width height : ℕ) (windows : List Window) (clips : List Clip) (dst : Bytes) :
    Bytes :=
  clips.foldl (compositeClip width height windows) dst

/-- What `render` reads and keeps. -/
structure Renderer where
  width : ℕ
  height : ℕ
  canvas : Bytes
  repaintRegion : List Rect
  lastRepaintRects : List DamageRect
  windows : List Window

namespace Renderer

/-- `width * height * 4`, as the code computes it. -/
def bufferSize (s : Renderer) : ℕ := u32 (u32 (s.width * s.height) * 4)

/-- The canvas's length is not the output's: the first frame, or a resize. -/
def sizeChanged (s : Renderer) : Bool := s.canvas.length != s.bufferSize

/-- The repaint clips: the damaged sub-rects, or the whole output. -/
def clips (s : Renderer) : List Clip :=
  if s.sizeChanged || s.repaintRegion.isEmpty then [Clip.full s.width s.height]
  else (s.repaintRegion.map fun rect => Clip.fromLogical rect s.width s.height).filter
    fun clip => !clip.isEmpty

/-- `render`: the frame handed to the encoder, and the state after it. -/
def render (s : Renderer) : Bytes × Renderer :=
  let canvas := if s.sizeChanged then List.replicate s.bufferSize 0 else s.canvas
  let canvas := compositeClips s.width s.height s.windows s.clips canvas
  (canvas, { s with
    canvas
    repaintRegion := []
    lastRepaintRects := s.clips.map fun c => ⟨c.y0, c.y1 - c.y0⟩ })

end Renderer

end Compositor

end WaylandWebStream
