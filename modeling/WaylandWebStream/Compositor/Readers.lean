import WaylandWebStream.Compositor.Repaint
import WaylandWebStream.Lib.Panics

/-!
# Reading a client's buffer — cursors and icons

A committed buffer is read pixel by pixel into tightly packed RGBA. What
is checked beforehand is that `stride * height` bytes are mapped; the
loops index by four bytes a pixel and `stride` bytes a row, in `u32`
arithmetic, and an index out of range panics. So the check covers the
reads where a row of pixels fits the stride, and not otherwise.
-/

namespace WaylandWebStream

namespace Compositor

/-- The pixel formats a reader distinguishes. -/
inductive Format
  | argb8888
  | xrgb8888
  | other
  deriving DecidableEq

/-- A buffer as a reader has it: the mapping, where the pixels lie in it,
and their format. -/
structure MappedBuffer extends ShmBuffer where
  format : Format
  deriving DecidableEq

/-- A dmabuf: its size, the stride of its first plane, and what mapping
that plane gives. -/
structure Dmabuf where
  width : ℕ
  height : ℕ
  format : Format
  hasModifier : Bool
  stride : Option ℕ
  mapping : Option Bytes
  deriving DecidableEq

/-- A `wl_buffer`. -/
inductive WlBuffer
  | shm (b : MappedBuffer)
  | dmabuf (d : Dmabuf)
  /-- Neither managed by `wl_shm` nor a dmabuf. -/
  | other
  deriving DecidableEq

/-- Tightly packed, top-down RGBA. -/
structure Image where
  width : ℕ
  height : ℕ
  rgba : Bytes
  deriving DecidableEq

/-- How a reader ends other than by returning. -/
inductive Panic
  | indexOutOfRange
  deriving DecidableEq

/-- `pixels[i]`. -/
def index (bs : Bytes) (i : ℕ) : Except Panic UInt8 :=
  match bs[i]? with
  | some v => .ok v
  | none => .error .indexOutOfRange

/-- `rgba[i] = v`. -/
def assign (bs : Bytes) (i : ℕ) (v : UInt8) : Except Panic Bytes :=
  if i < bs.length then .ok (bs.set i v) else .error .indexOutOfRange

/-- `for i in a..b`, where the body may panic. -/
def forRangeM {γ : Type*} (a b : ℕ) (dst : γ) (body : γ → ℕ → Except Panic γ) : Except Panic γ :=
  (List.range' a (b - a)).foldlM body dst

namespace MappedBuffer

variable (b : MappedBuffer)

/-- `(stride * h) as usize`. -/
def expected : ℕ := u32 (b.stride * b.height)

/-- The bytes the loops index into. -/
def pixels : Bytes := (b.pool.drop b.offset).take b.expected

/-- What a pixel's alpha is read as. -/
def alpha (src : ℕ) : Except Panic UInt8 :=
  if b.format = .xrgb8888 then pure 255 else index b.pixels (src + 3)

/-- One pixel, swizzled from BGRA. -/
def copyPixel (rgba : Bytes) (y x : ℕ) : Except Panic Bytes := do
  let src := u32 (u32 (y * b.stride) + u32 (x * 4))
  let dst := u32 (u32 (y * b.width) + x) * 4
  let rgba ← assign rgba dst (← index b.pixels (src + 2))
  let rgba ← assign rgba (dst + 1) (← index b.pixels (src + 1))
  let rgba ← assign rgba (dst + 2) (← index b.pixels src)
  assign rgba (dst + 3) (← b.alpha src)

/-- One row. -/
def copyRow (rgba : Bytes) (y : ℕ) : Except Panic Bytes :=
  forRangeM 0 b.width rgba fun rgba x => b.copyPixel rgba y x

/-- The loops both readers have. -/
def readPixels : Except Panic Image := do
  let rgba := List.replicate (u32 (u32 (b.width * b.height) * 4)) 0
  let rgba ← forRangeM 0 b.height rgba b.copyRow
  pure ⟨b.width, b.height, rgba⟩

end MappedBuffer

/-- The first plane of a dmabuf that can be mapped. -/
def Dmabuf.linear (d : Dmabuf) : Option MappedBuffer :=
  match d.hasModifier, d.stride, d.mapping with
  | false, some stride, some mapping => some ⟨⟨mapping, 0, d.width, d.height, stride⟩, d.format⟩
  | _, _, _ => none

section Readers

-- the GL path: import, render, read back
variable (glReadback : Dmabuf → Option Image)

/-- Reads a dmabuf: mapped where it is linear, by GL readback otherwise. -/
def readBufferRgbaDmabuf (d : Dmabuf) : Except Panic (Option Image) :=
  if d.format = .other then pure none
  else
    match d.linear with
    | some b => if b.pool.length ≥ b.expected then some <$> b.readPixels else pure (glReadback d)
    | none => pure (glReadback d)

/-- Reads a `wl_buffer`. -/
def readWlBufferRgba : WlBuffer → Except Panic (Option Image)
  | .shm b =>
    if b.format = .other then pure none
    else if b.offset + b.expected > b.pool.length then pure none
    else some <$> b.readPixels
  | .dmabuf d => readBufferRgbaDmabuf glReadback d
  | .other => pure none

end Readers

/-! ## What a reader should return -/

namespace MappedBuffer

variable (b : MappedBuffer)

/-- The readers' own checks: the format, and that the rows are mapped. -/
def PassesChecks : Prop := b.format ≠ .other ∧ b.offset + b.expected ≤ b.pool.length

instance : Decidable b.PassesChecks := inferInstanceAs (Decidable (_ ∧ _))

/-- Byte `k` of pixel `(x, y)`. -/
def pixelByte (x y k : ℕ) : Option UInt8 := b.pool[b.offset + (y * b.stride + x * 4 + k)]?

/-- Byte `k` of pixel `(x, y)` as RGBA. -/
def swizzled (x y : ℕ) : ℕ → Option UInt8
  | 0 => b.pixelByte x y 2
  | 1 => b.pixelByte x y 1
  | 2 => b.pixelByte x y 0
  | _ => if b.format = .xrgb8888 then some 255 else b.pixelByte x y 3

/-- **A faithful copy** of the buffer: all its pixels, each in its place. -/
structure CopiedTo (img : Image) : Prop where
  width : img.width = b.width
  height : img.height = b.height
  length : img.rgba.length = b.width * b.height * 4
  pixel : ∀ y < b.height, ∀ x < b.width, ∀ k < 4,
    img.rgba[(y * b.width + x) * 4 + k]? = b.swizzled x y k

/-- **No `u32` product wraps**, of those the readers compute. -/
structure NoWrap : Prop where
  expected : b.stride * b.height < 2 ^ 32
  rgba : b.width * b.height * 4 < 2 ^ 32
  src : ∀ y < b.height, ∀ x < b.width, y * b.stride + x * 4 < 2 ^ 32
  dst : ∀ y < b.height, ∀ x < b.width, y * b.width + x < 2 ^ 32

/-- How far a row of pixels may exceed the stride: the last byte of an
`Xrgb8888` pixel is not read. -/
def slack : ℕ := if b.format = .xrgb8888 then 1 else 0

/-- **Sizes within `u32`, and rows within the stride.** -/
structure RowsFit : Prop where
  expected : b.stride * b.height < 2 ^ 32
  rgba : b.width * b.height * 4 < 2 ^ 32
  row : b.height = 0 ∨ 4 * b.width ≤ b.stride + b.slack

end MappedBuffer

/-- The mapped pixels of a buffer: an SHM buffer's, or a linear dmabuf's. -/
def WlBuffer.mapped : WlBuffer → Option MappedBuffer
  | shm b => some b
  | dmabuf d => d.linear
  | other => none

/-! ## Where the loops go -/

namespace MappedBuffer

variable {b : MappedBuffer} {rgba : Bytes} {x y k i : ℕ}

theorem index_eq_ok {bs : Bytes} {v : UInt8} (h : bs[i]? = some v) : index bs i = .ok v := by
  rw [index, h]

theorem index_panics {bs : Bytes} (h : bs.length ≤ i) : index bs i = .error .indexOutOfRange := by
  rw [index, List.getElem?_eq_none h]

theorem assign_eq_ok {bs : Bytes} {v : UInt8} (h : i < bs.length) :
    assign bs i v = .ok (bs.set i v) := if_pos h

theorem mem_rows {n : ℕ} : y ∈ List.range' 0 (n - 0) ↔ y < n := by
  rw [List.mem_range'_1]
  omega

/-- A row lies in the rows. -/
theorem row_stride_le (hy : y < b.height) : y * b.stride + b.stride ≤ b.stride * b.height := by
  have hmul : (y + 1) * b.stride ≤ b.height * b.stride := Nat.mul_le_mul_right _ hy
  rw [Nat.mul_comm b.stride]
  calc y * b.stride + b.stride = (y + 1) * b.stride := by ring
    _ ≤ b.height * b.stride := hmul

/-- What is checked is what is mapped. -/
theorem length_pixels (hchecks : b.PassesChecks) : b.pixels.length = b.expected := by
  have hlen := hchecks.2
  rw [pixels, List.length_take, List.length_drop]
  omega

/-- The bytes indexed into are the buffer's. -/
theorem pixels_get (hi : i < b.expected) : b.pixels[i]? = b.pool[b.offset + i]? := by
  rw [pixels, List.getElem?_take_of_lt hi, List.getElem?_drop]

namespace NoWrap

/-- Where a pixel is read from, no product wrapping. -/
theorem src_eq (h : b.NoWrap) (hy : y < b.height) (hx : x < b.width) :
    u32 (u32 (y * b.stride) + u32 (x * 4)) = y * b.stride + x * 4 := by
  have hsrc := h.src y hy x hx
  rw [u32_of_lt (n := y * b.stride) (by omega), u32_of_lt (n := x * 4) (by omega), u32_of_lt hsrc]

/-- And where it is written. -/
theorem dst_eq (h : b.NoWrap) (hy : y < b.height) (hx : x < b.width) :
    u32 (u32 (y * b.width) + x) = y * b.width + x := by
  have hdst := h.dst y hy x hx
  rw [u32_of_lt (n := y * b.width) (by omega), u32_of_lt hdst]

theorem expected_eq (h : b.NoWrap) : b.expected = b.stride * b.height := u32_of_lt h.expected

end NoWrap

namespace RowsFit

/-- The last byte read of a pixel lies in the pixel's row. -/
theorem pixel_le (h : b.RowsFit) (hy : y < b.height) (hx : x < b.width) :
    x * 4 + 4 ≤ b.stride + b.slack := by
  rcases h.row with h0 | hrow
  · omega
  · omega

/-- **Sizes that fit wrap nothing.** -/
theorem noWrap (h : b.RowsFit) : b.NoWrap := by
  refine ⟨h.expected, h.rgba, fun y hy x hx => ?_, fun y hy x hx => ?_⟩
  · have hrow := row_stride_le hy
    have hpixel := h.pixel_le hy hx
    have hslack : b.slack ≤ 1 := by
      unfold slack
      split <;> omega
    have hsize := h.expected
    omega
  · have hle := row_le (w := b.width) (Nat.le_of_lt hx) hy
    have hsize := h.rgba
    omega

/-- The bytes of a pixel that are read are there. -/
theorem pixelByte_eq (h : b.RowsFit) (hchecks : b.PassesChecks) (hy : y < b.height)
    (hx : x < b.width) (hk : k + b.slack < 4) :
    ∃ v, b.pixels[y * b.stride + x * 4 + k]? = some v ∧ b.pixelByte x y k = some v := by
  have hlt : y * b.stride + x * 4 + k < b.expected := by
    have hrow := row_stride_le hy
    have hpixel := h.pixel_le hy hx
    rw [h.noWrap.expected_eq]
    omega
  have hlen : y * b.stride + x * 4 + k < b.pixels.length := by rwa [length_pixels hchecks]
  refine ⟨b.pixels[y * b.stride + x * 4 + k], List.getElem?_eq_getElem hlen, ?_⟩
  rw [pixelByte, ← pixels_get hlt, List.getElem?_eq_getElem hlen]

end RowsFit

/-! ## One pixel -/

/-- Four bytes written from `dst` on. -/
def setPixel (rgba : Bytes) (dst : ℕ) (px : ℕ → UInt8) : Bytes :=
  (((rgba.set dst (px 0)).set (dst + 1) (px 1)).set (dst + 2) (px 2)).set (dst + 3) (px 3)

theorem setPixel_paints {n dst : ℕ} {px : ℕ → UInt8} (h : dst + 4 ≤ n) :
    Paints n {i | dst ≤ i ∧ i < dst + 4} (fun i => some (px (i - dst)))
      fun c => setPixel c dst px := by
  intro c hc
  refine ⟨by simp [setPixel, hc], fun i hi => ?_, fun i hi => ?_⟩
  · obtain ⟨k, rfl⟩ : ∃ k, i = dst + k := ⟨i - dst, by have := hi.1; omega⟩
    have hk : k < 4 := by have := hi.2; omega
    rw [Nat.add_sub_cancel_left]
    have hin : ∀ j < 4, dst + j < c.length := by omega
    rcases (by omega : k = 0 ∨ k = 1 ∨ k = 2 ∨ k = 3) with rfl | rfl | rfl | rfl
    all_goals simp only [byteAt, setPixel]
    · rw [List.getElem?_set_ne (by omega), List.getElem?_set_ne (by omega),
        List.getElem?_set_ne (by omega), Nat.add_zero,
        List.getElem?_set_self (by omega)]
    · rw [List.getElem?_set_ne (by omega), List.getElem?_set_ne (by omega),
        List.getElem?_set_self (by rw [List.length_set]; exact hin 1 (by omega))]
    · rw [List.getElem?_set_ne (by omega),
        List.getElem?_set_self (by simpa only [List.length_set] using hin 2 (by omega))]
    · rw [List.getElem?_set_self (by simpa only [List.length_set] using hin 3 (by omega))]
  · have hout : i < dst ∨ dst + 4 ≤ i := by
      by_contra hin
      exact hi ⟨by omega, by omega⟩
    simp only [byteAt, setPixel]
    rw [List.getElem?_set_ne (by omega), List.getElem?_set_ne (by omega),
      List.getElem?_set_ne (by omega), List.getElem?_set_ne (by omega)]

/-- The bytes a pixel is copied as. -/
def px (b : MappedBuffer) (x y k : ℕ) : UInt8 := (b.swizzled x y k).getD 0

/-- **A pixel in range is copied.** -/
theorem copyPixel_eq_ok (h : b.RowsFit) (hchecks : b.PassesChecks) (hy : y < b.height)
    (hx : x < b.width) (hlen : rgba.length = b.width * b.height * 4) :
    b.copyPixel rgba y x = .ok (setPixel rgba ((y * b.width + x) * 4) (b.px x y)) ∧
      ∀ k < 4, b.swizzled x y k = some (b.px x y k) := by
  have hslack : b.slack ≤ 1 := by
    unfold slack
    split <;> omega
  have hdst : (y * b.width + x) * 4 + 4 ≤ rgba.length := by
    have hrow := row_le (w := b.width) (x := x + 1) hx hy
    omega
  obtain ⟨v0, hv0, hp0⟩ := h.pixelByte_eq hchecks hy hx (k := 0) (by omega)
  obtain ⟨v1, hv1, hp1⟩ := h.pixelByte_eq hchecks hy hx (k := 1) (by omega)
  obtain ⟨v2, hv2, hp2⟩ := h.pixelByte_eq hchecks hy hx (k := 2) (by omega)
  -- the fourth byte is read only where the format has an alpha in it
  obtain ⟨v3, hv3, hp3⟩ : ∃ v3, b.alpha (y * b.stride + x * 4) = .ok v3 ∧
      b.swizzled x y 3 = some v3 := by
    by_cases hf : b.format = .xrgb8888
    · exact ⟨255, if_pos hf, by simp only [swizzled, if_pos hf]⟩
    · have hzero : b.slack = 0 := if_neg hf
      obtain ⟨v3, hv3, hp3⟩ := h.pixelByte_eq hchecks hy hx (k := 3) (by omega)
      exact ⟨v3, by rw [alpha, if_neg hf, index_eq_ok hv3],
        by simp only [swizzled, if_neg hf, hp3]⟩
  have hpx0 : b.px x y 0 = v2 := by simp only [px, swizzled, hp2, Option.getD_some]
  have hpx1 : b.px x y 1 = v1 := by simp only [px, swizzled, hp1, Option.getD_some]
  have hpx2 : b.px x y 2 = v0 := by simp only [px, swizzled, hp0, Option.getD_some]
  have hpx3 : b.px x y 3 = v3 := by simp only [px, hp3, Option.getD_some]
  refine ⟨?_, fun k hk => ?_⟩
  · simp only [copyPixel, h.noWrap.src_eq hy hx, h.noWrap.dst_eq hy hx]
    rw [index_eq_ok hv2, index_eq_ok hv1, index_eq_ok (i := y * b.stride + x * 4) hv0, hv3]
    simp only [bind, Except.bind]
    rw [assign_eq_ok (by omega)]
    dsimp only
    rw [assign_eq_ok (by rw [List.length_set]; omega)]
    dsimp only
    rw [assign_eq_ok (by rw [List.length_set, List.length_set]; omega)]
    dsimp only
    rw [assign_eq_ok (by rw [List.length_set, List.length_set, List.length_set]; omega),
      setPixel, hpx0, hpx1, hpx2, hpx3]
  · rcases (by omega : k = 0 ∨ k = 1 ∨ k = 2 ∨ k = 3) with rfl | rfl | rfl | rfl
    · rw [hpx0, ← hp2]; rfl
    · rw [hpx1, ← hp1]; rfl
    · rw [hpx2, ← hp0]; rfl
    · rw [hpx3, hp3]

/-- **A pixel whose last byte is not mapped** panics. -/
theorem copyPixel_panics (h : b.NoWrap) (hchecks : b.PassesChecks) (hy : y < b.height)
    (hx : x < b.width) (hout : b.stride * b.height + b.slack < y * b.stride + x * 4 + 4)
    (rgba : Bytes) : ∃ e, b.copyPixel rgba y x = .error e := by
  have hlen : b.pixels.length = b.stride * b.height := by
    rw [length_pixels hchecks, h.expected_eq]
  simp only [copyPixel, h.src_eq hy hx, h.dst_eq hy hx]
  by_cases hf : b.format = .xrgb8888
  · have hone : b.slack = 1 := if_pos hf
    rw [index_panics (i := y * b.stride + x * 4 + 2) (by omega)]
    exact ⟨_, rfl⟩
  · have hzero : b.slack = 0 := if_neg hf
    have halpha : b.alpha (y * b.stride + x * 4) = .error .indexOutOfRange := by
      rw [alpha, if_neg hf, index_panics (by omega)]
    refine Panics.bind_panics fun _ => Panics.bind_panics fun _ => Panics.bind_panics fun _ =>
      Panics.bind_panics fun _ => Panics.bind_panics fun _ => Panics.bind_panics fun _ => ?_
    rw [halpha]
    exact ⟨_, rfl⟩

/-! ## The loops -/

/-- The picture a faithful copy shows, byte by byte. -/
def picture (b : MappedBuffer) (i : ℕ) : Option UInt8 :=
  b.swizzled (col b.width i) (row b.width i) (i % 4)

/-- What a pixel's copy comes to. -/
def pixelPass (b : MappedBuffer) (y : ℕ) (rgba : Bytes) (x : ℕ) : Bytes :=
  setPixel rgba ((y * b.width + x) * 4) (b.px x y)

def rowPass (b : MappedBuffer) (rgba : Bytes) (y : ℕ) : Bytes :=
  forRange 0 b.width rgba (b.pixelPass y)

section Copied

variable (h : b.RowsFit) (hchecks : b.PassesChecks)

include h hchecks

/-- A pixel's copy paints the pixel. -/
theorem pixelPass_paints (hy : y < b.height) (hx : x < b.width) :
    Paints (b.width * b.height * 4) {i | row b.width i = y ∧ x ≤ col b.width i ∧
      col b.width i < x + 1} b.picture fun c => b.pixelPass y c x := by
  have hend := row_le (w := b.width) (x := x + 1) hx hy
  refine (setPixel_paints (by omega)).congr (fun i => ?_) fun i hi => ?_
  · refine Iff.trans ?_ (span_iff (show x + 1 ≤ b.width from hx))
    show _ ∧ _ ↔ _
    omega
  · obtain ⟨hlo, hhi⟩ := hi
    have hspan : (y * b.width + x) * 4 ≤ i ∧ i < (y * b.width + (x + 1)) * 4 := ⟨hlo, by omega⟩
    obtain ⟨hrow, hcol, hcol'⟩ := (span_iff (show x + 1 ≤ b.width from hx)).1 hspan
    have hk : i % 4 = i - (y * b.width + x) * 4 := by omega
    have hlen : ∃ c : Bytes, c.length = b.width * b.height * 4 :=
      ⟨List.replicate _ 0, List.length_replicate⟩
    obtain ⟨c, hc⟩ := hlen
    rw [picture, hrow, show col b.width i = x by omega, hk]
    exact ((copyPixel_eq_ok h hchecks hy hx hc).2 _ (by omega)).symm

/-- A row's copy does not panic, and paints the row. -/
theorem copyRow_eq_ok (hy : y < b.height) (hlen : rgba.length = b.width * b.height * 4) :
    b.copyRow rgba y = .ok (b.rowPass rgba y) :=
  Panics.foldlM_eq_ok (I := fun c => c.length = b.width * b.height * 4)
    (fun c hc _ hx => ⟨(copyPixel_eq_ok h hchecks hy (mem_rows.1 hx) hc).1,
      (pixelPass_paints h hchecks hy (mem_rows.1 hx) c hc).1⟩) hlen

theorem rowPass_paints (hy : y < b.height) :
    Paints (b.width * b.height * 4) {i | row b.width i = y ∧ col b.width i < b.width} b.picture
      fun c => b.rowPass c y := by
  refine (Paints.forRange (R := fun x => {i | row b.width i = y ∧ x ≤ col b.width i ∧
    col b.width i < x + 1}) fun _ _ hx => pixelPass_paints h hchecks hy hx).congr (fun i => ?_)
    fun _ _ => rfl
  constructor
  · rintro ⟨x, ⟨-, hx⟩, hrow, hlo, hhi⟩
    exact ⟨hrow, by omega⟩
  · rintro ⟨hrow, hcol⟩
    exact ⟨col b.width i, ⟨Nat.zero_le _, hcol⟩, hrow, Nat.le_refl _, Nat.lt_succ_self _⟩

/-- The rows' copies paint the picture. -/
theorem rows_paint :
    Paints (b.width * b.height * 4) {i | row b.width i < b.height ∧ col b.width i < b.width}
      b.picture fun c => forRange 0 b.height c b.rowPass := by
  refine (Paints.forRange (R := fun y => {i | row b.width i = y ∧ col b.width i < b.width})
    fun y _ hy => rowPass_paints h hchecks hy).congr (fun i => ?_) fun _ _ => rfl
  constructor
  · rintro ⟨y, ⟨-, hy⟩, hrow, hcol⟩
    exact ⟨by omega, hcol⟩
  · rintro ⟨hrow, hcol⟩
    exact ⟨row b.width i, ⟨Nat.zero_le _, hrow⟩, rfl, hcol⟩

/-- **Rows that fit are copied.** -/
theorem readPixels_copied : ∃ img, b.readPixels = .ok img ∧ b.CopiedTo img := by
  have hsize : u32 (u32 (b.width * b.height) * 4) = b.width * b.height * 4 := by
    have hrgba := h.rgba
    rw [u32_of_lt (n := b.width * b.height) (by omega), u32_of_lt hrgba]
  have hzero : (List.replicate (b.width * b.height * 4) (0 : UInt8)).length =
      b.width * b.height * 4 := List.length_replicate
  have hloop : forRangeM 0 b.height (List.replicate (b.width * b.height * 4) 0) b.copyRow =
      .ok (forRange 0 b.height (List.replicate (b.width * b.height * 4) 0) b.rowPass) :=
    Panics.foldlM_eq_ok (I := fun c => c.length = b.width * b.height * 4)
      (fun c hc y hy => ⟨copyRow_eq_ok h hchecks (mem_rows.1 hy) hc,
        (rowPass_paints h hchecks (mem_rows.1 hy) c hc).1⟩) hzero
  obtain ⟨hlen, hpaint⟩ := rows_paint h hchecks _ hzero
  refine ⟨⟨b.width, b.height, forRange 0 b.height (List.replicate (b.width * b.height * 4) 0)
    b.rowPass⟩, ?_, rfl, rfl, hlen, fun y hy x hx k hk => ?_⟩
  · rw [readPixels, hsize, hloop]
    rfl
  · have hspan : (y * b.width + x) * 4 ≤ (y * b.width + x) * 4 + k ∧
        (y * b.width + x) * 4 + k < (y * b.width + (x + 1)) * 4 := ⟨by omega, by omega⟩
    obtain ⟨hrow, hlo, hhi⟩ := (span_iff (show x + 1 ≤ b.width from hx)).1 hspan
    have hcol : col b.width ((y * b.width + x) * 4 + k) = x := by omega
    have hin := hpaint.inside ((y * b.width + x) * 4 + k) ⟨by omega, by omega⟩
    rw [picture, hrow, hcol, show ((y * b.width + x) * 4 + k) % 4 = k by omega] at hin
    exact hin

end Copied

/-- **Rows that do not fit** make the last row's last pixel panic. -/
theorem readPixels_panics (h : b.NoWrap) (hchecks : b.PassesChecks) (hheight : 0 < b.height)
    (hrow : b.stride + b.slack < 4 * b.width) : ∃ e, b.readPixels = .error e := by
  have hslack : b.slack = 0 ∨ b.slack = 1 := by
    unfold slack
    split <;> omega
  have hwidth : 0 < b.width := by omega
  have hlast : b.stride * b.height = (b.height - 1) * b.stride + b.stride := by
    obtain ⟨n, hn⟩ : ∃ n, b.height = n + 1 := ⟨b.height - 1, by omega⟩
    rw [hn, Nat.add_sub_cancel]
    ring
  have hpixel : ∀ c, ∃ e, b.copyPixel c (b.height - 1) (b.width - 1) = .error e :=
    copyPixel_panics h hchecks (by omega) (by omega) (by omega)
  have hrows : ∀ c, ∃ e, b.copyRow c (b.height - 1) = .error e := fun c =>
    Panics.foldlM_panics (mem_rows.2 (by omega : b.width - 1 < b.width)) hpixel c
  have hloop : ∃ e, (List.range' 0 (b.height - 0)).foldlM b.copyRow
      (List.replicate (u32 (u32 (b.width * b.height) * 4)) 0) = .error e :=
    Panics.foldlM_panics (mem_rows.2 (by omega : b.height - 1 < b.height)) hrows _
  obtain ⟨e, he⟩ := hloop
  refine ⟨e, ?_⟩
  rw [readPixels, forRangeM, he]
  rfl

/-- **When the readers' loops do what they should.** -/
theorem readPixels_iff (hchecks : b.PassesChecks) :
    (b.NoWrap ∧ ∃ img, b.readPixels = .ok img ∧ b.CopiedTo img) ↔ b.RowsFit := by
  constructor
  · rintro ⟨hwrap, img, himg, -⟩
    refine ⟨hwrap.expected, hwrap.rgba, ?_⟩
    by_contra hrow
    rw [not_or, Nat.not_le] at hrow
    obtain ⟨e, he⟩ := readPixels_panics hwrap hchecks (by omega) hrow.2
    rw [he] at himg
    cases himg
  · exact fun h => ⟨h.noWrap, readPixels_copied h hchecks⟩

end MappedBuffer

/-! ## The readers -/

section Readers

variable {glReadback : Dmabuf → Option Image} {buf : WlBuffer} {b : MappedBuffer}

/-- A linear dmabuf is read from the start of its mapping. -/
theorem Dmabuf.linear_eq {d : Dmabuf} (h : d.linear = some b) :
    b.offset = 0 ∧ b.format = d.format := by
  unfold Dmabuf.linear at h
  split at h
  · cases h
    exact ⟨rfl, rfl⟩
  · cases h

/-- **Past their checks both readers are the loops.** -/
theorem readWlBufferRgba_eq (hmapped : buf.mapped = some b) (hchecks : b.PassesChecks) :
    readWlBufferRgba glReadback buf = some <$> b.readPixels := by
  cases buf with
  | shm b' =>
    obtain rfl : b' = b := Option.some.inj hmapped
    rw [readWlBufferRgba, if_neg hchecks.1, if_neg (Nat.not_lt.2 hchecks.2)]
  | dmabuf d =>
    have hlinear : d.linear = some b := hmapped
    obtain ⟨hoffset, hformat⟩ := d.linear_eq hlinear
    have hlen := hchecks.2
    rw [readWlBufferRgba, readBufferRgbaDmabuf, if_neg (hformat ▸ hchecks.1), hlinear]
    exact if_pos (by omega)
  | other => cases hmapped

/-- **The pixel readers never index out of bounds, exactly when rows fit.**
Past the readers' own checks, no product wraps and the whole buffer is
returned, each pixel in its place, exactly when the sizes are within `u32`
and four bytes a pixel fit the stride. -/
theorem readers_safe_iff (hmapped : buf.mapped = some b) (hchecks : b.PassesChecks) :
    (b.NoWrap ∧ ∃ img, readWlBufferRgba glReadback buf = .ok (some img) ∧ b.CopiedTo img) ↔
      b.RowsFit := by
  rw [readWlBufferRgba_eq hmapped hchecks, ← MappedBuffer.readPixels_iff hchecks]
  refine and_congr_right fun _ => exists_congr fun img => and_congr_left fun _ => ?_
  cases b.readPixels with
  | error e => exact ⟨fun h => (by cases h), fun h => (by cases h)⟩
  | ok img' => exact ⟨fun h => (by cases h; rfl), fun h => (by cases h; rfl)⟩

/-- A row of two pixels in a stride of two bytes. -/
def narrowStride : MappedBuffer := ⟨⟨[10, 20], 0, 2, 1, 2⟩, .argb8888⟩

/-- **Reading it panics**, past the checks. -/
theorem narrowStride_panics :
    narrowStride.width ≤ narrowStride.stride ∧ narrowStride.PassesChecks ∧
      readWlBufferRgba (fun _ => none) (.shm narrowStride) = .error .indexOutOfRange := by
  decide

/-- A pixel between padding. -/
def padded : MappedBuffer := ⟨⟨[0, 1, 2, 3, 4, 5], 1, 1, 1, 5⟩, .argb8888⟩

/-- It is read without a panic. -/
theorem readers_safe_padded :
    ∃ img, readWlBufferRgba (fun _ => none) (.shm padded) = .ok (some img) ∧
      padded.CopiedTo img := by
  have hiff : (padded.NoWrap ∧ ∃ img, readWlBufferRgba (fun _ => none) (.shm padded) =
      .ok (some img) ∧ padded.CopiedTo img) ↔ padded.RowsFit := readers_safe_iff rfl (by decide)
  exact (hiff.2 ⟨by decide, by decide, .inr (by decide)⟩).2

end Readers

end Compositor

end WaylandWebStream
