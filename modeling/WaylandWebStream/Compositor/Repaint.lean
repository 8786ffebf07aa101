import WaylandWebStream.Compositor.Paint
import Mathlib.Tactic.Ring

/-!
# Partial repaint equals full repaint

Each of the four pixel routines overwrites a clip's part of some extent
with a picture that does not depend on the clip: black everywhere, a
window's pixels where the window is, the weave. So compositing a clip
puts one and the same picture into it, whichever clip it is, and
compositing many puts it into their union. The one thing that may depend
on the clip is whether a row is copied at all, where a buffer's rows are
wider than its stride.
-/

namespace WaylandWebStream

namespace Compositor

/-! ## Where a byte is -/

/-- The canvas as its bytes. -/
def byteAt (bs : Bytes) (i : ℕ) : Option UInt8 := bs[i]?

/-- The column of the pixel byte `i` belongs to. -/
def col (width i : ℕ) : ℕ := i / 4 % width

/-- Its row. -/
def row (width i : ℕ) : ℕ := i / 4 / width

/-- **The bytes of a clip's pixels.** -/
def Clip.bytes (width : ℕ) (clip : Clip) : Set ℕ :=
  {i | (clip.x0 ≤ col width i ∧ col width i < clip.x1) ∧
    clip.y0 ≤ row width i ∧ row width i < clip.y1}

/-- A clip lies inside the output. -/
structure Clip.Inside (width height : ℕ) (clip : Clip) : Prop where
  x : clip.x0 ≤ clip.x1
  x1 : clip.x1 ≤ width
  y : clip.y0 ≤ clip.y1
  y1 : clip.y1 ≤ height

theorem full_inside (width height : ℕ) : (Clip.full width height).Inside width height :=
  ⟨Nat.zero_le _, Nat.le_refl _, Nat.zero_le _, Nat.le_refl _⟩

variable {w h : ℕ}

theorem u32_of_lt {n : ℕ} (hn : n < 2 ^ 32) : u32 n = n := Nat.mod_eq_of_lt hn

/-- A pixel position inside the output is where the code computes it,
its row's end included: no product wraps. -/
theorem byteIndex_eq (hsize : w * h * 4 < 2 ^ 32) {x y : ℕ} (hx : x ≤ w) (hy : y < h) :
    byteIndex w x y = (y * w + x) * 4 := by
  have hrow : y * w + w ≤ w * h := by
    have hmul : (y + 1) * w ≤ h * w := Nat.mul_le_mul_right w hy
    rw [Nat.mul_comm w h]
    calc y * w + w = (y + 1) * w := by ring
      _ ≤ h * w := hmul
  rw [byteIndex, u32_of_lt (n := y * w) (by omega), u32_of_lt (n := y * w + x) (by omega),
    u32_of_lt (by omega)]

/-- A row of the output ends inside the canvas. -/
theorem row_le {x y : ℕ} (hx : x ≤ w) (hy : y < h) : (y * w + x) * 4 ≤ w * h * 4 := by
  have hmul : (y + 1) * w ≤ h * w := Nat.mul_le_mul_right w hy
  have hrow : (y + 1) * w = y * w + w := by ring
  have hcomm : h * w = w * h := Nat.mul_comm h w
  omega

/-- **A row span, as byte offsets and as pixels.** -/
theorem span_iff {j x1 y i : ℕ} (hx1 : x1 ≤ w) :
    ((y * w + j) * 4 ≤ i ∧ i < (y * w + x1) * 4) ↔
      row w i = y ∧ j ≤ col w i ∧ col w i < x1 := by
  have hdiv : w * (i / 4 / w) + i / 4 % w = i / 4 := Nat.div_add_mod _ _
  constructor
  · rintro ⟨hlo, hhi⟩
    have hrow : row w i = y := by
      refine Nat.div_eq_of_lt_le (by omega) ?_
      have hnext : (y + 1) * w = y * w + w := by ring
      omega
    have hcol : y * w + col w i = i / 4 := by
      rw [← hrow, Nat.mul_comm]
      exact hdiv
    exact ⟨hrow, by omega, by omega⟩
  · rintro ⟨hrow, hlo, hhi⟩
    have hcol : y * w + col w i = i / 4 := by
      rw [← hrow, Nat.mul_comm]
      exact hdiv
    omega

/-! ## Passes over a canvas -/

/-- **A pass over canvases of `n` bytes**: it keeps the length, puts the
picture `v` into the region, and keeps the rest. -/
def Paints (n : ℕ) (R : Set ℕ) (v : ℕ → Option UInt8) (f : Bytes → Bytes) : Prop :=
  ∀ c : Bytes, c.length = n → (f c).length = n ∧ Overwrites byteAt R v c (f c)

namespace Paints

variable {n : ℕ} {R S : Set ℕ} {v v' : ℕ → Option UInt8} {f g : Bytes → Bytes}

theorem congr (hf : Paints n R v f) (hR : ∀ i, i ∈ R ↔ i ∈ S) (hv : ∀ i ∈ R, v i = v' i) :
    Paints n S v' f :=
  fun c hc => ⟨(hf c hc).1, (hf c hc).2.congr hR hv⟩

/-- A pass that does nothing, where there is nothing to paint. -/
theorem skip (hR : ∀ i, i ∉ R) : Paints n R v (fun c => c) := by
  intro c hc
  have hnone : Overwrites byteAt ∅ v c c := Overwrites.refl c
  exact ⟨hc, hnone.congr (fun i => ⟨False.elim, hR i⟩) fun _ _ => rfl⟩

/-- A splice in bounds. -/
theorem splice {start : ℕ} {src : Bytes} (h : start + src.length ≤ n) :
    Paints n {i | start ≤ i ∧ i < start + src.length} (fun i => src[i - start]?)
      (fun c => c.splice start src) := by
  intro c hc
  rw [← hc] at h
  exact ⟨(Bytes.length_splice h).trans hc, Bytes.overwrites_splice h⟩

/-- A loop of passes with one picture. -/
theorem forRange {R : ℕ → Set ℕ} {a b : ℕ} {body : Bytes → ℕ → Bytes}
    (hbody : ∀ y, a ≤ y → y < b → Paints n (R y) v fun c => body c y) :
    Paints n {i | ∃ y, (a ≤ y ∧ y < b) ∧ i ∈ R y} v fun c => Compositor.forRange a b c body := by
  intro c hc
  have hmem : ∀ y ∈ List.range' a (b - a), a ≤ y ∧ y < b := by
    intro y hy
    rw [List.mem_range'_1] at hy
    omega
  have hlen : ∀ c : Bytes, c.length = n → ∀ y ∈ List.range' a (b - a), (body c y).length = n :=
    fun c hc y hy => (hbody y (hmem y hy).1 (hmem y hy).2 c hc).1
  constructor
  · exact List.foldlRecOn (motive := fun c => c.length = n) _ body hc hlen
  · refine (Overwrites.foldl (List.range' a (b - a)) hlen
      (fun c hc y hy => (hbody y (hmem y hy).1 (hmem y hy).2 c hc).2) c hc).congr
      (fun i => ?_) fun _ _ => rfl
    constructor
    · rintro ⟨y, hy, hi⟩
      exact ⟨y, hmem y hy, hi⟩
    · rintro ⟨y, hy, hi⟩
      refine ⟨y, ?_, hi⟩
      rw [List.mem_range'_1]
      omega

end Paints

/-! ## The four routines -/

section Routines

variable {clip : Clip} (hsize : w * h * 4 < 2 ^ 32) (hclip : clip.Inside w h)

include hsize

include hclip

/-- **`clear_region` blackens the clip.** -/
theorem clearRegion_paints :
    Paints (w * h * 4) (clip.bytes w) (fun _ => some 0) fun c => clearRegion c w clip := by
  have hx := hclip.x
  have hx1 := hclip.x1
  refine (Paints.forRange (R := fun y => {i | row w i = y ∧ clip.x0 ≤ col w i ∧ col w i < clip.x1})
    fun y hy0 hy1 => ?_).congr (fun i => ?_) fun _ _ => rfl
  · have hy : y < h := Nat.lt_of_lt_of_le hy1 hclip.y1
    have hstart := byteIndex_eq hsize (x := clip.x0) (Nat.le_trans hx hx1) hy
    have hstop := byteIndex_eq hsize hx1 hy
    have hend := row_le hx1 hy
    intro c hc
    simp only [hstart, hstop, hc, if_pos hend]
    have hlen : (List.replicate ((y * w + clip.x1) * 4 - (y * w + clip.x0) * 4) (0 : UInt8)).length =
        (y * w + clip.x1) * 4 - (y * w + clip.x0) * 4 := List.length_replicate
    refine (Paints.splice (n := w * h * 4) (by rw [hlen]; omega)).congr (fun i => ?_)
      (fun i hi => ?_) c hc
    · rw [hlen]
      refine Iff.trans ?_ (span_iff hx1)
      show _ ∧ _ ↔ _
      omega
    · obtain ⟨hlo, hhi⟩ := hi
      rw [hlen] at hhi
      rw [List.getElem?_replicate, if_pos (by omega)]
  · constructor
    · rintro ⟨y, hy, rfl, hcol⟩
      exact ⟨hcol, hy⟩
    · rintro ⟨hcol, hy⟩
      exact ⟨_, hy, rfl, hcol⟩

/-- The pixels a buffer of a given size covers at a position. -/
def blitExtent (w posX posY srcW srcH : ℕ) : Set ℕ :=
  {i | (posX ≤ col w i ∧ col w i < posX + srcW) ∧ posY ≤ row w i ∧ row w i < posY + srcH}

/-- **The pixels a blit copies** that reaches as far as column `x1`: those
of the rows whose copied part ends inside the buffer. Where rows are no
wider than the stride that is every row. -/
def blitRows (w posX posY srcW srcH srcStride x1 : ℕ) : Set ℕ :=
  {i | i ∈ blitExtent w posX posY srcW srcH ∧
    (row w i - posY) * srcStride + (min (posX + srcW) x1 - posX) * 4 ≤ srcStride * srcH}

/-- The source byte of an output byte. -/
def blitValue (w posX posY : ℕ) (src : Bytes) (srcStride i : ℕ) : Option UInt8 :=
  src[(row w i - posY) * srcStride + (col w i - posX) * 4 + i % 4]?

omit hsize hclip in
/-- A row of the source ends inside it. -/
theorem srcRow_le {k srcH : ℕ} (srcStride : ℕ) (hk : k < srcH) :
    k * srcStride + srcStride ≤ srcStride * srcH := by
  have hmul : srcStride * (k + 1) ≤ srcStride * srcH := Nat.mul_le_mul_left srcStride hk
  have hring : srcStride * (k + 1) = k * srcStride + srcStride := by ring
  omega

omit hclip in
/-- **The source offset of a row does not wrap**, be it that the rows are
no wider than the stride, be it that the buffer is below `2 ^ 31` bytes:
the first row's offset is within the output's, and an output of two rows
is half as wide. -/
theorem srcOffset_lt {k dx y srcW srcH srcStride : ℕ} (hbytes : srcStride * srcH < 2 ^ 32)
    (hrows : 4 * srcW ≤ srcStride ∨ srcStride * srcH < 2 ^ 31) (hk : k < srcH) (hky : k ≤ y)
    (hy : y < h) (hdx : dx ≤ srcW) (hdxw : dx ≤ w) : k * srcStride + dx * 4 < 2 ^ 32 := by
  have hrow := srcRow_le srcStride hk
  rcases hrows with hrows | hrows
  · omega
  have hwide : w * 1 ≤ w * h := Nat.mul_le_mul_left w (by omega)
  rcases Nat.eq_zero_or_pos k with rfl | hpos
  · omega
  · have hhalf : w * 2 ≤ w * h := Nat.mul_le_mul_left w (by omega)
    omega

omit hclip in
/-- One row of the blit: it is copied where it ends inside the source, and
otherwise left. -/
theorem blitRow_paints {posX posY srcStride dx0 dx1 y : ℕ} {src : Bytes}
    (hoffset : (y - posY) * srcStride + (dx0 - posX) * 4 < 2 ^ 32) (hposX : posX ≤ dx0)
    (hdx : dx0 ≤ dx1) (hdx1 : dx1 ≤ w) (hy : y < h) :
    Paints (w * h * 4)
      {i | (row w i = y ∧ dx0 ≤ col w i ∧ col w i < dx1) ∧
        (y - posY) * srcStride + (dx1 - posX) * 4 ≤ src.length}
      (blitValue w posX posY src srcStride) fun c =>
        if u32 (u32 ((y - posY) * srcStride) + u32 ((dx0 - posX) * 4)) + u32 ((dx1 - dx0) * 4) ≤
            src.length ∧ byteIndex w dx0 y + u32 ((dx1 - dx0) * 4) ≤ c.length then
          c.splice (byteIndex w dx0 y)
            ((src.drop (u32 (u32 ((y - posY) * srcStride) + u32 ((dx0 - posX) * 4)))).take
              (u32 ((dx1 - dx0) * 4)))
        else c := by
  have hend := row_le hdx1 hy
  have hdest := byteIndex_eq hsize (x := dx0) (by omega) hy
  have hrowBytes : u32 ((dx1 - dx0) * 4) = (dx1 - dx0) * 4 := u32_of_lt (by omega)
  have hsrcIdx : u32 (u32 ((y - posY) * srcStride) + u32 ((dx0 - posX) * 4)) =
      (y - posY) * srcStride + (dx0 - posX) * 4 := by
    rw [u32_of_lt (n := (y - posY) * srcStride) (by omega), u32_of_lt (n := (dx0 - posX) * 4)
      (by omega), u32_of_lt (by omega)]
  intro c hc
  simp only [hdest, hrowBytes, hsrcIdx, hc]
  by_cases hin : (y - posY) * srcStride + (dx1 - posX) * 4 ≤ src.length
  swap
  · -- the row runs out of the source, and the check fails
    rw [if_neg (by omega)]
    exact Paints.skip (fun i hi => hin hi.2) c hc
  rw [if_pos ⟨by omega, by omega⟩]
  have hlen : ((src.drop ((y - posY) * srcStride + (dx0 - posX) * 4)).take
      ((dx1 - dx0) * 4)).length = (dx1 - dx0) * 4 := by
    rw [List.length_take, List.length_drop]
    omega
  refine (Paints.splice (n := w * h * 4) (by rw [hlen]; omega)).congr (fun i => ?_)
    (fun i hi => ?_) c hc
  · rw [hlen]
    refine Iff.trans ?_ ((span_iff hdx1).trans (and_iff_left hin).symm)
    show _ ∧ _ ↔ _
    omega
  · rw [hlen] at hi
    obtain ⟨hlo, hhi⟩ := hi
    have hspan : row w i = y ∧ dx0 ≤ col w i ∧ col w i < dx1 :=
      (span_iff hdx1).1 ⟨hlo, by omega⟩
    have hpixel : w * row w i + col w i = i / 4 := Nat.div_add_mod _ _
    rw [List.getElem?_take_of_lt (by omega), List.getElem?_drop, blitValue, hspan.1]
    rw [hspan.1, Nat.mul_comm] at hpixel
    congr 1
    omega

omit hsize hclip in
/-- Along either axis, the blit's span is the clip's part of the buffer's
extent. -/
theorem blitSpan_iff {pos extent size lo hi c : ℕ} (hhi : hi ≤ size) :
    max pos lo ≤ c ∧ c < min (pos + min extent (size - pos)) hi ↔
      (lo ≤ c ∧ c < hi) ∧ pos ≤ c ∧ c < pos + extent := by
  omega

/-- **`blit_bgra` copies the buffer's part of the clip**, but for the rows
that run out of the buffer on their way through the clip. -/
theorem blitBgra_paints {posX posY srcW srcH srcStride : ℕ} {src : Bytes}
    (hrowsFit : 4 * srcW ≤ srcStride ∨ srcStride * srcH < 2 ^ 31)
    (hbytes : srcStride * srcH < 2 ^ 32) (hsrc : src.length = srcStride * srcH) :
    Paints (w * h * 4) (clip.bytes w ∩ blitRows w posX posY srcW srcH srcStride clip.x1)
      (blitValue w posX posY src srcStride)
      fun c => blitBgra c w h posX posY src srcW srcH srcStride clip := by
  have hx1 := hclip.x1
  have hy1 := hclip.y1
  unfold blitBgra
  dsimp only
  by_cases hnone : srcW = 0 ∨ srcH = 0 ∨ w - posX = 0 ∨ h - posY = 0
  · simp only [if_pos hnone]
    refine Paints.skip fun i hi => ?_
    obtain ⟨⟨⟨-, hcol⟩, -, hrow⟩, ⟨⟨hcol', hcol''⟩, hrow', hrow''⟩, -⟩ := hi
    omega
  have hw : w ≤ w * h := Nat.le_mul_of_pos_right w (by omega)
  have hh : h ≤ w * h := Nat.le_mul_of_pos_left h (by omega)
  have hright : u32 (posX + min srcW (w - posX)) = posX + min srcW (w - posX) :=
    u32_of_lt (by omega)
  have hbottom : u32 (posY + min srcH (h - posY)) = posY + min srcH (h - posY) :=
    u32_of_lt (by omega)
  simp only [if_neg hnone, hright, hbottom]
  -- of the blit's bounds only what they admit is used from here on
  generalize hdx0 : max posX clip.x0 = dx0
  generalize hdx1 : min (posX + min srcW (w - posX)) clip.x1 = dx1
  generalize hdy0 : max posY clip.y0 = dy0
  generalize hdy1 : min (posY + min srcH (h - posY)) clip.y1 = dy1
  have hcols : ∀ c, dx0 ≤ c ∧ c < dx1 ↔ (clip.x0 ≤ c ∧ c < clip.x1) ∧ posX ≤ c ∧ c < posX + srcW := by
    intro c
    rw [← hdx0, ← hdx1]
    exact blitSpan_iff hx1
  have hrows : ∀ c, dy0 ≤ c ∧ c < dy1 ↔ (clip.y0 ≤ c ∧ c < clip.y1) ∧ posY ≤ c ∧ c < posY + srcH := by
    intro c
    rw [← hdy0, ← hdy1]
    exact blitSpan_iff hy1
  by_cases hempty : dx0 ≥ dx1 ∨ dy0 ≥ dy1
  · simp only [if_pos hempty]
    refine Paints.skip fun i hi => ?_
    obtain ⟨⟨hcol, hrow⟩, ⟨hcol', hrow'⟩, -⟩ := hi
    have hcol := (hcols _).2 ⟨hcol, hcol'⟩
    have hrow := (hrows _).2 ⟨hrow, hrow'⟩
    rcases hempty with hempty | hempty
    · exact absurd (lt_of_le_of_lt hcol.1 hcol.2) (not_lt.2 hempty)
    · exact absurd (lt_of_le_of_lt hrow.1 hrow.2) (not_lt.2 hempty)
  simp only [if_neg hempty]
  have hleft : posX ≤ dx0 := hdx0 ▸ le_max_left _ _
  have hwidth : dx1 ≤ w := hdx1 ▸ (min_le_right _ _).trans hx1
  have hreach : dx1 = min (posX + srcW) clip.x1 := by omega
  have hdx : dx0 ≤ dx1 := (not_le.1 (not_or.1 hempty).1).le
  refine (Paints.forRange (R := fun y => {i | (row w i = y ∧ dx0 ≤ col w i ∧ col w i < dx1) ∧
      (y - posY) * srcStride + (dx1 - posX) * 4 ≤ src.length})
    fun y hy0 hy1' => ?_).congr (fun i => ?_) fun _ _ => rfl
  · obtain ⟨⟨-, hbottom⟩, htop, hin⟩ := (hrows y).1 ⟨hy0, hy1'⟩
    refine blitRow_paints hsize ?_ hleft hdx hwidth (lt_of_lt_of_le hbottom hy1)
    exact srcOffset_lt hsize hbytes hrowsFit (by omega) (Nat.sub_le y posY)
      (lt_of_lt_of_le hbottom hy1) (by omega) (by omega)
  · rw [hsrc, hreach]
    constructor
    · rintro ⟨y, hy, ⟨rfl, hcol⟩, hend⟩
      obtain ⟨hrow, hrow'⟩ := (hrows _).1 hy
      obtain ⟨hcol, hcol'⟩ := (hcols _).1 (hreach.symm ▸ hcol)
      exact ⟨⟨hcol, hrow⟩, ⟨hcol', hrow'⟩, hend⟩
    · rintro ⟨⟨hcol, hrow⟩, ⟨hcol', hrow'⟩, hend⟩
      exact ⟨_, (hrows _).2 ⟨hrow, hrow'⟩, ⟨rfl, hreach ▸ (hcols _).2 ⟨hcol, hcol'⟩⟩, hend⟩

omit hclip in
/-- One pixel, put where it belongs. -/
theorem putPixel_paints {x y : ℕ} (hx : x < w) (hy : y < h) {px : Bytes} (hpx : px.length = 4) :
    Paints (w * h * 4) {i | row w i = y ∧ x ≤ col w i ∧ col w i < x + 1} (fun i => px[i % 4]?)
      fun c => putPixel c (byteIndex w x y) px := by
  have hend := row_le (x := x + 1) hx hy
  have hspan : ∀ i, ((y * w + x) * 4 ≤ i ∧ i < (y * w + x) * 4 + px.length) ↔
      row w i = y ∧ x ≤ col w i ∧ col w i < x + 1 := fun i => by
    have h := span_iff (w := w) (i := i) (y := y) (show x + 1 ≤ w from hx) (j := x)
    rw [← h, hpx]
    omega
  intro c hc
  simp only [putPixel, byteIndex_eq hsize (Nat.le_of_lt hx) hy, hc]
  rw [if_pos (by omega)]
  refine (Paints.splice (n := w * h * 4) (by omega)).congr hspan (fun i hi => ?_) c hc
  obtain ⟨hlo, hhi⟩ := hi
  congr 1
  omega

omit hclip in
/-- A rectangle of pixels, by two nested loops. -/
theorem putPixels_paints (x0 y0 : ℕ) {x1 y1 : ℕ} (hx1 : x1 ≤ w) (hy1 : y1 ≤ h)
    (px : ℕ → ℕ → Bytes) (hpx : ∀ x y, (px x y).length = 4) :
    Paints (w * h * 4)
      {i | (x0 ≤ col w i ∧ col w i < x1) ∧ y0 ≤ row w i ∧ row w i < y1}
      (fun i => (px (col w i) (row w i))[i % 4]?)
      fun c => forRange y0 y1 c fun c y => forRange x0 x1 c fun c x =>
        putPixel c (byteIndex w x y) (px x y) := by
  refine (Paints.forRange (R := fun y => {i | row w i = y ∧ x0 ≤ col w i ∧ col w i < x1})
    fun y _ hy => ?_).congr (fun i => ?_) fun _ _ => rfl
  · refine (Paints.forRange (R := fun x => {i | row w i = y ∧ x ≤ col w i ∧ col w i < x + 1})
      fun x _ hx => ?_).congr (fun i => ?_) fun _ _ => rfl
    · refine (putPixel_paints hsize (x := x) (y := y) (by omega) (by omega) (hpx x y)).congr
        (fun _ => Iff.rfl) fun i hi => ?_
      obtain ⟨hrow, hlo, hhi⟩ := hi
      have hcol : col w i = x := by omega
      rw [hrow, hcol]
    · constructor
      · rintro ⟨x, hx, hrow, hlo, hhi⟩
        exact ⟨hrow, by omega, by omega⟩
      · rintro ⟨hrow, hlo, hhi⟩
        exact ⟨col w i, ⟨hlo, hhi⟩, hrow, Nat.le_refl _, Nat.lt_succ_self _⟩
  · constructor
    · rintro ⟨y, hy, rfl, hcol⟩
      exact ⟨hcol, hy⟩
    · rintro ⟨hcol, hy⟩
      exact ⟨_, hy, rfl, hcol⟩

/-- **`fill_solid` fills the clip from its position on.** -/
theorem fillSolid_paints (posX posY : ℕ) (rgba : Rgba) :
    Paints (w * h * 4) (clip.bytes w ∩ {i | posX ≤ col w i ∧ posY ≤ row w i})
      (fun i => rgba.bgra[i % 4]?) fun c => fillSolid c w h posX posY rgba clip := by
  have hx1 := hclip.x1
  have hy1 := hclip.y1
  refine (putPixels_paints hsize (max posX clip.x0) (max posY clip.y0)
    (Nat.min_le_left w clip.x1) (Nat.min_le_left h clip.y1) (fun _ _ => rgba.bgra)
    fun _ _ => rfl).congr (fun i => ?_) fun _ _ => rfl
  constructor
  · rintro ⟨⟨hcol0, hcol⟩, hrow0, hrow⟩
    refine ⟨⟨⟨?_, ?_⟩, ?_, ?_⟩, ?_, ?_⟩ <;> omega
  · rintro ⟨⟨⟨hcol0, hcol⟩, hrow0, hrow⟩, hposX, hposY⟩
    refine ⟨⟨?_, ?_⟩, ?_, ?_⟩ <;> omega

/-- The weave's pixel at a byte. -/
def weaveValue (w i : ℕ) : Option UInt8 :=
  [weaveColor (col w i) (row w i), weaveColor (col w i) (row w i),
    weaveColor (col w i) (row w i), 255][i % 4]?

/-- **`render_root_weave` draws the weave into the clip.** -/
theorem renderRootWeave_paints :
    Paints (w * h * 4) (clip.bytes w) (weaveValue w) fun c => renderRootWeave c w h clip := by
  have hx1 := hclip.x1
  have hy1 := hclip.y1
  refine (putPixels_paints hsize clip.x0 clip.y0 (Nat.min_le_left w clip.x1)
    (Nat.min_le_left h clip.y1) (fun x y => [weaveColor x y, weaveColor x y, weaveColor x y, 255])
    fun _ _ => rfl).congr (fun i => ?_) fun _ _ => rfl
  constructor
  · rintro ⟨⟨hcol0, hcol⟩, hrow0, hrow⟩
    refine ⟨⟨?_, ?_⟩, ?_, ?_⟩ <;> omega
  · rintro ⟨⟨hcol0, hcol⟩, hrow0, hrow⟩
    refine ⟨⟨?_, ?_⟩, ?_, ?_⟩ <;> omega

end Routines

/-! ## Windows and clips -/

namespace Window

/-- The pixels of a buffer that fits its pool. -/
def pixelData (b : ShmBuffer) : Bytes := (b.pool.drop b.offset).take (b.stride * b.height)

/-- A window as the compositor promises it: rows as wide as the buffer,
its byte size below `2 ^ 32`. -/
def Valid (win : Window) : Prop :=
  ∀ b, win.buffer = some (.shm b) → 4 * b.width ≤ b.stride ∧ b.stride * b.height < 2 ^ 32

/-- **No offset the blit computes into it wraps**: its rows are no wider
than its stride, or it is as small as a `wl_shm` buffer. -/
def Addressable (win : Window) : Prop :=
  ∀ b, win.buffer = some (.shm b) → b.stride * b.height < 2 ^ 32 ∧
    (4 * b.width ≤ b.stride ∨ b.stride * b.height < 2 ^ 31)

theorem Valid.addressable {win : Window} (h : win.Valid) : win.Addressable :=
  fun b hb => ⟨(h b hb).2, Or.inl (h b hb).1⟩

/-- The output bytes a repaint that reaches as far as column `x1` puts the
window into. -/
def extentTo (w x1 : ℕ) (win : Window) : Set ℕ :=
  match win.buffer with
  | some (.shm b) =>
    if b.offset + b.stride * b.height ≤ b.pool.length then
      blitRows w win.posX win.posY b.width b.height b.stride x1
    else ∅
  | some (.singlePixel _) => {i | win.posX ≤ col w i ∧ win.posY ≤ row w i}
  | some (.other _ _) => ∅
  | none => ∅

/-- The output bytes a window covers: those a full repaint puts it into. -/
def extent (w : ℕ) (win : Window) : Set ℕ := win.extentTo w w

/-- What it shows there. -/
def value (w : ℕ) (win : Window) (i : ℕ) : Option UInt8 :=
  match win.buffer with
  | some (.shm b) => blitValue w win.posX win.posY (pixelData b) b.stride i
  | some (.singlePixel rgba) => rgba.bgra[i % 4]?
  | _ => none

/-- **Painting a window puts what it shows into its part of the clip.** -/
theorem paint_paints {win : Window} {clip : Clip} (hsize : w * h * 4 < 2 ^ 32)
    (hclip : clip.Inside w h) (hwin : win.Addressable) :
    Paints (w * h * 4) (clip.bytes w ∩ win.extentTo w clip.x1) (win.value w)
      (fun c => win.paint w h clip c) := by
  obtain ⟨x, y, buffer⟩ := win
  unfold paint extentTo value
  cases buffer with
  | none => exact Paints.skip fun i hi => hi.2
  | some buffer =>
    cases buffer with
    | other width height => exact Paints.skip fun i hi => hi.2
    | singlePixel rgba => exact fillSolid_paints hsize hclip _ _ rgba
    | shm b =>
      obtain ⟨hbytes, hrows⟩ := hwin b rfl
      have hlen : u32 (b.stride * b.height) = b.stride * b.height := u32_of_lt hbytes
      simp only [hlen]
      by_cases hpool : b.offset + b.stride * b.height ≤ b.pool.length
      · simp only [if_pos hpool]
        refine blitBgra_paints hsize hclip hrows hbytes ?_
        rw [pixelData, List.length_take, List.length_drop]
        omega
      · simp only [if_neg hpool]
        exact Paints.skip fun i hi => hi.2

/-- A repaint that stops short of the output's edge paints no less of a
window: a row has less to run out of. -/
theorem extent_subset {win : Window} {x1 i : ℕ} (hx1 : x1 ≤ w) (hi : i ∈ win.extent w) :
    i ∈ win.extentTo w x1 := by
  obtain ⟨x, y, buffer⟩ := win
  unfold extent extentTo at hi
  unfold extentTo
  cases buffer with
  | none => exact hi
  | some buffer =>
    cases buffer with
    | other width height => exact hi
    | singlePixel rgba => exact hi
    | shm b =>
      by_cases hpool : b.offset + b.stride * b.height ≤ b.pool.length
      · simp only [if_pos hpool] at hi ⊢
        refine ⟨hi.1, le_trans ?_ hi.2⟩
        omega
      · simp only [if_neg hpool] at hi
        exact hi.elim

/-- **Rows no wider than the stride never run out**: where a repaint stops
makes no difference. -/
theorem extent_of_valid {win : Window} {x1 i : ℕ} (hwin : win.Valid)
    (hi : i ∈ win.extentTo w x1) : i ∈ win.extent w := by
  obtain ⟨x, y, buffer⟩ := win
  unfold extentTo at hi
  unfold extent extentTo
  cases buffer with
  | none => exact hi
  | some buffer =>
    cases buffer with
    | other width height => exact hi
    | singlePixel rgba => exact hi
    | shm b =>
      obtain ⟨hstride, -⟩ := hwin b rfl
      by_cases hpool : b.offset + b.stride * b.height ≤ b.pool.length
      · simp only [if_pos hpool] at hi ⊢
        obtain ⟨hmem, -⟩ := hi
        refine ⟨hmem, ?_⟩
        obtain ⟨⟨hcol, hcol'⟩, hrow, hrow'⟩ := hmem
        have hfits : (row w i - posY ⟨x, y, some (.shm b)⟩) * b.stride + b.stride ≤
            b.stride * b.height := srcRow_le b.stride (by omega)
        omega
      · simp only [if_neg hpool] at hi
        exact hi.elim

open Classical in
/-- A window over the picture so far, as far as column `x1`. -/
noncomputable def overTo (w x1 : ℕ) (v : ℕ → Option UInt8) (win : Window) (i : ℕ) :
    Option UInt8 :=
  if i ∈ win.extentTo w x1 then win.value w i else v i

/-- A window over the picture so far. -/
noncomputable def shown (w : ℕ) : (ℕ → Option UInt8) → Window → ℕ → Option UInt8 := overTo w w

end Window

/-- What a repaint that reaches as far as column `x1` makes of a window
list: black, each window over it in order, or the root weave where there
is none. -/
noncomputable def pictureTo (w x1 : ℕ) (windows : List Window) : ℕ → Option UInt8 :=
  if windows.length = 0 then weaveValue w
  else windows.foldl (Window.overTo w x1) fun _ => some 0

/-- **The picture of a window list**: what a full repaint makes of it. -/
noncomputable def picture (w : ℕ) (windows : List Window) : ℕ → Option UInt8 :=
  pictureTo w w windows

/-- **The clip paints no row of a window that a full repaint skips.** Only
a buffer whose rows are wider than its stride has such rows: the last of
them run out of the buffer at the output's edge, but not at the clip's. -/
def Clip.Respects (w : ℕ) (windows : List Window) (clip : Clip) : Prop :=
  ∀ win ∈ windows, ∀ i ∈ clip.bytes w, i ∈ win.extentTo w clip.x1 → i ∈ win.extent w

theorem respects_of_valid {windows : List Window} {clip : Clip}
    (hwin : ∀ win ∈ windows, win.Valid) : clip.Respects w windows :=
  fun win hmem _ _ => Window.extent_of_valid (hwin win hmem)

section FoldAt

variable {α β : Type*} {F : (ℕ → β) → α → ℕ → β} {G : (ℕ → β) → α → ℕ → β} {i : ℕ} (l : List α)
  (hlayer : ∀ a ∈ l, ∀ v v' : ℕ → β, v i = v' i → F v a i = G v' a i)

include hlayer

/-- Layers that agree at a byte, one by one, agree there together. -/
theorem foldl_at_congr {v v' : ℕ → β} (hv : v i = v' i) : l.foldl F v i = l.foldl G v' i := by
  induction l generalizing v v' with
  | nil => exact hv
  | cons a l ih =>
    exact ih (fun b hb => hlayer b (List.mem_cons_of_mem _ hb))
      (hlayer a List.mem_cons_self v v' hv)

end FoldAt

/-- **What a respectful clip is repainted with is the picture.** -/
theorem pictureTo_eq {windows : List Window} {clip : Clip} (hclip : clip.Inside w h)
    (hrespects : clip.Respects w windows) {i : ℕ} (hi : i ∈ clip.bytes w) :
    pictureTo w clip.x1 windows i = picture w windows i := by
  unfold picture pictureTo
  split
  · rfl
  refine foldl_at_congr windows (fun win hmem v v' hv => ?_) rfl
  have hiff : i ∈ win.extentTo w clip.x1 ↔ i ∈ win.extentTo w w :=
    ⟨hrespects win hmem i hi, Window.extent_subset hclip.x1⟩
  unfold Window.overTo
  rw [hv]
  by_cases hmem' : i ∈ win.extentTo w w
  · rw [if_pos (hiff.2 hmem'), if_pos hmem']
  · rw [if_neg (mt hiff.1 hmem'), if_neg hmem']

section Composite

variable {windows : List Window} (hsize : w * h * 4 < 2 ^ 32)
  (hwin : ∀ win ∈ windows, win.Addressable)

include hsize hwin

/-- The windows over what a pass has put into the clip. -/
theorem windows_paint {clip : Clip} (hclip : clip.Inside w h) {v : ℕ → Option UInt8}
    {f : Bytes → Bytes} (hf : Paints (w * h * 4) (clip.bytes w) v f) :
    Paints (w * h * 4) (clip.bytes w) (windows.foldl (Window.overTo w clip.x1) v) fun c =>
      windows.foldl (fun dst win => win.paint w h clip dst) (f c) := by
  induction windows generalizing v f with
  | nil => exact hf
  | cons win windows ih =>
    refine ih (fun win' hmem => hwin win' (List.mem_cons_of_mem _ hmem))
      (f := fun c => win.paint w h clip (f c)) fun c hc => ?_
    have hfirst := hf c hc
    have hthis := Window.paint_paints hsize hclip (hwin win List.mem_cons_self) (f c) hfirst.1
    exact ⟨hthis.1, hfirst.2.confined hthis.2⟩

/-- **One clip is repainted with one picture**, over whatever canvas. -/
theorem compositeClip_paints {clip : Clip} (hclip : clip.Inside w h) :
    Paints (w * h * 4) (clip.bytes w) (pictureTo w clip.x1 windows) fun c =>
      compositeClip w h windows c clip := by
  have hpainted := windows_paint hsize hwin hclip (clearRegion_paints hsize hclip)
  unfold compositeClip pictureTo
  by_cases hnone : windows.length = 0
  · simp only [if_pos hnone]
    intro c hc
    have hweave := renderRootWeave_paints hsize hclip _ (hpainted c hc).1
    exact ⟨hweave.1, (hpainted c hc).2.again hweave.2⟩
  · simp only [if_neg hnone]
    exact hpainted

/-- **Outside all clips** nothing is painted, whatever the windows. -/
theorem compositeClips_outside {clips : List Clip} (hclips : ∀ clip ∈ clips, clip.Inside w h)
    {canvas : Bytes} (hc : canvas.length = w * h * 4) :
    (compositeClips w h windows clips canvas).length = w * h * 4 ∧
      ∀ i, (¬ ∃ clip ∈ clips, i ∈ clip.bytes w) →
        (compositeClips w h windows clips canvas)[i]? = canvas[i]? := by
  refine List.foldlRecOn (motive := fun d : Bytes => d.length = w * h * 4 ∧
    ∀ i, (¬ ∃ clip ∈ clips, i ∈ clip.bytes w) → d[i]? = canvas[i]?) clips _ ⟨hc, fun _ _ => rfl⟩
    fun d hkept clip hmem => ?_
  obtain ⟨hlen, hout⟩ := compositeClip_paints hsize hwin (hclips clip hmem) d hkept.1
  exact ⟨hlen, fun i hi => (hout.outside i fun hin => hi ⟨clip, hmem, hin⟩).trans (hkept.2 i hi)⟩

/-- **Clip by clip**, the picture is put into the clips' union, if they
paint no row that a full repaint skips. -/
theorem compositeClips_paints {clips : List Clip} (hclips : ∀ clip ∈ clips, clip.Inside w h)
    (hrespects : ∀ clip ∈ clips, clip.Respects w windows) :
    Paints (w * h * 4) {i | ∃ clip ∈ clips, i ∈ clip.bytes w} (picture w windows) fun c =>
      compositeClips w h windows clips c := by
  have hclip : ∀ clip ∈ clips, Paints (w * h * 4) (clip.bytes w) (picture w windows) fun c =>
      compositeClip w h windows c clip := fun clip hmem =>
    (compositeClip_paints hsize hwin (hclips clip hmem)).congr (fun _ => Iff.rfl) fun i hi =>
      pictureTo_eq (hclips clip hmem) (hrespects clip hmem) hi
  intro c hc
  have hlen : ∀ c : Bytes, c.length = w * h * 4 → ∀ clip ∈ clips,
      (compositeClip w h windows c clip).length = w * h * 4 :=
    fun c hc clip hmem => (hclip clip hmem c hc).1
  exact ⟨List.foldlRecOn (motive := fun c : Bytes => c.length = w * h * 4) _ _ hc hlen,
    Overwrites.foldl clips hlen (fun c hc clip hmem => (hclip clip hmem c hc).2) c hc⟩

end Composite

/-- A byte inside the canvas belongs to a pixel of the full clip. -/
theorem mem_full {i : ℕ} (hi : i < w * h * 4) : i ∈ (Clip.full w h).bytes w := by
  have hpixel : i / 4 < h * w := by
    rw [Nat.mul_comm h w]
    omega
  have hw : 0 < w := by
    rcases Nat.eq_zero_or_pos w with rfl | hw
    · simp at hi
    · exact hw
  exact ⟨⟨Nat.zero_le _, Nat.mod_lt _ hw⟩, Nat.zero_le _, (Nat.div_lt_iff_lt_mul hw).2 hpixel⟩

/-- **Partial repaint equals full repaint.** Compositing clip by clip
leaves each byte of a pixel inside some clip as one full-output repaint
of the same windows leaves it, over whatever canvas, and every other
byte as it was. -/
theorem partial_repaint {windows : List Window} {clips : List Clip} {canvas canvas' : Bytes}
    (hsize : w * h * 4 < 2 ^ 32) (hwin : ∀ win ∈ windows, win.Valid)
    (hclips : ∀ clip ∈ clips, clip.Inside w h) (hcanvas : canvas.length = w * h * 4)
    (hcanvas' : canvas'.length = w * h * 4) :
    (compositeClips w h windows clips canvas).length = canvas.length ∧
    ∀ i, ((∃ clip ∈ clips, i ∈ clip.bytes w) →
        (compositeClips w h windows clips canvas)[i]? =
          (compositeClips w h windows [Clip.full w h] canvas')[i]?) ∧
      ((¬ ∃ clip ∈ clips, i ∈ clip.bytes w) →
        (compositeClips w h windows clips canvas)[i]? = canvas[i]?) := by
  have haddressable : ∀ win ∈ windows, win.Addressable := fun win hmem => (hwin win hmem).addressable
  obtain ⟨hlen, hpart⟩ := compositeClips_paints hsize haddressable hclips
    (fun _ _ => respects_of_valid hwin) canvas hcanvas
  obtain ⟨-, hfull⟩ := compositeClips_paints hsize haddressable
    (show ∀ clip ∈ [Clip.full w h], clip.Inside w h from
      fun clip hmem => by rw [List.mem_singleton.1 hmem]; exact full_inside w h)
    (fun _ _ => respects_of_valid hwin) canvas' hcanvas'
  refine ⟨hlen.trans hcanvas.symm, fun i => ⟨fun hi => ?_, hpart.outside i⟩⟩
  obtain ⟨clip, hmem, ⟨hcol0, hcol⟩, hrow0, hrow⟩ := hi
  have hin := hclips clip hmem
  have hfullmem : i ∈ (Clip.full w h).bytes w :=
    ⟨⟨Nat.zero_le _, Nat.lt_of_lt_of_le hcol hin.x1⟩, Nat.zero_le _,
      Nat.lt_of_lt_of_le hrow hin.y1⟩
  exact (hpart.inside i ⟨clip, hmem, ⟨hcol0, hcol⟩, hrow0, hrow⟩).trans
    (hfull.inside i ⟨_, List.mem_singleton_self _, hfullmem⟩).symm

/-- Two overlapping clips of a two-by-two output with a white pixel
buffer in its lower right corner. -/
theorem partial_repaint_two : (compositeClips 2 2 [⟨1, 1, some (.singlePixel ⟨255, 255, 255, 255⟩)⟩]
      [⟨0, 0, 1, 2⟩, ⟨0, 1, 2, 2⟩] (List.replicate 16 7)).length = 16 ∧
    (compositeClips 2 2 [⟨1, 1, some (.singlePixel ⟨255, 255, 255, 255⟩)⟩]
      [⟨0, 0, 1, 2⟩, ⟨0, 1, 2, 2⟩] (List.replicate 16 7))[12]? =
    (compositeClips 2 2 [⟨1, 1, some (.singlePixel ⟨255, 255, 255, 255⟩)⟩]
      [Clip.full 2 2] (List.replicate 16 0))[12]? := by
  have h := @partial_repaint 2 2 [⟨1, 1, some (.singlePixel ⟨255, 255, 255, 255⟩)⟩]
    [⟨0, 0, 1, 2⟩, ⟨0, 1, 2, 2⟩] (List.replicate 16 7) (List.replicate 16 0) (by decide)
    (by simp [Window.Valid])
    (by simp only [List.forall_mem_cons]; exact ⟨⟨by decide, by decide, by decide, by decide⟩,
      ⟨by decide, by decide, by decide, by decide⟩, nofun⟩) rfl rfl
  exact ⟨h.1, (h.2 12).1 ⟨⟨0, 1, 2, 2⟩, by simp, by decide, by decide⟩⟩

/-- A buffer of two pixels with a stride of one: the clip paints the first
pixel, and a full repaint skips the row. -/
example : compositeClips 2 1 [⟨0, 0, some (.shm ⟨[1, 2, 3, 4], 0, 2, 1, 4⟩)⟩] [⟨0, 0, 1, 1⟩]
      (List.replicate 8 0) = [1, 2, 3, 4, 0, 0, 0, 0] ∧
    compositeClips 2 1 [⟨0, 0, some (.shm ⟨[1, 2, 3, 4], 0, 2, 1, 4⟩)⟩] [Clip.full 2 1]
      (List.replicate 8 0) = List.replicate 8 0 := by decide

end Compositor

end WaylandWebStream
