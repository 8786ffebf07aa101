import WaylandWebStream.Lib.Bytes
import WaylandWebStream.Lib.Strided
import Mathlib.Tactic.Linarith

/-!
# Blit — one frame into the mapping of one slot

The native window draws by copying: a decoded frame into the shared memory
of a slot, centred, clipped to what both have. When the two have one layout
the copy is a single one, otherwise it is row by row. The letterbox is the
picture it is to leave; what it does leave is that inside the frame's
region, and the slot's old bytes outside (`getElem?_blitInto`).
-/

namespace WaylandWebStream

namespace Native

open Strided

/-- **A decoded frame**, its rows packed. -/
structure DecodedFrame where
  width : UInt32
  height : UInt32
  pixels : Bytes
  length_pixels : pixels.length = width.toNat * height.toNat * 4
  /-- No `Vec` holds more than `isize::MAX` bytes. -/
  length_lt : pixels.length < 2 ^ 63

/-- The bytes mapped for a slot, as `usize` computes them. -/
def bufferSize (width height : UInt32) : ℕ := width.toNat * 4 * height.toNat % 2 ^ 64

def absDiff (a b : UInt32) : ℕ := (a.toNat - b.toNat) + (b.toNat - a.toNat)

/-- The row copies of a blit, at byte offsets. -/
def rowCopies (srcStride dstStride xOff yOff rowBytes blitH : ℕ) : List Copy :=
  (List.range blitH).map fun row => ⟨row * srcStride, (yOff + row) * dstStride + xOff, rowBytes⟩

/-- The copies `blit_into` makes. -/
def blitCopies (srcW dstW dstH blitW blitH dstSize : ℕ) : List Copy :=
  let srcStride := srcW * 4
  let dstStride := dstW * 4
  if blitW = dstW ∧ blitH = dstH ∧ srcStride = dstStride then
    -- identical layout, a single copy of the whole mapping
    [⟨0, 0, dstSize⟩]
  else
    rowCopies srcStride dstStride ((dstW - blitW) / 2 * 4) ((dstH - blitH) / 2) (blitW * 4) blitH

/-- The copies for a frame, as the renderer asks for them: the overlap of
frame and slot. -/
def blitsOf (frame : DecodedFrame) (dstW dstH dstSize : ℕ) : List Copy :=
  blitCopies frame.width.toNat dstW dstH (min frame.width.toNat dstW) (min frame.height.toNat dstH)
    dstSize

/-- The mapping after a blit. -/
def blitInto (frame : DecodedFrame) (mapping : Bytes) (dstW dstH : ℕ) : Bytes :=
  runAll frame.pixels mapping (blitsOf frame dstW dstH mapping.length)

/-! ## The letterbox -/

section Letterbox

variable (frame : DecodedFrame) (w h p : ℕ)

/-- The width of the frame's region in a slot, and its distance from the left. -/
def regionW : ℕ := min frame.width.toNat w
def left : ℕ := (w - regionW frame w) / 2

/-- The height of the region, and its distance from the top. -/
def regionH : ℕ := min frame.height.toNat h
def top : ℕ := (h - regionH frame h) / 2

/-- **The region of the frame**: a position of a `w × h` picture, four bytes
a pixel, is in the centred `min(frame, slot)` rectangle. -/
def InRegion : Prop :=
  (top frame h ≤ p / (w * 4) ∧ p / (w * 4) < top frame h + regionH frame h) ∧
    left frame w * 4 ≤ p % (w * 4) ∧ p % (w * 4) < left frame w * 4 + regionW frame w * 4

instance : Decidable (InRegion frame w h p) := inferInstanceAs (Decidable (_ ∧ _))

/-- The byte of the frame that belongs at a position of its region. -/
def frameOffset : ℕ :=
  (p / (w * 4) - top frame h) * (frame.width.toNat * 4) + (p % (w * 4) - left frame w * 4)

/-- **The letterbox of a frame**: its top-left part centred, black around. -/
def letterboxByte : UInt8 :=
  if InRegion frame w h p then (frame.pixels[frameOffset frame w h p]?).getD 0 else 0

/-- The row path alone, whatever the layouts. -/
def blitRows (mapping : Bytes) : Bytes :=
  runAll frame.pixels mapping (rowCopies (frame.width.toNat * 4) (w * 4) (left frame w * 4)
    (top frame h) (regionW frame w * 4) (regionH frame h))

end Letterbox

/-! ## Where the copies go -/

variable {frame : DecodedFrame} {mapping : Bytes} {dstW dstH : UInt32} {w h p : ℕ} {c : Copy}

/-- A size within two pixels of a frame's does not wrap: a frame that is in
memory is far from the end of it. -/
theorem bufferSize_eq (hw : absDiff frame.width dstW ≤ 2) (hh : absDiff frame.height dstH ≤ 2) :
    bufferSize dstW dstH = dstW.toNat * 4 * dstH.toNat := by
  have hlen := frame.length_lt
  rw [frame.length_pixels] at hlen
  have hfw := frame.width.toNat_lt
  have hfh := frame.height.toNat_lt
  have hle : dstW.toNat * 4 * dstH.toNat
      ≤ (frame.width.toNat + 2) * 4 * (frame.height.toNat + 2) := by
    unfold absDiff at hw hh
    exact Nat.mul_le_mul (by omega) (by omega)
  have hexp : (frame.width.toNat + 2) * 4 * (frame.height.toNat + 2)
      = frame.width.toNat * frame.height.toNat * 4 + 8 * frame.width.toNat
        + 8 * frame.height.toNat + 16 := by ring
  exact Nat.mod_eq_of_lt (by omega)

theorem rowCopies_eq (srcStride dstStride xOff yOff rowBytes n : ℕ) :
    rowCopies srcStride dstStride xOff yOff rowBytes n
      = rows n rowBytes srcStride (yOff * dstStride + xOff) dstStride := by
  unfold rowCopies rows
  refine List.map_congr_left fun row _ => ?_
  rw [Copy.mk.injEq]
  exact ⟨rfl, by ring, rfl⟩

theorem left_add_le (frame : DecodedFrame) (w : ℕ) :
    left frame w * 4 + regionW frame w * 4 ≤ w * 4 := by
  have hle : regionW frame w ≤ w := Nat.min_le_right _ _
  unfold left
  omega

theorem top_add_le (frame : DecodedFrame) (h : ℕ) :
    top frame h + regionH frame h ≤ h := by
  have hle : regionH frame h ≤ h := Nat.min_le_right _ _
  unfold top
  omega

/-- A row of the region ends inside the row of the slot it is copied to,
and inside the frame. -/
theorem rowCopies_inBounds (hc : c ∈ rowCopies (frame.width.toNat * 4) (w * 4) (left frame w * 4)
    (top frame h) (regionW frame w * 4) (regionH frame h)) :
    c.InBounds frame.pixels.length (w * 4 * h) := by
  simp only [rowCopies, List.mem_map, List.mem_range] at hc
  obtain ⟨row, hrow, rfl⟩ := hc
  have hx := left_add_le frame w
  have hy := top_add_le frame h
  have hfw : regionW frame w ≤ frame.width.toNat := Nat.min_le_left _ _
  have hfh : regionH frame h ≤ frame.height.toNat := Nat.min_le_left _ _
  constructor
  · calc row * (frame.width.toNat * 4) + regionW frame w * 4
        ≤ row * (frame.width.toNat * 4) + frame.width.toNat * 4 := by omega
      _ = (row + 1) * (frame.width.toNat * 4) := by ring
      _ ≤ frame.height.toNat * (frame.width.toNat * 4) := Nat.mul_le_mul_right _ (by omega)
      _ = frame.pixels.length := by rw [frame.length_pixels]; ring
  · calc (top frame h + row) * (w * 4) + left frame w * 4 + regionW frame w * 4
        ≤ (top frame h + row) * (w * 4) + w * 4 := by omega
      _ = (top frame h + row + 1) * (w * 4) := by ring
      _ ≤ h * (w * 4) := Nat.mul_le_mul_right _ (by omega)
      _ = w * 4 * h := by ring

/-- The layouts are one, and the frame covers the slot: the fast path. -/
def OneLayout (frame : DecodedFrame) (w h : ℕ) : Prop :=
  frame.width.toNat = w ∧ h ≤ frame.height.toNat

instance (frame : DecodedFrame) (w h : ℕ) : Decidable (OneLayout frame w h) :=
  inferInstanceAs (Decidable (_ ∧ _))

/-- **The two paths of the blit.** -/
theorem blitsOf_eq (size : ℕ) : blitsOf frame w h size =
    if OneLayout frame w h then [⟨0, 0, size⟩]
    else rowCopies (frame.width.toNat * 4) (w * 4) (left frame w * 4) (top frame h)
      (regionW frame w * 4) (regionH frame h) := by
  have hiff : (min frame.width.toNat w = w ∧ min frame.height.toNat h = h ∧
      frame.width.toNat * 4 = w * 4) ↔ OneLayout frame w h := by
    unfold OneLayout
    omega
  simp only [blitsOf, blitCopies, hiff]
  rfl

/-- The frame that shares the slot's layout has a byte for each of its. -/
theorem OneLayout.length_le (hone : OneLayout frame w h) : w * 4 * h ≤ frame.pixels.length := by
  obtain ⟨hw, hh⟩ := hone
  calc w * 4 * h ≤ w * 4 * frame.height.toNat := Nat.mul_le_mul_left _ hh
    _ = frame.pixels.length := by rw [frame.length_pixels, hw]; ring

/-- **Every copy stays inside the frame and the mapping.** -/
theorem blitsOf_inBounds (hc : c ∈ blitsOf frame w h (w * 4 * h)) :
    c.InBounds frame.pixels.length (w * 4 * h) := by
  rw [blitsOf_eq] at hc
  split at hc
  · rename_i hone
    rw [List.mem_singleton.1 hc]
    exact ⟨by simpa using hone.length_le, by simp⟩
  · exact rowCopies_inBounds hc

/-! ## What the copies leave -/

section Content

variable (hlen : mapping.length = w * 4 * h)
include hlen

@[simp] theorem length_blitInto (frame : DecodedFrame) :
    (blitInto frame mapping w h).length = mapping.length :=
  length_runAll fun c hc => by
    rw [hlen] at hc ⊢
    exact blitsOf_inBounds hc

theorem inBounds_rowCopies (frame : DecodedFrame) :
    ∀ c ∈ rowCopies (frame.width.toNat * 4) (w * 4) (left frame w * 4)
    (top frame h) (regionW frame w * 4) (regionH frame h),
    c.InBounds frame.pixels.length mapping.length := by
  intro c hc
  rw [hlen]
  exact rowCopies_inBounds hc

/-- Inside the region, the row path leaves the frame. -/
theorem getElem?_blitRows (hin : InRegion frame w h p) :
    (blitRows frame w h mapping)[p]? = frame.pixels[frameOffset frame w h p]? := by
  obtain ⟨⟨htop, hbottom⟩, hleft, hright⟩ := hin
  have hp : w * 4 * (p / (w * 4)) + p % (w * 4) = p := Nat.div_add_mod _ _
  obtain ⟨row, hrow⟩ := Nat.exists_eq_add_of_le htop
  obtain ⟨col, hcol⟩ := Nat.exists_eq_add_of_le hleft
  have hpos : p = top frame h * (w * 4) + left frame w * 4 + row * (w * 4) + col := by
    rw [hrow, hcol] at hp
    rw [← hp]
    ring
  have hoff : frameOffset frame w h p = row * (frame.width.toNat * 4) + col := by
    rw [frameOffset, hrow, hcol, Nat.add_sub_cancel_left, Nat.add_sub_cancel_left]
  rw [hoff, blitRows]
  conv_lhs => rw [hpos]
  have hbounds := inBounds_rowCopies hlen frame
  rw [rowCopies_eq] at hbounds ⊢
  exact getElem?_runAll_rows ((Nat.le_add_left _ _).trans (left_add_le frame w)) hbounds
    (by omega) (by omega)

/-- Outside it, the slot's old bytes. -/
theorem getElem?_blitRows_of_not (hout : ¬ InRegion frame w h p) :
    (blitRows frame w h mapping)[p]? = mapping[p]? := by
  refine getElem?_runAll_of_not (inBounds_rowCopies hlen frame) fun c hc hcovers => hout ?_
  simp only [rowCopies, List.mem_map, List.mem_range] at hc
  obtain ⟨row, hrow, rfl⟩ := hc
  obtain ⟨hge, hlt⟩ := hcovers
  simp only at hge hlt
  have hx := left_add_le frame w
  obtain ⟨col, rfl⟩ := Nat.exists_eq_add_of_le hge
  have hcol : left frame w * 4 + col < w * 4 := by omega
  -- the line and the column of what a row covers are those of the region
  have hassoc : (top frame h + row) * (w * 4) + left frame w * 4 + col
      = left frame w * 4 + col + w * 4 * (top frame h + row) := by ring
  have hdiv : ((top frame h + row) * (w * 4) + left frame w * 4 + col) / (w * 4)
      = top frame h + row := by
    rw [hassoc, Nat.add_mul_div_left _ _ (by omega), Nat.div_eq_of_lt hcol, Nat.zero_add]
  have hmod : ((top frame h + row) * (w * 4) + left frame w * 4 + col) % (w * 4)
      = left frame w * 4 + col := by
    rw [hassoc, Nat.add_mul_mod_self_left, Nat.mod_eq_of_lt hcol]
  rw [InRegion, hdiv, hmod]
  omega

/-- **The fast path and the row path give one result**: with one layout the
region is everything, and a position of the slot is the same position of
the frame. -/
theorem blitInto_eq_blitRows : blitInto frame mapping w h = blitRows frame w h mapping := by
  rw [blitInto, blitsOf_eq, blitRows]
  split
  · rename_i hone
    have hlong : mapping.length ≤ frame.pixels.length := hlen ▸ hone.length_le
    obtain ⟨hw, hh⟩ := hone
    apply List.ext_getElem?
    intro p
    rw [runAll, List.foldl_cons, List.foldl_nil]
    rcases Nat.lt_or_ge p mapping.length with hlt | hge
    · have hpos : 0 < w * 4 := by
        rcases Nat.eq_zero_or_pos (w * 4) with h0 | h0
        · rw [hlen, h0, Nat.zero_mul] at hlt
          omega
        · exact h0
      have hdiv : p / (w * 4) < h := (Nat.div_lt_iff_lt_mul hpos).2 (by
        rw [Nat.mul_comm]; omega)
      have hmod : p % (w * 4) < w * 4 := Nat.mod_lt _ hpos
      have hdm : w * 4 * (p / (w * 4)) + p % (w * 4) = p := Nat.div_add_mod _ _
      have hleft : left frame w = 0 := by simp [left, regionW, hw]
      have htop : top frame h = 0 := by simp [top, regionH, Nat.min_eq_right hh]
      have hin : InRegion frame w h p := by
        rw [InRegion, hleft, htop, regionW, regionH, hw, Nat.min_eq_right hh, Nat.min_self,
          Nat.zero_mul, Nat.zero_add, Nat.zero_add]
        exact ⟨⟨Nat.zero_le _, hdiv⟩, Nat.zero_le _, hmod⟩
      have hoff : frameOffset frame w h p = p := by
        rw [frameOffset, hleft, htop, hw, Nat.sub_zero, Nat.zero_mul, Nat.sub_zero, Nat.mul_comm]
        exact hdm
      rw [getElem?_run_whole rfl hlong hlt]
      have hrows := getElem?_blitRows hlen hin
      rw [hoff, blitRows] at hrows
      exact hrows.symm
    · rw [List.getElem?_eq_none (by
          rw [Copy.length_run ⟨by simpa using hlong, by simp⟩]; exact hge),
        List.getElem?_eq_none (by
          rw [length_runAll (inBounds_rowCopies hlen frame)]; exact hge)]
  · rfl

/-- **A blit leaves the frame in its region**, -/
theorem getElem?_blitInto (hin : InRegion frame w h p) :
    (blitInto frame mapping w h)[p]? = frame.pixels[frameOffset frame w h p]? := by
  rw [blitInto_eq_blitRows hlen]
  exact getElem?_blitRows hlen hin

/-- **and the slot's old bytes around it.** -/
theorem getElem?_blitInto_of_not (hout : ¬ InRegion frame w h p) :
    (blitInto frame mapping w h)[p]? = mapping[p]? := by
  rw [blitInto_eq_blitRows hlen]
  exact getElem?_blitRows_of_not hlen hout

end Content

end Native

end WaylandWebStream
