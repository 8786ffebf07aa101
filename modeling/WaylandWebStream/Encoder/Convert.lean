import WaylandWebStream.Compositor.Paint

/-!
# Damage-driven conversion

The encoder keeps one YUV frame from submit to submit and converts the
damaged rows of each BGRA frame into it. Chroma is subsampled vertically,
so a band is widened to even rows; what the colour converter makes of an
even-aligned pair of rows is taken as a parameter.
-/

namespace WaylandWebStream

namespace Encoder

open Compositor (DamageRect u32)

/-- A raw captured frame. No damage means the whole frame. -/
structure RawFrame where
  data : Bytes
  width : ℕ
  height : ℕ
  damage : List DamageRect

/-- The planes of a YUV420P frame, row by row. -/
structure YuvFrame where
  y : ℕ → Bytes
  u : ℕ → Bytes
  v : ℕ → Bytes

/-- What an even-aligned pair of rows is converted to. -/
structure RowPair where
  y0 : Bytes
  y1 : Bytes
  u : Bytes
  v : Bytes

/-- The colour converter: the width it was made for, and a pair of source
rows, of which a frame of odd height lacks the last one. -/
abbrev Scaler := ℕ → Bytes → Option Bytes → RowPair

/-- Row `k` of BGRA data, packed without padding. -/
def rowAt (width : ℕ) (data : Bytes) (k : ℕ) : Bytes := (data.drop (k * (width * 4))).take (width * 4)

/-- Pair `j` of the rows before `stop`, converted. -/
def pairAt (scaler : Scaler) (width : ℕ) (data : Bytes) (stop j : ℕ) : RowPair :=
  scaler width (rowAt width data (2 * j))
    (if 2 * j + 1 < stop then some (rowAt width data (2 * j + 1)) else none)

/-- `sws_scale` on the rows from `y0` to `y1`: the plane pointers are
offset to row `y0`, chroma to row `y0 / 2`. -/
def swsScale (scaler : Scaler) (width : ℕ) (data : Bytes) (y0 y1 : ℕ) (output : YuvFrame) :
    YuvFrame where
  y k :=
    if y0 ≤ k ∧ k < y1 then
      if k % 2 = 0 then (pairAt scaler width data y1 (k / 2)).y0
      else (pairAt scaler width data y1 (k / 2)).y1
    else output.y k
  u k := if y0 ≤ 2 * k ∧ 2 * k < y1 then (pairAt scaler width data y1 k).u else output.u k
  v k := if y0 ≤ 2 * k ∧ 2 * k < y1 then (pairAt scaler width data y1 k).v else output.v k

/-- `u32::saturating_add`. -/
def saturatingAdd (a b : ℕ) : ℕ := min (a + b) (2 ^ 32 - 1)

/-- `n & !1`. -/
def evenFloor (n : ℕ) : ℕ := n - n % 2

/-- A damage rectangle's band, rounded down to even. -/
def bandStart (rect : DamageRect) : ℕ := evenFloor rect.y

/-- And up, clamped to the frame. -/
def bandStop (rect : DamageRect) (height : ℕ) : ℕ :=
  min (evenFloor (saturatingAdd (saturatingAdd rect.y rect.height) 1)) height

/-- Converts the row bands the damage covers, and leaves the other rows. -/
def convertDamagedRows (scaler : Scaler) (width : ℕ) (data : Bytes) (damage : List DamageRect)
    (height : ℕ) (output : YuvFrame) : YuvFrame :=
  damage.foldl (fun output rect =>
    if bandStop rect height ≤ bandStart rect then output
    else swsScale scaler width data (bandStart rect) (bandStop rect height) output) output

/-! ## What a band conversion leaves behind -/

/-- Two YUV frames that agree on every row of every plane. -/
structure YuvFrame.Agree (height : ℕ) (a b : YuvFrame) : Prop where
  y : ∀ k < height, a.y k = b.y k
  u : ∀ k < (height + 1) / 2, a.u k = b.u k
  v : ∀ k < (height + 1) / 2, a.v k = b.v k

/-- `scaler.run`: the full conversion of a frame, over whatever was there. -/
def fullConvert (scaler : Scaler) (f : RawFrame) (output : YuvFrame) : YuvFrame :=
  swsScale scaler f.width f.data 0 f.height output

/-- **The YUV frame is the frame's full conversion.** -/
def YuvFrame.Shows (scaler : Scaler) (yuv : YuvFrame) (f : RawFrame) : Prop :=
  ∀ output, yuv.Agree f.height (fullConvert scaler f output)

/-- Pair `j` of the planes is the frame's pair `j`, converted. -/
structure YuvFrame.ShowsPair (scaler : Scaler) (yuv : YuvFrame) (f : RawFrame) (j : ℕ) : Prop where
  y0 : yuv.y (2 * j) = (pairAt scaler f.width f.data f.height j).y0
  y1 : 2 * j + 1 < f.height → yuv.y (2 * j + 1) = (pairAt scaler f.width f.data f.height j).y1
  u : yuv.u j = (pairAt scaler f.width f.data f.height j).u
  v : yuv.v j = (pairAt scaler f.width f.data f.height j).v

variable {scaler : Scaler} {f b : RawFrame} {yuv : YuvFrame} {j k : ℕ}

/-- A frame is converted when all its pairs are. -/
theorem shows_iff :
    yuv.Shows scaler f ↔ ∀ j, 2 * j < f.height → yuv.ShowsPair scaler f j := by
  constructor
  · intro h j hj
    obtain ⟨hy, hu, hv⟩ := h yuv
    refine ⟨?_, fun hj1 => ?_, ?_, ?_⟩
    · have h0 := hy (2 * j) hj
      rw [fullConvert, swsScale] at h0
      simpa [hj] using h0
    · have h1 := hy (2 * j + 1) hj1
      have hdiv : (2 * j + 1) / 2 = j := by omega
      have hmod : ¬ (2 * j + 1) % 2 = 0 := by omega
      rw [fullConvert, swsScale] at h1
      simpa only [Nat.zero_le, true_and, if_pos hj1, if_neg hmod, hdiv] using h1
    · have hu := hu j (by omega)
      rw [fullConvert, swsScale] at hu
      simpa [hj] using hu
    · have hv := hv j (by omega)
      rw [fullConvert, swsScale] at hv
      simpa [hj] using hv
  · intro h output
    refine ⟨fun k hk => ?_, fun k hk => ?_, fun k hk => ?_⟩
    · have hpair := h (k / 2) (by omega)
      rw [fullConvert, swsScale]
      simp only [Nat.zero_le, true_and, if_pos hk]
      by_cases hmod : k % 2 = 0
      · rw [if_pos hmod, ← hpair.y0, show 2 * (k / 2) = k by omega]
      · rw [if_neg hmod, ← hpair.y1 (by omega), show 2 * (k / 2) + 1 = k by omega]
    · rw [fullConvert, swsScale]
      simp only [Nat.zero_le, true_and, if_pos (show 2 * k < f.height by omega)]
      exact (h k (by omega)).u
    · rw [fullConvert, swsScale]
      simp only [Nat.zero_le, true_and, if_pos (show 2 * k < f.height by omega)]
      exact (h k (by omega)).v

/-- A full conversion shows its frame. -/
theorem fullConvert_shows (output : YuvFrame) : (fullConvert scaler f output).Shows scaler f := by
  intro output'
  refine ⟨fun k hk => ?_, fun k hk => ?_, fun k hk => ?_⟩
  · simp only [fullConvert, swsScale, Nat.zero_le, true_and, if_pos hk]
  · simp only [fullConvert, swsScale, Nat.zero_le, true_and,
      if_pos (show 2 * k < f.height by omega)]
  · simp only [fullConvert, swsScale, Nat.zero_le, true_and,
      if_pos (show 2 * k < f.height by omega)]

/-- A band reaches an even row, or the frame's end. -/
def Aligned (f : RawFrame) (y0 y1 : ℕ) : Prop :=
  y0 % 2 = 0 ∧ y1 ≤ f.height ∧ (y1 % 2 = 0 ∨ y1 = f.height)

theorem band_aligned (rect : DamageRect) :
    Aligned f (bandStart rect) (bandStop rect f.height) := by
  unfold Aligned bandStart bandStop evenFloor
  omega

/-- A pair of an aligned band has the rows it has in the whole frame. -/
theorem pairAt_of_aligned {y0 y1 : ℕ} (hband : Aligned f y0 y1) (hj : 2 * j < y1) :
    pairAt scaler f.width f.data y1 j = pairAt scaler f.width f.data f.height j := by
  obtain ⟨-, hle, heven⟩ := hband
  have hiff : 2 * j + 1 < y1 ↔ 2 * j + 1 < f.height := by omega
  simp only [pairAt, hiff]

/-- **A band is converted, and the pairs that were right stay right.** -/
theorem swsScale_showsPair {y0 y1 : ℕ} (hband : Aligned f y0 y1)
    (h : (y0 ≤ 2 * j ∧ 2 * j < y1) ∨ yuv.ShowsPair scaler f j) :
    (swsScale scaler f.width f.data y0 y1 yuv).ShowsPair scaler f j := by
  have hdiv : (2 * j + 1) / 2 = j := by omega
  have hmod : ¬ (2 * j + 1) % 2 = 0 := by omega
  by_cases hin : y0 ≤ 2 * j ∧ 2 * j < y1
  · have hpair : pairAt scaler _ _ y1 j = pairAt scaler _ _ _ j := pairAt_of_aligned hband hin.2
    refine ⟨?_, fun hj1 => ?_, ?_, ?_⟩
    · simp [swsScale, hin, hpair]
    · have hin1 : y0 ≤ 2 * j + 1 ∧ 2 * j + 1 < y1 := by
        obtain ⟨-, -, heven⟩ := hband
        omega
      simp only [swsScale, if_pos hin1, if_neg hmod, hdiv, hpair]
    · simp only [swsScale, if_pos hin, hpair]
    · simp only [swsScale, if_pos hin, hpair]
  · have hout1 : ¬ (y0 ≤ 2 * j + 1 ∧ 2 * j + 1 < y1) := by
      obtain ⟨heven, -, -⟩ := hband
      omega
    obtain ⟨h0, h1, hu, hv⟩ := h.resolve_left hin
    refine ⟨?_, fun hj1 => ?_, ?_, ?_⟩
    · simpa only [swsScale, if_neg hin] using h0
    · simpa only [swsScale, if_neg hout1] using h1 hj1
    · simpa only [swsScale, if_neg hin] using hu
    · simpa only [swsScale, if_neg hin] using hv

/-- **After the bands**, a pair is right where some band covers it, or
where it was before. -/
theorem convertDamagedRows_showsPair (damage : List DamageRect)
    (h : (∃ rect ∈ damage, bandStart rect ≤ 2 * j ∧ 2 * j < bandStop rect f.height) ∨
      yuv.ShowsPair scaler f j) :
    (convertDamagedRows scaler f.width f.data damage f.height yuv).ShowsPair scaler f j := by
  induction damage generalizing yuv with
  | nil =>
    rcases h with ⟨_, hmem, -⟩ | h
    · cases hmem
    · exact h
  | cons rect rest ih =>
    rw [convertDamagedRows, List.foldl_cons]
    refine ih ?_
    by_cases hempty : bandStop rect f.height ≤ bandStart rect
    · rw [if_pos hempty]
      rcases h with ⟨rect', hmem, hin⟩ | h
      · rcases List.mem_cons.1 hmem with rfl | hmem
        · omega
        · exact Or.inl ⟨rect', hmem, hin⟩
      · exact Or.inr h
    · rw [if_neg hempty]
      rcases h with ⟨rect', hmem, hin⟩ | h
      · rcases List.mem_cons.1 hmem with rfl | hmem
        · exact Or.inr (swsScale_showsPair (band_aligned _) (Or.inl hin))
        · exact Or.inl ⟨rect', hmem, hin⟩
      · exact Or.inr (swsScale_showsPair (band_aligned _) (Or.inr h))

/-! ## Frames that differ in their damage only -/

/-- Row `k` is in the damage. -/
def Covered (damage : List DamageRect) (k : ℕ) : Prop :=
  ∃ rect ∈ damage, rect.y ≤ k ∧ k < rect.y + rect.height

/-- Two frames of one size with one row `k`. -/
structure RawFrame.SameRow (b f : RawFrame) (k : ℕ) : Prop where
  width : b.width = f.width
  height : b.height = f.height
  row : rowAt b.width b.data k = rowAt f.width f.data k

/-- **A frame's damage covers what it changes**: every row of it is damaged,
or is the other frame's row. -/
def RawFrame.Covers (b f : RawFrame) : Prop := ∀ k < f.height, Covered f.damage k ∨ b.SameRow f k

/-- The same, where no damage means the whole frame. -/
def RawFrame.Follows (b f : RawFrame) : Prop := f.damage = [] ∨ b.Covers f

/-- A damaged row lies in its rectangle's band. -/
theorem band_of_covered {damage : List DamageRect} {height : ℕ} (hheight : height < 2 ^ 30)
    (hk : k < height) (h : Covered damage k) :
    ∃ rect ∈ damage, bandStart rect ≤ 2 * (k / 2) ∧ 2 * (k / 2) < bandStop rect height := by
  obtain ⟨rect, hmem, hy0, hy1⟩ := h
  refine ⟨rect, hmem, ?_, ?_⟩
  · unfold bandStart evenFloor
    omega
  · unfold bandStop evenFloor saturatingAdd
    omega

/-- **Damage-driven conversion is full conversion**, from a YUV frame that
shows the frame before. -/
theorem convertDamagedRows_shows (hheight : f.height < 2 ^ 30) (hb : yuv.Shows scaler b)
    (h : b.Covers f) :
    (convertDamagedRows scaler f.width f.data f.damage f.height yuv).Shows scaler f := by
  rw [shows_iff]
  intro j hj
  refine convertDamagedRows_showsPair _ ?_
  by_cases h0 : Covered f.damage (2 * j)
  · have hband := band_of_covered hheight hj h0
    rw [show 2 * j / 2 = j by omega] at hband
    exact Or.inl hband
  have hsame0 := (h (2 * j) hj).resolve_left h0
  have hpair := shows_iff.1 hb j (by rw [hsame0.height]; exact hj)
  by_cases hlast : 2 * j + 1 < f.height
  · by_cases h1 : Covered f.damage (2 * j + 1)
    · have hband := band_of_covered hheight hlast h1
      rw [show (2 * j + 1) / 2 = j by omega] at hband
      exact Or.inl hband
    -- neither row is damaged: the pair is the one converted before
    have hsame1 := (h (2 * j + 1) hlast).resolve_left h1
    have hat : pairAt scaler b.width b.data b.height j =
        pairAt scaler f.width f.data f.height j := by
      rw [pairAt, pairAt, hsame0.row, hsame1.row, hsame0.height, hsame0.width]
    refine Or.inr ⟨?_, fun hj1 => ?_, ?_, ?_⟩
    · rw [hpair.y0, hat]
    · rw [hpair.y1 (by rw [hsame0.height]; exact hj1), hat]
    · rw [hpair.u, hat]
    · rw [hpair.v, hat]
  · have hat : pairAt scaler b.width b.data b.height j =
        pairAt scaler f.width f.data f.height j := by
      rw [pairAt, pairAt, hsame0.row, hsame0.height, hsame0.width, if_neg hlast, if_neg hlast]
    refine Or.inr ⟨?_, fun hj1 => absurd hj1 hlast, ?_, ?_⟩
    · rw [hpair.y0, hat]
    · rw [hpair.u, hat]
    · rw [hpair.v, hat]

theorem RawFrame.SameRow.trans {c : RawFrame} (h : b.SameRow f k) (h' : f.SameRow c k) :
    b.SameRow c k :=
  ⟨h.width.trans h'.width, h.height.trans h'.height, h.row.trans h'.row⟩

end Encoder

end WaylandWebStream
