import WaylandWebStream.Compositor.Repaint
import Mathlib.Data.List.Induction

/-!
# Accumulated damage

The damage of a frame is a small set of rectangles: disjoint regions stay
apart, the full output supersedes everything, and past a bound the set
collapses to its bounding box. Whatever is added, and in whatever order,
the set covers what it covered and what was added, as far as the output
reaches.
-/

namespace WaylandWebStream

namespace Compositor

/-- `Rectangle::merge`: the bounding box of both. -/
def Rect.merge (a b : Rect) : Rect where
  x := min a.x b.x
  y := min a.y b.y
  w := max (a.x + a.w) (b.x + b.w) - min a.x b.x
  h := max (a.y + a.h) (b.y + b.h) - min a.y b.y

def maxDamageRects : ℕ := 8

/-- `accumulate_damage`. -/
def accumulateDamage (set : List Rect) (rect full : Rect) : List Rect :=
  if set.head? = some full then set
  else if rect = full then [full]
  else if rect ∈ set then set
  else if set.length ≥ maxDamageRects then [set.foldl Rect.merge rect]
  else set ++ [rect]

/-- The rectangle covering the entire output. -/
def fullOutputDamage (width height : ℕ) : Rect := ⟨0, 0, width, height⟩

/-- Whether the rectangle has the pixel. -/
def Rect.Has (r : Rect) (x y : ℕ) : Prop :=
  (r.x ≤ x ∧ x < r.x + r.w) ∧ r.y ≤ y ∧ y < r.y + r.h

instance (r : Rect) (x y : ℕ) : Decidable (r.Has x y) := inferInstanceAs (Decidable (_ ∧ _))

/-- Some rectangle of the set has the pixel. -/
def Damaged (set : List Rect) (x y : ℕ) : Prop := ∃ r ∈ set, r.Has x y

instance (set : List Rect) (x y : ℕ) : Decidable (Damaged set x y) :=
  inferInstanceAs (Decidable (∃ r ∈ set, r.Has x y))

variable {w h x y : ℕ}

theorem full_has (hx : x < w) (hy : y < h) : (fullOutputDamage w h).Has x y := by
  simp only [Rect.Has, fullOutputDamage]
  omega

theorem merge_left {a b : Rect} (ha : a.Has x y) : (a.merge b).Has x y := by
  simp only [Rect.Has, Rect.merge] at ha ⊢
  omega

theorem merge_right {a b : Rect} (hb : b.Has x y) : (a.merge b).Has x y := by
  simp only [Rect.Has, Rect.merge] at hb ⊢
  omega

/-- The bounding box has what any of its rectangles has. -/
theorem foldl_merge_has {set : List Rect} {rect : Rect}
    (hr : rect.Has x y ∨ Damaged set x y) : (set.foldl Rect.merge rect).Has x y := by
  induction set generalizing rect with
  | nil =>
    rcases hr with hr | ⟨r, hmem, -⟩
    · exact hr
    · cases hmem
  | cons a set ih =>
    refine ih ?_
    rcases hr with hr | ⟨r, hmem, hr⟩
    · exact Or.inl (merge_left hr)
    · rcases List.mem_cons.1 hmem with rfl | hmem
      · exact Or.inl (merge_right hr)
      · exact Or.inr ⟨r, hmem, hr⟩

/-- **No damage is lost.** What was damaged and what is added is damaged,
inside the output. -/
theorem accumulate_covers {set : List Rect} {rect : Rect} (hx : x < w) (hy : y < h)
    (hd : Damaged set x y ∨ rect.Has x y) :
    Damaged (accumulateDamage set rect (fullOutputDamage w h)) x y := by
  have hfull := full_has hx hy
  unfold accumulateDamage
  split
  · rename_i hhead
    exact ⟨_, List.mem_of_mem_head? hhead, hfull⟩
  split
  · exact ⟨_, List.mem_singleton_self _, hfull⟩
  split
  · rename_i hmem
    rcases hd with hd | hr
    · exact hd
    · exact ⟨rect, hmem, hr⟩
  split
  · refine ⟨_, List.mem_singleton_self _, foldl_merge_has ?_⟩
    exact hd.symm
  · rcases hd with ⟨r, hmem, hr⟩ | hr
    · exact ⟨r, List.mem_append_left _ hmem, hr⟩
    · exact ⟨rect, List.mem_append_right _ (List.mem_singleton_self _), hr⟩

/-- What comes out is never empty. -/
theorem accumulate_ne_nil (set : List Rect) (rect full : Rect) :
    accumulateDamage set rect full ≠ [] := by
  unfold accumulateDamage
  split
  · rintro rfl
    rename_i hhead
    cases hhead
  split
  · exact List.cons_ne_nil _ _
  split
  · rintro rfl
    rename_i hmem
    cases hmem
  split
  · exact List.cons_ne_nil _ _
  · exact List.append_ne_nil_of_right_ne_nil _ (List.cons_ne_nil _ _)

/-! ## Sequences of additions -/

/-- The damage after adding rectangles one by one, from no damage. -/
def accumulated (w h : ℕ) (rects : List Rect) : List Rect :=
  rects.foldl (fun set rect => accumulateDamage set rect (fullOutputDamage w h)) []

theorem accumulated_concat (w h : ℕ) (rects : List Rect) (rect : Rect) :
    accumulated w h (rects ++ [rect]) =
      accumulateDamage (accumulated w h rects) rect (fullOutputDamage w h) := by
  rw [accumulated, List.foldl_append]
  rfl

/-- A set is bounded when it is short, and when the full output never
leads a longer one. -/
structure Bounded (full : Rect) (set : List Rect) : Prop where
  short : set.length ≤ maxDamageRects
  alone : full ∈ set → set = [full]

/-- One addition keeps the set bounded: a new rectangle is appended only
to a set below the bound, and only when neither is the full output. -/
theorem accumulate_bounded {full : Rect} {set : List Rect} (hset : Bounded full set)
    (rect : Rect) : Bounded full (accumulateDamage set rect full) := by
  have hone : ∀ r : Rect, [r].length ≤ maxDamageRects := fun r => Nat.le_of_ble_eq_true rfl
  unfold accumulateDamage
  split
  · exact hset
  rename_i hhead
  split
  · exact ⟨hone full, fun _ => rfl⟩
  rename_i hfull
  split
  · exact hset
  split
  · -- the bounding box may happen to be the output itself
    exact ⟨hone _, fun hmem => by rw [List.mem_singleton.1 hmem]⟩
  rename_i hroom
  refine ⟨?_, fun hmem => ?_⟩
  · rw [List.length_append, List.length_singleton]
    omega
  · rcases List.mem_append.1 hmem with hold | hnew
    · have hset := hset.alone hold
      exact absurd (by rw [hset]; rfl) hhead
    · exact absurd (List.mem_singleton.1 hnew).symm hfull

theorem accumulated_bounded (w h : ℕ) (rects : List Rect) :
    Bounded (fullOutputDamage w h) (accumulated w h rects) := by
  induction rects using List.reverseRecOn with
  | nil => exact ⟨Nat.zero_le _, fun hmem => by cases hmem⟩
  | append_singleton rects rect ih =>
    rw [accumulated_concat]
    exact accumulate_bounded ih rect

/-- Nothing is added to the full output. -/
theorem accumulate_full (rect full : Rect) : accumulateDamage [full] rect full = [full] := by
  rw [accumulateDamage, if_pos (by rfl)]

theorem accumulated_append_full {rects : List Rect}
    (hfull : accumulated w h rects = [fullOutputDamage w h]) (more : List Rect) :
    accumulated w h (rects ++ more) = [fullOutputDamage w h] := by
  induction more using List.reverseRecOn with
  | nil => rwa [List.append_nil]
  | append_singleton more rect ih =>
    rw [← List.append_assoc, accumulated_concat, ih]
    exact accumulate_full _ _

theorem accumulated_append_covers (rects more : List Rect) (hx : x < w) (hy : y < h)
    (hd : Damaged (accumulated w h rects) x y ∨ Damaged more x y) :
    Damaged (accumulated w h (rects ++ more)) x y := by
  induction more using List.reverseRecOn with
  | nil =>
    rw [List.append_nil]
    exact hd.resolve_right fun ⟨r, hmem, _⟩ => by cases hmem
  | append_singleton more rect ih =>
    rw [← List.append_assoc, accumulated_concat]
    refine accumulate_covers hx hy ?_
    rcases hd with hd | ⟨r, hmem, hr⟩
    · exact Or.inl (ih (Or.inl hd))
    · rcases List.mem_append.1 hmem with hmem | hmem
      · exact Or.inl (ih (Or.inr ⟨r, hmem, hr⟩))
      · rw [List.mem_singleton.1 hmem] at hr
        exact Or.inr hr

/-- An addition of the full output leaves nothing else. -/
theorem accumulate_output {full : Rect} {set : List Rect} (hset : Bounded full set) :
    accumulateDamage set full full = [full] := by
  unfold accumulateDamage
  split
  · rename_i hhead
    exact hset.alone (List.mem_of_mem_head? hhead)
  · rw [if_pos rfl]

/-- A rectangle lies in the box with these corners. -/
def Rect.Within (r : Rect) (lo hi : ℤ) : Prop :=
  (lo ≤ r.x ∧ lo ≤ r.x + r.w ∧ lo ≤ r.y ∧ lo ≤ r.y + r.h) ∧
    r.x ≤ hi ∧ r.x + r.w ≤ hi ∧ r.y ≤ hi ∧ r.y + r.h ≤ hi

theorem merge_within {lo hi : ℤ} {a b : Rect} (ha : a.Within lo hi) (hb : b.Within lo hi) :
    (a.merge b).Within lo hi := by
  simp only [Rect.Within, Rect.merge] at ha hb ⊢
  omega

theorem foldl_merge_within {lo hi : ℤ} {set : List Rect} {rect : Rect}
    (hr : rect.Within lo hi) (hset : ∀ r ∈ set, r.Within lo hi) :
    (set.foldl Rect.merge rect).Within lo hi := by
  induction set generalizing rect with
  | nil => exact hr
  | cons a set ih =>
    have ha := hset a (List.mem_cons_self)
    exact ih (merge_within hr ha) fun r hmem => hset r (List.mem_cons_of_mem _ hmem)

/-- The set never reaches out of a box that has the output and the added
rectangles: a box of half the 32-bit coordinates keeps every sum in range. -/
theorem accumulated_within {lo hi : ℤ} (hfull : (fullOutputDamage w h).Within lo hi)
    {rects : List Rect} (hrects : ∀ r ∈ rects, r.Within lo hi) :
    ∀ r ∈ accumulated w h rects, r.Within lo hi := by
  induction rects using List.reverseRecOn with
  | nil => exact fun r hmem => by cases hmem
  | append_singleton rects rect ih =>
    have hset := ih fun r hmem => hrects r (List.mem_append_left _ hmem)
    have hrect := hrects rect (List.mem_append_right _ (List.mem_singleton_self _))
    rw [accumulated_concat, accumulateDamage]
    intro r hmem
    split_ifs at hmem with hhead heq hdup hcap
    · exact hset r hmem
    · rwa [List.mem_singleton.1 hmem]
    · exact hset r hmem
    · rw [List.mem_singleton.1 hmem]
      exact foldl_merge_within hrect hset
    · rcases List.mem_append.1 hmem with hmem | hmem
      · exact hset r hmem
      · rwa [List.mem_singleton.1 hmem]

/-! ## Damage as clips -/

theorem clamp_le (v : ℤ) (hi : ℕ) : Clip.clamp v hi ≤ hi := by
  unfold Clip.clamp
  omega

/-- **A clip has the pixels of its rectangle** that lie in the output. -/
theorem fromLogical_bytes {rect : Rect} {i : ℕ} (hcol : col w i < w) (hrow : row w i < h) :
    i ∈ (Clip.fromLogical rect w h).bytes w ↔ rect.Has (col w i) (row w i) := by
  show ((Clip.clamp rect.x w ≤ col w i ∧ col w i < Clip.clamp (rect.x + rect.w) w) ∧
    Clip.clamp rect.y h ≤ row w i ∧ row w i < Clip.clamp (rect.y + rect.h) h) ↔ _
  unfold Clip.clamp Rect.Has
  omega

theorem fromLogical_inside {rect : Rect} (hne : (Clip.fromLogical rect w h).isEmpty = false) :
    (Clip.fromLogical rect w h).Inside w h := by
  simp only [Clip.isEmpty, Bool.or_eq_false_iff, decide_eq_false_iff_not, Nat.not_le] at hne
  exact ⟨Nat.le_of_lt hne.1, clamp_le _ _, Nat.le_of_lt hne.2, clamp_le _ _⟩

/-- The column and row of a byte of the output. -/
theorem col_row_lt {i : ℕ} (hi : i < w * h * 4) : col w i < w ∧ row w i < h := by
  obtain ⟨⟨-, hcol⟩, -, hrow⟩ := mem_full hi
  exact ⟨hcol, hrow⟩

namespace Renderer

variable {s : Renderer}

/-- The clips of a frame lie inside the output. -/
theorem clips_inside : ∀ clip ∈ s.clips, clip.Inside s.width s.height := by
  unfold clips
  split
  · intro clip hmem
    rw [List.mem_singleton.1 hmem]
    exact full_inside _ _
  · intro clip hmem
    obtain ⟨hmem, hne⟩ := List.mem_filter.1 hmem
    obtain ⟨rect, -, rfl⟩ := List.mem_map.1 hmem
    exact fromLogical_inside (by simpa using hne)

/-- Every pixel of the frame's region is in some clip. -/
theorem mem_clips {i : ℕ} (hi : i < s.width * s.height * 4)
    (hd : s.sizeChanged = true ∨ Damaged s.repaintRegion (col s.width i) (row s.width i)) :
    ∃ clip ∈ s.clips, i ∈ clip.bytes s.width := by
  obtain ⟨hcol, hrow⟩ := col_row_lt hi
  unfold clips
  split
  · exact ⟨_, List.mem_singleton_self _, mem_full hi⟩
  · rename_i hpart
    simp only [Bool.or_eq_true, not_or, Bool.not_eq_true] at hpart
    rcases hd with hd | ⟨rect, hmem, hr⟩
    · rw [hpart.1] at hd
      cases hd
    · have hbytes := (fromLogical_bytes hcol hrow).2 hr
      refine ⟨_, List.mem_filter.2 ⟨List.mem_map.2 ⟨rect, hmem, rfl⟩, ?_⟩, hbytes⟩
      obtain ⟨⟨hx0, hx1⟩, hy0, hy1⟩ := hbytes
      simp only [Clip.isEmpty, Bool.not_or, Bool.and_eq_true, Bool.not_eq_true',
        decide_eq_false_iff_not, Nat.not_le]
      omega

theorem bufferSize_eq (hsize : s.width * s.height * 4 < 2 ^ 32) :
    s.bufferSize = s.width * s.height * 4 := by
  rw [bufferSize, u32_of_lt (n := s.width * s.height) (by omega), u32_of_lt hsize]

/-- The canvas a frame is painted over has the output's size. -/
theorem paintedOver_length (hsize : s.width * s.height * 4 < 2 ^ 32) :
    (if s.sizeChanged then List.replicate s.bufferSize (0 : UInt8) else s.canvas).length =
      s.width * s.height * 4 := by
  by_cases hc : s.sizeChanged = true
  · rw [if_pos hc, List.length_replicate, bufferSize_eq hsize]
  · rw [if_neg hc, ← bufferSize_eq hsize]
    simpa [sizeChanged] using hc

/-- **Outside its clips a frame is the canvas**, which then was neither a
new one nor damaged there. -/
theorem render_outside (hsize : s.width * s.height * 4 < 2 ^ 32)
    (hwin : ∀ win ∈ s.windows, win.Addressable) {i : ℕ} (hi : i < s.width * s.height * 4)
    (hmem : ¬ ∃ clip ∈ s.clips, i ∈ clip.bytes s.width) :
    s.sizeChanged = false ∧ s.repaintRegion ≠ [] ∧
      ¬ Damaged s.repaintRegion (col s.width i) (row s.width i) ∧ s.render.1[i]? = s.canvas[i]? := by
  have hsame : s.sizeChanged = false := by
    by_contra hc
    exact hmem (mem_clips hi (Or.inl (by simpa using hc)))
  have hregion : s.repaintRegion ≠ [] := by
    intro hnil
    refine hmem ?_
    unfold clips
    rw [if_pos (by simp [hnil])]
    exact ⟨_, List.mem_singleton_self _, mem_full hi⟩
  refine ⟨hsame, hregion, fun hd => hmem (mem_clips hi (Or.inr hd)), ?_⟩
  calc s.render.1[i]?
      = (if s.sizeChanged then List.replicate s.bufferSize (0 : UInt8) else s.canvas)[i]? :=
        (compositeClips_outside hsize hwin clips_inside (paintedOver_length hsize)).2 i hmem
    _ = s.canvas[i]? := by rw [if_neg (by simp [hsame])]

/-- **The frame's clips paint no row that a full repaint skips.** -/
def Respects (s : Renderer) : Prop := ∀ clip ∈ s.clips, clip.Respects s.width s.windows

theorem respects_of_valid (hwin : ∀ win ∈ s.windows, win.Valid) : s.Respects :=
  fun _ _ => Compositor.respects_of_valid hwin

/-- A frame has the output's size, and shows the picture inside its clips. -/
theorem render_inside (hsize : s.width * s.height * 4 < 2 ^ 32)
    (hwin : ∀ win ∈ s.windows, win.Addressable) (hrespects : s.Respects) :
    s.render.1.length = s.width * s.height * 4 ∧
      ∀ i, (∃ clip ∈ s.clips, i ∈ clip.bytes s.width) →
        s.render.1[i]? = picture s.width s.windows i := by
  obtain ⟨hlen', hpaint⟩ :=
    compositeClips_paints hsize hwin clips_inside hrespects _ (paintedOver_length hsize)
  exact ⟨hlen', hpaint.inside⟩

/-- **A frame is the picture**, where the canvas already showed it outside
the frame's region: as if everything had been repainted. -/
theorem render_eq_picture (hsize : s.width * s.height * 4 < 2 ^ 32)
    (hwin : ∀ win ∈ s.windows, win.Addressable) (hrespects : s.Respects)
    (hcanvas : s.sizeChanged = false → s.repaintRegion ≠ [] → ∀ i < s.width * s.height * 4,
      ¬ Damaged s.repaintRegion (col s.width i) (row s.width i) →
        s.canvas[i]? = picture s.width s.windows i) :
    s.render.1.length = s.width * s.height * 4 ∧
      ∀ i < s.width * s.height * 4, s.render.1[i]? = picture s.width s.windows i := by
  obtain ⟨hlen, hinside⟩ := render_inside hsize hwin hrespects
  refine ⟨hlen, fun i hi => ?_⟩
  by_cases hmem : ∃ clip ∈ s.clips, i ∈ clip.bytes s.width
  · exact hinside i hmem
  · -- outside every clip the canvas was kept
    obtain ⟨hsame, hregion, hdamage, hout⟩ := render_outside hsize hwin hi hmem
    exact hout.trans (hcanvas hsame hregion i hi hdamage)

end Renderer

end Compositor

end WaylandWebStream
