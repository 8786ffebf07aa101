import WaylandWebStream.Input.Buttons
import WaylandWebStream.Lib.Binary64

/-!
# Input — the window under a position, up to the edges

A position the client sends is in the closed unit square; the handlers
scale it by the output's size, and the compositor's hit test takes the
half-open output. The far edges are where the two disagree: a coordinate
of one is scaled to the width itself, which is outside. Below one it is
not, for no rounding of the product reaches the size, and then the window
on top gets the event inside the box the hit test gives it, wherever that
window is mapped.
-/

namespace WaylandWebStream

namespace Input

open Binary64

/-! ## The hit test -/

/-- A window of the space: its surface, and where it is mapped. -/
structure MappedWindow (ι : Type*) where
  surface : ι
  location : Int32 × Int32

/-- `f64::max`. -/
def maxF64 (a b : Float) : Float := if a.isNaN || a < b then b else a

/-- `f64::clamp`. -/
def clampF64 (v lo hi : Float) : Float := if v < lo then lo else if hi < v then hi else v

/-- `render_location.max(0) as f64`, of one coordinate. -/
def origin (location : Int32) : Float := (max location 0).toUInt32.toFloat

/-- What is left of the output from an origin, and never nothing. -/
def targetSize (size : UInt32) (origin : Float) : Float := maxF64 (size.toFloat - origin) 1

/-- A coordinate from the window's origin, fit to its target. -/
def relative (size : UInt32) (origin v : Float) : Float :=
  clampF64 (v - origin) 0 (targetSize size origin)

/-- `surface_at`: the window on top, for any point of the output. -/
def surfaceAt {ι : Type*} (d : Dimensions) (elements : List (MappedWindow ι))
    (location : Position) : Option (ι × Position) :=
  if location.x < 0 ∨ location.y < 0 ∨ location.x ≥ d.width.toFloat ∨
      location.y ≥ d.height.toFloat then none
  else elements.getLast?.map fun window =>
    (window.surface,
      ⟨relative d.width (origin window.location.1) location.x,
        relative d.height (origin window.location.2) location.y⟩)

/-! ## What is sent -/

/-- A position the client can send. -/
def OnCanvas (x y : Float) : Prop := (0 ≤ x ∧ x ≤ 1) ∧ 0 ≤ y ∧ y ≤ 1

instance (x y : Float) : Decidable (OnCanvas x y) :=
  inferInstanceAs (Decidable ((0 ≤ x ∧ x ≤ 1) ∧ 0 ≤ y ∧ y ≤ 1))

namespace WebClient

theorem clampUnit_mem {v : Float} (hv : v.isNaN = false) : 0 ≤ clampUnit v ∧ clampUnit v ≤ 1 := by
  rw [clampUnit]
  split
  · decide
  · next hpos =>
    split
    · decide
    · next hle =>
      rcases isFinite_or_infinity hv with hfinite | ⟨s, hs⟩
      · rw [le_iff hfinite isFinite_zero] at hpos
        rw [lt_iff isFinite_one hfinite] at hle
        rw [le_iff isFinite_zero hfinite, le_iff hfinite isFinite_one]
        exact ⟨(not_le.1 hpos).le, not_lt.1 hle⟩
      · cases s with
        | negative =>
          refine absurd (le_def.2 ?_) hpos
          rw [hs]
          rfl
        | positive =>
          refine absurd (lt_def.2 ?_) hle
          rw [hs]
          rfl

/-- A pointer's position is clamped; what is no number is no JSON. -/
theorem normalizedPointer_onCanvas {v : PointerView} {e : DomPointerEvent}
    (hx : ((e.clientX - v.box.left) / v.box.width).isNaN = false)
    (hy : ((e.clientY - v.box.top) / v.box.height).isNaN = false) :
    OnCanvas (normalizedPointer v e).x (normalizedPointer v e).y :=
  ⟨clampUnit_mem hx, clampUnit_mem hy⟩

/-- A contact's is clamped too, or was in range already. -/
theorem normalizeTouches_onCanvas {box : CanvasBox} {clampOutOfBounds : Bool} {l : List Touch}
    {t : TouchPoint} (ht : t ∈ normalizeTouches box clampOutOfBounds l)
    (hl : ∀ t ∈ l, (normalized box t).1.isNaN = false ∧ (normalized box t).2.isNaN = false) :
    OnCanvas t.x t.y := by
  rw [normalizeTouches] at ht
  split at ht
  · obtain ⟨t', ht', rfl⟩ := List.mem_map.1 ht
    exact ⟨clampUnit_mem (hl t' ht').1, clampUnit_mem (hl t' ht').2⟩
  · obtain ⟨t', ht', rfl⟩ := List.mem_map.1 ht
    have hon := (List.mem_filter.1 ht').2
    simp only [onCanvas, Bool.and_eq_true, decide_eq_true_iff] at hon
    exact hon

end WebClient

/-! ## Scaling -/

section Axis

variable {x p : Float} {n m : UInt32}

theorem isFinite_of_mem (hx : 0 ≤ x ∧ x ≤ 1) : x.isFinite = true :=
  isFinite_of_le_of_le isFinite_zero isFinite_one hx.1 hx.2

theorem toRat_mem (hx : 0 ≤ x ∧ x ≤ 1) : 0 ≤ toRat x ∧ toRat x ≤ 1 := by
  have hfinite := isFinite_of_mem hx
  rw [le_iff isFinite_zero hfinite, le_iff hfinite isFinite_one, toRat_zero, toRat_one] at hx
  exact hx

/-- What is in range already is left as it is. -/
theorem normalizeUnit_of_mem (hx : 0 ≤ x ∧ x ≤ 1) : normalizeUnit x = x := by
  have hfinite := isFinite_of_mem hx
  have hmem := toRat_mem hx
  have hlow : ¬x < 0 := by
    rw [lt_iff hfinite isFinite_zero, toRat_zero]
    exact not_lt.2 hmem.1
  have hhigh : ¬1 < x := by
    rw [lt_iff isFinite_one hfinite, toRat_one]
    exact not_lt.2 hmem.2
  rw [normalizeUnit, if_pos hfinite, if_neg hlow, if_neg hhigh]

/-- **A coordinate, scaled**: below the size exactly where it was below
one, and there is a size. -/
theorem scaled_lt_iff (hx : 0 ≤ x ∧ x ≤ 1) :
    (x * n.toFloat).isFinite = true ∧ 0 ≤ toRat (x * n.toFloat) ∧
      (x * n.toFloat < n.toFloat ↔ x < 1 ∧ 0 < n) := by
  have hfinite := isFinite_of_mem hx
  have hmem := toRat_mem hx
  obtain ⟨hn, hn'⟩ := toRat_toFloat n
  have hmost : toRat n.toFloat < 2 ^ (53 : ℤ) := toRat_toFloat_lt n
  have hn0 : (0 : ℚ) ≤ n.toNat := Nat.cast_nonneg _
  have hprod : toRat x * toRat n.toFloat ≤ toRat n.toFloat := by
    rw [hn']
    exact mul_le_of_le_one_left hn0 hmem.2
  have hprod0 : 0 ≤ toRat x * toRat n.toFloat := by
    rw [hn']
    exact mul_nonneg hmem.1 hn0
  have hrange : |toRat x * toRat n.toFloat| < 2 ^ (53 : ℤ) := by
    rw [abs_of_nonneg hprod0]
    exact lt_of_le_of_lt hprod hmost
  obtain ⟨hp, hnearest⟩ := mul_nearest hfinite hn (lt_of_lt_of_le hrange (two_zpow_le (by decide)))
  refine ⟨hp, hnearest.nonneg hprod0, ?_⟩
  rw [lt_iff hp hn, lt_iff hfinite isFinite_one, toRat_one]
  constructor
  · intro h
    have hpos : 0 < n := by
      rw [UInt32.lt_iff_toNat_lt]
      have : (0 : ℚ) < n.toNat := by
        rw [← hn']
        exact lt_of_le_of_lt (hnearest.nonneg hprod0) h
      exact_mod_cast this
    refine ⟨lt_of_le_of_ne hmem.2 fun hone => ?_, hpos⟩
    -- A coordinate of one is the size itself, exactly.
    have hexact := hnearest.exact 0 n.toNat (by decide) hrange (by
      rw [hone, one_mul, hn', zpow_zero, mul_one]
      rfl)
    rw [hexact, hone, one_mul] at h
    exact lt_irrefl _ h
  · rintro ⟨hlt, hpos⟩
    have hn1 : 1 ≤ toRat n.toFloat := by
      rw [hn']
      exact_mod_cast UInt32.lt_iff_toNat_lt.1 hpos
    exact mul_lt_of_lt_one hfinite hn hmem.1 hlt hn1 (lt_of_lt_of_le hmost (two_zpow_le (by decide)))

theorem targetSize_spec :
    (targetSize n m.toFloat).isFinite = true ∧ 1 ≤ toRat (targetSize n m.toFloat) ∧
      (n.toNat : ℚ) - m.toNat ≤ toRat (targetSize n m.toFloat) := by
  obtain ⟨hfinite, hvalue⟩ := toRat_sub_toFloat n m
  rw [targetSize, maxF64, isNaN_of_isFinite hfinite, Bool.false_or]
  split
  · next hlt =>
    rw [decide_eq_true_iff, lt_iff hfinite isFinite_one, toRat_one, hvalue] at hlt
    rw [toRat_one]
    exact ⟨isFinite_one, le_refl 1, hlt.le⟩
  · next hle =>
    rw [decide_eq_true_iff, lt_iff hfinite isFinite_one, toRat_one, hvalue] at hle
    rw [hvalue]
    exact ⟨hfinite, not_lt.1 hle, le_refl _⟩

/-- **Inside the target**: a point of the output, from any origin. -/
theorem relative_mem (hp : p.isFinite = true) (hp0 : 0 ≤ toRat p) (hpn : p < n.toFloat) :
    0 ≤ relative n m.toFloat p ∧ relative n m.toFloat p < targetSize n m.toFloat := by
  obtain ⟨hn, hn'⟩ := toRat_toFloat n
  obtain ⟨hm, hm'⟩ := toRat_toFloat m
  obtain ⟨htarget, hone, hsize⟩ := targetSize_spec (n := n) (m := m)
  rw [lt_iff hp hn] at hpn
  have hm0 : 0 ≤ toRat m.toFloat := by
    rw [hm']
    exact Nat.cast_nonneg _
  have hpmost : toRat p < 2 ^ (53 : ℤ) := lt_trans hpn (toRat_toFloat_lt n)
  have hrange : |toRat p - toRat m.toFloat| < 2 ^ (53 : ℤ) := by
    have hmmost := toRat_toFloat_lt m
    rw [abs_lt]
    constructor <;> linarith
  obtain ⟨hr, hnearest⟩ := sub_nearest hp hm (lt_of_lt_of_le hrange (two_zpow_le (by decide)))
  have hupper : toRat (p - m.toFloat) < toRat (targetSize n m.toFloat) := by
    rcases le_total (toRat p) (toRat m.toFloat) with hle | hle
    · -- Left of the window.
      have := hnearest.nonpos (sub_nonpos.2 hle)
      linarith
    · have hpn' : toRat p < (n.toNat : ℤ) := by
        rw [hn'] at hpn
        exact_mod_cast hpn
      have hlt := sub_lt_of_lt hp hm hm0 hle hpn' hpmost
      rw [hm', Int.cast_natCast] at hlt
      linarith
  rw [relative, clampF64]
  split
  · rw [le_iff isFinite_zero isFinite_zero, lt_iff isFinite_zero htarget, toRat_zero]
    exact ⟨le_refl 0, by linarith⟩
  · next hlow =>
    rw [lt_iff hr isFinite_zero, toRat_zero] at hlow
    have hhigh : ¬targetSize n m.toFloat < p - m.toFloat := by
      rw [lt_iff htarget hr]
      exact not_lt.2 hupper.le
    rw [if_neg hhigh, le_iff isFinite_zero hr, lt_iff hr htarget, toRat_zero]
    exact ⟨not_lt.1 hlow, hupper⟩

end Axis

/-! ## Focus -/

section Focus

variable {ι : Type*}

/-- A surface-local point inside the part of the output that the hit test
gives a window. -/
def MappedWindow.Inside (window : MappedWindow ι) (d : Dimensions) (p : Position) : Prop :=
  (0 ≤ p.x ∧ p.x < targetSize d.width (origin window.location.1)) ∧
    0 ≤ p.y ∧ p.y < targetSize d.height (origin window.location.2)

/-- **An event keeps its focus**: the window on top gets it, inside its
part of the output. Both handlers scale a position alike. -/
def KeepsFocus (d : Dimensions) (below : List (MappedWindow ι)) (top : MappedWindow ι)
    (x y : Float) : Prop :=
  ∃ p, surfaceAt d (below ++ [top]) (d.toCompositorCoords x y) = some (top.surface, p) ∧
    top.Inside d p

variable {d : Dimensions} {below : List (MappedWindow ι)} {top : MappedWindow ι} {x y : Float}

/-- The hit test of a position on the canvas. -/
theorem surfaceAt_toCompositorCoords (h : OnCanvas x y) :
    surfaceAt d (below ++ [top]) (d.toCompositorCoords x y) =
      if x * d.width.toFloat < d.width.toFloat ∧ y * d.height.toFloat < d.height.toFloat then
        some (top.surface,
          ⟨relative d.width (origin top.location.1) (x * d.width.toFloat),
            relative d.height (origin top.location.2) (y * d.height.toFloat)⟩)
      else none := by
  have hcut : ∀ {v : Float} {n : UInt32}, 0 ≤ v ∧ v ≤ 1 →
      ¬v * n.toFloat < 0 ∧ (v * n.toFloat ≥ n.toFloat ↔ ¬v * n.toFloat < n.toFloat) := by
    intro v n hv
    obtain ⟨hfinite, hnonneg, -⟩ := scaled_lt_iff (n := n) hv
    have hn := (toRat_toFloat n).1
    rw [lt_iff hfinite isFinite_zero, toRat_zero, ge_iff_le, le_iff hn hfinite,
      lt_iff hfinite hn]
    exact ⟨not_lt.2 hnonneg, not_lt.symm⟩
  obtain ⟨hx0, hx⟩ := hcut (n := d.width) h.1
  obtain ⟨hy0, hy⟩ := hcut (n := d.height) h.2
  rw [surfaceAt, Dimensions.toCompositorCoords, normalizeUnit_of_mem h.1, normalizeUnit_of_mem h.2,
    List.getLast?_append_of_ne_nil _ (List.cons_ne_nil _ _)]
  by_cases hin : x * d.width.toFloat < d.width.toFloat ∧ y * d.height.toFloat < d.height.toFloat
  · rw [if_pos hin, if_neg]
    · rfl
    · rintro (hlt | hlt | hge | hge)
      · exact hx0 hlt
      · exact hy0 hlt
      · exact hx.1 hge hin.1
      · exact hy.1 hge hin.2
  · rw [if_neg hin, if_pos]
    rcases not_and_or.1 hin with hout | hout
    · exact .inr (.inr (.inl (hx.2 hout)))
    · exact .inr (.inr (.inr (hy.2 hout)))

/-- **No position keeps its focus but those short of the far edges**: a
position the client can send reaches the window on top exactly where both
coordinates are below one. -/
theorem keepsFocus_iff (h : OnCanvas x y) :
    KeepsFocus d below top x y ↔ (x < 1 ∧ y < 1) ∧ 0 < d.width ∧ 0 < d.height := by
  obtain ⟨hpx, hpx0, hx⟩ := scaled_lt_iff (n := d.width) h.1
  obtain ⟨hpy, hpy0, hy⟩ := scaled_lt_iff (n := d.height) h.2
  rw [KeepsFocus, surfaceAt_toCompositorCoords h]
  split
  · next hin =>
    constructor
    · intro _
      obtain ⟨hx1, hw⟩ := hx.1 hin.1
      obtain ⟨hy1, hh⟩ := hy.1 hin.2
      exact ⟨⟨hx1, hy1⟩, hw, hh⟩
    · intro _
      exact ⟨_, rfl, relative_mem hpx hpx0 hin.1, relative_mem hpy hpy0 hin.2⟩
  · next hout =>
    constructor
    · rintro ⟨p, hp, -⟩
      cases hp
    · rintro ⟨⟨hx1, hy1⟩, hw, hh⟩
      exact absurd ⟨hx.2 ⟨hx1, hw⟩, hy.2 ⟨hy1, hh⟩⟩ hout

theorem keepsFocus_middle :
    KeepsFocus ⟨1280, 720⟩ [] (MappedWindow.mk 0 (0, 0)) 0.5 0.25 ∧
      ¬KeepsFocus ⟨1280, 720⟩ [] (MappedWindow.mk 0 (0, 0)) 0.5 1 :=
  ⟨(keepsFocus_iff (by decide)).2 (by decide),
    fun h => absurd ((keepsFocus_iff (by decide)).1 h).1.2 (by decide)⟩

/-- A pointer at the canvas's right edge, where the client sends a
coordinate of one. -/
theorem rightEdge_loses_focus :
    ¬KeepsFocus ⟨1280, 720⟩ [] (MappedWindow.mk 0 (0, 0))
      (WebClient.normalizedPointer ⟨⟨0, 0, 1280, 720, none⟩, none⟩
        ⟨1280, 360, 0, 0, 0, "mouse", 0.5⟩).x
      (WebClient.normalizedPointer ⟨⟨0, 0, 1280, 720, none⟩, none⟩
        ⟨1280, 360, 0, 0, 0, "mouse", 0.5⟩).y := by
  rintro ⟨p, hp, -⟩
  have hnone : surfaceAt ⟨1280, 720⟩ [MappedWindow.mk 0 (0, 0)]
      (Dimensions.toCompositorCoords ⟨1280, 720⟩
        (WebClient.normalizedPointer ⟨⟨0, 0, 1280, 720, none⟩, none⟩
          ⟨1280, 360, 0, 0, 0, "mouse", 0.5⟩).x
        (WebClient.normalizedPointer ⟨⟨0, 0, 1280, 720, none⟩, none⟩
          ⟨1280, 360, 0, 0, 0, "mouse", 0.5⟩).y) = none := by
    decide +kernel
  rw [List.nil_append, hnone] at hp
  cases hp

end Focus

end Input

end WaylandWebStream
