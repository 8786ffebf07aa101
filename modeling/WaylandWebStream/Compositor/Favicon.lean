import WaylandWebStream.Compositor.Readers
import WaylandWebStream.Lib.Largest

/-!
# The favicon — which of an icon's buffers is shown

An icon comes as any number of buffers. The first that can be read is
taken as it is; a later one takes its place where it has at most 256
pixels a side and more of them. So the size cap binds every buffer but
the first.
-/

namespace WaylandWebStream

namespace Compositor

namespace Image

/-- `cand.0 <= 256 && cand.1 <= 256`. -/
def Fits (img : Image) : Prop := img.width ≤ 256 ∧ img.height ≤ 256

instance : DecidablePred Fits := fun _ => inferInstanceAs (Decidable (_ ∧ _))

/-- `w * h`, in `u32`. -/
def area (img : Image) : ℕ := u32 (img.width * img.height)

end Image

/-- The best candidate so far, after one more. -/
def replaceBest : Option Image → Image → Option Image
  | none, cand => some cand
  | some best, cand => if cand.Fits ∧ cand.area > best.area then some cand else some best

section Favicon

variable (glReadback : Dmabuf → Option Image)

/-- One buffer of the icon. -/
def considerBuffer (best : Option Image) (buf : WlBuffer) : Except Panic (Option Image) := do
  match ← readWlBufferRgba glReadback buf with
  | none => pure best
  | some cand => pure (replaceBest best cand)

/-- The favicon an icon's buffers give. -/
def favicon (buffers : List WlBuffer) : Except Panic (Option Image) :=
  buffers.foldlM (considerBuffer glReadback) none

/-- What a buffer is read as, if it is. -/
def readable (buf : WlBuffer) : Option Image :=
  match readWlBufferRgba glReadback buf with
  | .ok img => img
  | .error _ => none

/-- The images the buffers are read as, in order. -/
def images (buffers : List WlBuffer) : List Image := buffers.filterMap (readable glReadback)

/-- No buffer's reading panics. -/
def Reads (buffers : List WlBuffer) : Prop :=
  ∀ buf ∈ buffers, ∃ img, readWlBufferRgba glReadback buf = .ok img

/-- **The best choice**: an image of at most 256 pixels a side, and no
smaller than any other. -/
structure BestOf (imgs : List Image) (icon : Image) : Prop where
  mem : icon ∈ imgs
  fits : icon.Fits
  largest : ∀ img ∈ imgs, img.Fits → img.width * img.height ≤ icon.width * icon.height

/-- **The first image does not stand in the way**: it fits, or one that
fits is larger. -/
def FirstYields (imgs : List Image) : Prop :=
  ∀ first, imgs.head? = some first →
    first.Fits ∨ ∃ img ∈ imgs, img.Fits ∧ first.area < img.area

end Favicon

/-! ## The fold -/

section Choice

variable {glReadback : Dmabuf → Option Image} {buffers : List WlBuffer} {first icon : Image}
  {imgs : List Image}

/-- An image that fits has the area it has. -/
theorem Image.Fits.area_eq {img : Image} (h : img.Fits) : img.area = img.width * img.height := by
  have hle : img.width * img.height ≤ 256 * 256 := Nat.mul_le_mul h.1 h.2
  exact u32_of_lt (by omega)

theorem replaceBest_some (best cand : Image) :
    replaceBest (some best) cand = some (Largest.larger Image.Fits Image.area best cand) := by
  rw [replaceBest, Largest.larger, apply_ite some]

/-- What is chosen among images, from the first on. -/
theorem foldl_replaceBest (best : Image) :
    imgs.foldl replaceBest (some best) =
      some (imgs.foldl (Largest.larger Image.Fits Image.area) best) := by
  induction imgs generalizing best with
  | nil => rfl
  | cons cand imgs ih => rw [List.foldl_cons, replaceBest_some, ih, List.foldl_cons]

/-- **Buffers that are all read** are chosen among as images. -/
theorem favicon_eq_ok (h : Reads glReadback buffers) :
    favicon glReadback buffers = .ok ((images glReadback buffers).foldl replaceBest none) := by
  rw [images, List.foldl_filterMap]
  refine Panics.foldlM_eq_ok (I := fun _ => True) (fun best _ buf hbuf => ⟨?_, trivial⟩) trivial
  obtain ⟨img, himg⟩ := h buf hbuf
  simp only [considerBuffer, readable, himg]
  cases img <;> rfl

/-- A buffer whose reading panics leaves no choice. -/
theorem favicon_panics (h : ¬ Reads glReadback buffers) :
    ∃ e, favicon glReadback buffers = .error e := by
  obtain ⟨buf, hbuf, hpanic⟩ : ∃ buf ∈ buffers,
      ∀ img, readWlBufferRgba glReadback buf ≠ .ok img := by
    simpa only [Reads, not_forall, exists_prop, not_exists] using h
  refine Panics.foldlM_panics hbuf (fun best => ?_) none
  cases hread : readWlBufferRgba glReadback buf with
  | ok img => exact absurd hread (hpanic img)
  | error e =>
    refine ⟨e, ?_⟩
    rw [considerBuffer, hread]
    rfl

/-- **The choice among images is the best** exactly when the first yields. -/
theorem bestOf_foldl_iff (hfits : ∃ img ∈ first :: imgs, img.Fits) :
    BestOf (first :: imgs) (imgs.foldl (Largest.larger Image.Fits Image.area) first) ↔
      FirstYields (first :: imgs) := by
  have hkept : imgs.foldl (Largest.larger Image.Fits Image.area) first = first ∨
      (imgs.foldl (Largest.larger Image.Fits Image.area) first ∈ imgs ∧
        (imgs.foldl (Largest.larger Image.Fits Image.area) first).Fits ∧
        first.area < (imgs.foldl (Largest.larger Image.Fits Image.area) first).area) :=
    Largest.foldl_eq_or_mem
  have hmax : ∀ img ∈ imgs, img.Fits →
      img.area ≤ (imgs.foldl (Largest.larger Image.Fits Image.area) first).area :=
    fun img himg h => Largest.mem_le_foldl himg h
  -- the fold keeps the first, fitting or not, until a larger one that fits comes
  generalize imgs.foldl (Largest.larger Image.Fits Image.area) first = icon at hkept hmax ⊢
  constructor
  · intro hbest first' hhead
    obtain rfl : first = first' := Option.some.inj hhead
    by_cases hfirst : first.Fits
    · exact .inl hfirst
    · rcases hkept with rfl | ⟨hmem, hicon, hlt⟩
      · exact .inl hbest.fits
      · exact .inr ⟨icon, List.mem_cons_of_mem _ hmem, hicon, hlt⟩
  · intro hyields
    have hicon : icon.Fits := by
      rcases hkept with rfl | ⟨-, hicon, -⟩
      · rcases hyields icon rfl with h | ⟨img, himg, hfit, hlt⟩
        · exact h
        · rcases List.mem_cons.1 himg with rfl | himg
          · exact hfit
          · exact absurd (hmax img himg hfit) (Nat.not_le.2 hlt)
      · exact hicon
    have hmem : icon ∈ first :: imgs := by
      rcases hkept with rfl | ⟨hmem, -, -⟩
      · exact List.mem_cons_self
      · exact List.mem_cons_of_mem _ hmem
    refine ⟨hmem, hicon, fun img himg hfit => ?_⟩
    rw [← hfit.area_eq, ← hicon.area_eq]
    rcases List.mem_cons.1 himg with rfl | himg
    · rcases hkept with rfl | ⟨-, -, hlt⟩
      · exact Nat.le_refl _
      · exact Nat.le_of_lt hlt
    · exact hmax img himg hfit

/-- **When the favicon is the largest that fits.** Where some buffer is
read as an image of at most 256 pixels a side, the favicon is a largest
of those exactly when no reading panics and the first image yields. -/
theorem favicon_best_iff (hfits : ∃ img ∈ images glReadback buffers, img.Fits) :
    (∃ icon, favicon glReadback buffers = .ok (some icon) ∧
      BestOf (images glReadback buffers) icon) ↔
        Reads glReadback buffers ∧ FirstYields (images glReadback buffers) := by
  by_cases hreads : Reads glReadback buffers
  · rw [favicon_eq_ok hreads]
    cases himgs : images glReadback buffers with
    | nil =>
      rw [himgs] at hfits
      obtain ⟨img, himg, -⟩ := hfits
      exact absurd himg List.not_mem_nil
    | cons first imgs =>
      rw [himgs] at hfits
      have hfold : (first :: imgs).foldl replaceBest none =
          some (imgs.foldl (Largest.larger Image.Fits Image.area) first) := by
        rw [List.foldl_cons]
        exact foldl_replaceBest first
      rw [hfold, ← bestOf_foldl_iff hfits]
      constructor
      · rintro ⟨icon, heq, hbest⟩
        cases heq
        exact ⟨hreads, hbest⟩
      · rintro ⟨-, hbest⟩
        exact ⟨_, rfl, hbest⟩
  · obtain ⟨e, he⟩ := favicon_panics hreads
    rw [he]
    constructor
    · rintro ⟨icon, heq, -⟩
      cases heq
    · exact fun h => absurd h.1 hreads

/-- A tiled dmabuf, square. -/
def tiled (size : ℕ) : WlBuffer := .dmabuf ⟨size, size, .argb8888, true, none, none⟩

/-- A readback of blank pixels, as large as the dmabuf. -/
def blankReadback (d : Dmabuf) : Option Image :=
  some ⟨d.width, d.height, List.replicate (d.width * d.height * 4) 0⟩

/-- The image a tiled dmabuf is read back as. -/
def blank (size : ℕ) : Image := ⟨size, size, List.replicate (size * size * 4) 0⟩

/-- **An icon in two sizes, the large one first**: the large one stays. -/
theorem favicon_large_first :
    (∃ img ∈ images blankReadback [tiled 512, tiled 64], img.Fits) ∧
      favicon blankReadback [tiled 512, tiled 64] = .ok (some (blank 512)) ∧
        ¬ BestOf (images blankReadback [tiled 512, tiled 64]) (blank 512) :=
  ⟨⟨blank 64, .tail _ (.head _), by decide⟩, rfl, fun h => absurd h.fits (by decide)⟩

/-- The small one first, it is the one kept. -/
theorem favicon_small_first :
    ∃ icon, favicon blankReadback [tiled 64, tiled 512] = .ok (some icon) ∧
      BestOf (images blankReadback [tiled 64, tiled 512]) icon := by
  refine (favicon_best_iff ⟨blank 64, .head _, by decide⟩).2 ⟨fun buf hbuf => ?_, ?_⟩
  · rcases List.mem_cons.1 hbuf with rfl | hbuf
    · exact ⟨some (blank 64), rfl⟩
    · obtain rfl := List.mem_singleton.1 hbuf
      exact ⟨some (blank 512), rfl⟩
  · intro first hfirst
    obtain rfl : blank 64 = first := Option.some.inj hfirst
    exact .inl (by decide)

end Choice

end Compositor

end WaylandWebStream
