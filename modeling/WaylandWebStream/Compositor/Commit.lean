import WaylandWebStream.Compositor.Damage
import WaylandWebStream.Lib.Machine
import Mathlib.Logic.Function.Basic

/-!
# Commit damage

The compositor as a machine: windows come and go, the output is resized,
surfaces commit buffers, frames are rendered. Every operation accumulates
the damage it believes it did, and a frame repaints no more than that. A
commit's damage is computed from the new buffer alone, so it is complete
where the window paints nothing outside the new buffer's bounds, neither
before the commit nor after it, and skips no row inside them.
-/

namespace WaylandWebStream

namespace Compositor

namespace Buffer

/-- `buffer_size()`. -/
def size : Buffer → ℕ × ℕ
  | shm b => (b.width, b.height)
  | singlePixel _ => (1, 1)
  | other width height => (width, height)

/-- What `wl_shm` lets a client create: a stride of at least `width`
bytes, not pixels, and fewer than `2 ^ 31` bytes in all, inside the pool. -/
def Admitted : Buffer → Prop
  | shm b => b.width ≤ b.stride ∧ b.stride * b.height < 2 ^ 31 ∧
      b.offset + b.stride * b.height ≤ b.pool.length
  | _ => True

instance : DecidablePred Admitted := fun b => by
  cases b <;> (unfold Admitted; infer_instance)

/-- Its rows, of four bytes a pixel, are no wider than its stride. -/
def RowsFit : Buffer → Prop
  | shm b => 4 * b.width ≤ b.stride
  | _ => True

instance : DecidablePred RowsFit := fun b => by
  cases b <;> (unfold RowsFit; infer_instance)

/-- A full repaint of an output of width `w` skips the buffer's row `y`,
which has pixel `x`: what would be copied runs out of the buffer. -/
def SkipsRow (w x y : ℕ) : Buffer → Prop
  | shm b => (x < b.width ∧ y < b.height) ∧
      b.stride * b.height < y * b.stride + min b.width w * 4
  | _ => False

/-- **Only rows wider than the stride are skipped.** -/
theorem SkipsRow.not_rowsFit {w x y : ℕ} {b : Buffer} (h : b.SkipsRow w x y) : ¬ b.RowsFit := by
  cases b with
  | shm b =>
    obtain ⟨⟨-, hy⟩, hskip⟩ := h
    have hrow := srcRow_le b.stride hy
    show ¬ 4 * b.width ≤ b.stride
    omega
  | singlePixel rgba => exact h.elim
  | other width height => exact h.elim

/-- One pixel's bytes, inside the bounds. A buffer that is not painted
has pixels nobody reads. -/
def pixel (b : Buffer) (x y : ℕ) : Option Bytes :=
  if x < b.size.1 ∧ y < b.size.2 then
    match b with
    | shm b => some (((Window.pixelData b).drop (y * b.stride + x * 4)).take 4)
    | singlePixel rgba => some rgba.bgra
    | other _ _ => some []
  else none

end Buffer

/-- An element of the space: a window by its surface, and its location. -/
structure Element (ι : Type*) where
  surface : ι
  location : ℤ × ℤ

/-- What the operations read and write. -/
structure State (ι : Type*) where
  width : ℕ
  height : ℕ
  /-- The buffer each surface has. -/
  buffers : ι → Option Buffer
  /-- The mapped windows, bottom to top. -/
  space : List (Element ι)
  damage : List Rect
  canvas : Bytes

/-- The operations. -/
inductive Op (ι : Type*)
  | newToplevel (surface : ι)
  | toplevelDestroyed (surface : ι)
  | resizeOutput (width height : ℕ)
  /-- A commit that leaves the surface with `buffer`, and the buffer
  rectangles `damage_since` reports for it. -/
  | commit (surface : ι) (buffer : Option Buffer) (reported : List Rect)
  /-- `take_dirty` and `render`. -/
  | frame

/-- The operations clients cause. -/
def Op.isClient {ι : Type*} : Op ι → Bool
  | newToplevel _ | toplevelDestroyed _ | commit _ _ _ => true
  | resizeOutput _ _ | frame => false

/-- `surface_damage`, at scale 1 and untransformed. -/
def surfaceDamage (buffer : Option Buffer) (reported : List Rect) (location : ℤ × ℤ) :
    Option Rect :=
  match buffer, reported with
  | none, _ => none
  | some _, [] => none
  | some _, r :: rs =>
    let union := rs.foldl Rect.merge r
    some { union with x := union.x + location.1, y := union.y + location.2 }

variable {ι : Type*}

namespace State

variable (s : State ι)

/-- A window of the space as the renderer paints it. -/
def window (e : Element ι) : Window := ⟨e.location.1, e.location.2, s.buffers e.surface⟩

/-- The windows, bottom to top. -/
def windows : List Window := s.space.map s.window

def addDamage (rect : Rect) : State ι :=
  { s with damage := accumulateDamage s.damage rect (fullOutputDamage s.width s.height) }

def addFullDamage : State ι := s.addDamage (fullOutputDamage s.width s.height)

/-- The surface's buffer, from now on. -/
def setBuffer [DecidableEq ι] (surface : ι) (buffer : Option Buffer) : State ι :=
  { s with buffers := Function.update s.buffers surface buffer }

/-- The renderer's part of the state once `take_dirty` has stashed the damage. -/
def renderer : Renderer where
  width := s.width
  height := s.height
  canvas := s.canvas
  repaintRegion := s.damage
  lastRepaintRects := []
  windows := s.windows

/-- One operation. The guards are the environment's: the output size is
bounded by `--max-resolution`, buffers are what `wl_shm` admits. -/
def step [DecidableEq ι] : Op ι → Option (State ι)
  | .newToplevel surface =>
    some { s with space := s.space ++ [Element.mk surface (0, 0)] }.addFullDamage
  | .toplevelDestroyed surface =>
    match s.space.find? fun e => e.surface = surface with
    | some _ =>
      some { s with space := s.space.eraseP fun e => e.surface = surface }.addFullDamage
    | none => some s
  | .resizeOutput width height =>
    if width * height * 4 < 2 ^ 32 then some { s with width, height }.addFullDamage else none
  | .commit surface buffer reported =>
    if ∀ b ∈ buffer, b.Admitted then
      let s' := s.setBuffer surface buffer
      match s.space.find? fun e => e.surface = surface with
      | some e =>
        match surfaceDamage buffer reported e.location with
        | some rect => some (s'.addDamage rect)
        | none => some s'
      | none => some s'.addFullDamage
    else none
  | .frame => some { s with canvas := s.renderer.render.1, damage := [] }

/-- The full-repaint value of a byte. -/
noncomputable def picture : ℕ → Option UInt8 := Compositor.picture s.width s.windows

/-- The full-repaint value of a pixel of the output. -/
noncomputable def pixel (x y : ℕ) : Option (List (Option UInt8)) :=
  if x < s.width ∧ y < s.height then
    some ((List.range 4).map fun k => s.picture ((y * s.width + x) * 4 + k))
  else none

/-- The canvas shows the picture wherever there is no damage. -/
def Tracks : Prop :=
  s.canvas.length = s.width * s.height * 4 → ∀ i < s.width * s.height * 4,
    ¬ Damaged s.damage (col s.width i) (row s.width i) → s.canvas[i]? = s.picture i

end State

/-- The compositor, from any size it may be started with. -/
def machine (ι : Type*) [DecidableEq ι] : Machine (State ι) (Op ι) where
  init s := s.width * s.height * 4 < 2 ^ 32 ∧ s.buffers = (fun _ => none) ∧ s.space = [] ∧
    s.damage = [fullOutputDamage s.width s.height] ∧ s.canvas = []
  step s op := s.step op

/-- **What `damage_since` promises**: it covers every pixel inside the new
buffer's bounds that differs from the previous buffer. -/
def Op.Honest (s : State ι) : Op ι → Prop
  | .commit surface (some b) reported => ∀ x y, x < b.size.1 → y < b.size.2 →
      (s.buffers surface).bind (fun old => old.pixel x y) ≠ b.pixel x y → Damaged reported x y
  | _ => True

/-- A commit that leaves the surface with `buffer` touches a pixel of the
output: the surface is mapped, and its window painted the pixel or paints
it now. -/
def State.Touches (s : State ι) (x y : ℕ) (surface : ι) (buffer : Option Buffer) : Prop :=
  (x < s.width ∧ y < s.height) ∧ (∃ e ∈ s.space, e.surface = surface) ∧
    ((y * s.width + x) * 4 ∈ Window.extent s.width ⟨0, 0, s.buffers surface⟩ ∨
      (y * s.width + x) * 4 ∈ Window.extent s.width ⟨0, 0, buffer⟩)

/-- **A commit that spills at a pixel**: it touches the pixel, outside the
bounds of the buffer the surface has now. -/
def Op.Spills (s : State ι) (x y : ℕ) : Op ι → Prop
  | .commit surface buffer _ => s.Touches x y surface buffer ∧
      ∀ b ∈ buffer, ¬ (x < b.size.1 ∧ y < b.size.2)
  | _ => False

/-- **A commit that skips a row at a pixel**: it touches the pixel, and
the buffer the surface had or the one it has now has the pixel in a row
that a full repaint skips. -/
def Op.Skips (s : State ι) (x y : ℕ) : Op ι → Prop
  | .commit surface buffer _ => s.Touches x y surface buffer ∧
      ((∃ old ∈ s.buffers surface, old.SkipsRow s.width x y) ∨
        ∃ b ∈ buffer, b.SkipsRow s.width x y)
  | _ => False

/-- A commit's buffer has rows no wider than its stride. -/
def Op.RowsFit : Op ι → Prop
  | .commit _ buffer _ => ∀ b ∈ buffer, b.RowsFit
  | _ => True

/-- **An operation's damage is complete**: a byte whose full-repaint value
it changes is damaged after it. -/
def Op.Complete [DecidableEq ι] (s : State ι) (op : Op ι) : Prop :=
  ∀ s', s.step op = some s' → ∀ i < s'.width * s'.height * 4, s'.picture i ≠ s.picture i →
    Damaged s'.damage (col s'.width i) (row s'.width i)

/-! ## Invariants -/

/-- Every window is mapped at the origin, every buffer is one `wl_shm`
admits, and the output is not too large. -/
structure Sane (s : State ι) : Prop where
  size : s.width * s.height * 4 < 2 ^ 32
  location : ∀ e ∈ s.space, e.location = (0, 0)
  buffers : ∀ surface, ∀ b ∈ s.buffers surface, b.Admitted

variable {s s' : State ι} {op : Op ι}

namespace State

theorem setBuffer_self [DecidableEq ι] (surface : ι) (buffer : Option Buffer) :
    (s.setBuffer surface buffer).buffers surface = buffer := Function.update_self ..

theorem setBuffer_of_ne [DecidableEq ι] {surface k : ι} (buffer : Option Buffer)
    (h : k ≠ surface) : (s.setBuffer surface buffer).buffers k = s.buffers k :=
  Function.update_of_ne h ..

@[simp] theorem addDamage_width (rect : Rect) : (s.addDamage rect).width = s.width := rfl

@[simp] theorem addDamage_height (rect : Rect) : (s.addDamage rect).height = s.height := rfl

@[simp] theorem addDamage_buffers (rect : Rect) : (s.addDamage rect).buffers = s.buffers := rfl

@[simp] theorem addDamage_space (rect : Rect) : (s.addDamage rect).space = s.space := rfl

@[simp] theorem addDamage_canvas (rect : Rect) : (s.addDamage rect).canvas = s.canvas := rfl

end State

/-- A surface given a buffer that `wl_shm` admits. -/
theorem sane_setBuffer [DecidableEq ι] (hs : Sane s) {surface : ι} {buffer : Option Buffer}
    (hadmitted : ∀ b ∈ buffer, b.Admitted) :
    Sane (s.setBuffer surface buffer) := by
  refine ⟨hs.size, hs.location, fun k b hb => ?_⟩
  by_cases hk : k = surface
  · subst hk
    rw [State.setBuffer_self] at hb
    exact hadmitted b hb
  · rw [State.setBuffer_of_ne _ hk] at hb
    exact hs.buffers k b hb

namespace State

/-- **What an operation does**: it may change the windows, their buffers
or the output, and either damages all of the output, or is a commit to a
mapped window that damages what `surface_damage` says, or changes nothing
that is painted. -/
theorem step_cases [DecidableEq ι] (h : s.step op = some s') :
    (∃ t : State ι, s' = t.addFullDamage ∧ t.canvas = s.canvas ∧ (Sane s → Sane t)) ∨
    (∃ surface buffer reported e, op = .commit surface buffer reported ∧ e ∈ s.space ∧
      e.surface = surface ∧ (∀ b ∈ buffer, b.Admitted) ∧
      s' = (surfaceDamage buffer reported e.location).elim (s.setBuffer surface buffer)
        (s.setBuffer surface buffer).addDamage) ∨
    s' = s ∨
    (op = .frame ∧ s' = { s with canvas := s.renderer.render.1, damage := [] }) := by
  cases op with
  | newToplevel surface =>
    refine Or.inl ⟨_, (Option.some.inj h).symm, rfl, fun hs => ⟨hs.size, fun e he => ?_, hs.buffers⟩⟩
    rcases List.mem_append.1 he with he | he
    · exact hs.location e he
    · rw [List.mem_singleton.1 he]
  | toplevelDestroyed surface =>
    simp only [step] at h
    cases hfind : s.space.find? fun e => e.surface = surface with
    | none =>
      rw [hfind] at h
      exact Or.inr (Or.inr (Or.inl (Option.some.inj h).symm))
    | some e =>
      rw [hfind] at h
      exact Or.inl ⟨_, (Option.some.inj h).symm, rfl, fun hs => ⟨hs.size,
        fun e he => hs.location e (List.mem_of_mem_eraseP he), hs.buffers⟩⟩
  | resizeOutput width height =>
    simp only [step, Option.ite_none_right_eq_some, Option.some.injEq] at h
    exact Or.inl ⟨_, h.2.symm, rfl, fun hs => ⟨h.1, hs.location, hs.buffers⟩⟩
  | commit surface buffer reported =>
    simp only [step, Option.ite_none_right_eq_some] at h
    obtain ⟨hadmitted, h⟩ := h
    cases hfind : s.space.find? fun e => e.surface = surface with
    | none =>
      rw [hfind] at h
      exact Or.inl ⟨_, (Option.some.inj h).symm, rfl,
        fun hs => sane_setBuffer hs hadmitted⟩
    | some e =>
      refine Or.inr (Or.inl ⟨surface, buffer, reported, e, rfl, List.mem_of_find?_eq_some hfind,
        of_decide_eq_true (List.find?_some hfind :), hadmitted, ?_⟩)
      rw [hfind] at h
      dsimp only at h
      cases hd : surfaceDamage buffer reported e.location with
      | none =>
        rw [hd] at h
        exact (Option.some.inj h).symm
      | some rect =>
        rw [hd] at h
        exact (Option.some.inj h).symm
  | frame => exact Or.inr (Or.inr (Or.inr ⟨rfl, (Option.some.inj h).symm⟩))

end State

/-- What damage only grows by leaves a pixel damaged. -/
theorem State.addDamage_keeps (rect : Rect) :
    (s.damage ≠ [] → (s.addDamage rect).damage ≠ []) ∧
    ∀ x y, x < s.width → y < s.height → Damaged s.damage x y → Damaged (s.addDamage rect).damage x y :=
  ⟨fun _ => accumulate_ne_nil _ _ _, fun _ _ hx hy hd => accumulate_covers hx hy (Or.inl hd)⟩

/-- **A client cannot take damage back**, nor touch the output's size or
its canvas. -/
theorem State.step_client [DecidableEq ι] (hop : op.isClient = true) (h : s.step op = some s') :
    (s'.width = s.width ∧ s'.height = s.height ∧ s'.canvas = s.canvas) ∧
    (s.damage ≠ [] → s'.damage ≠ []) ∧
    ∀ x y, x < s.width → y < s.height → Damaged s.damage x y → Damaged s'.damage x y := by
  cases op with
  | resizeOutput width height => cases hop
  | frame => cases hop
  | newToplevel surface =>
    cases h
    exact ⟨⟨rfl, rfl, rfl⟩, State.addDamage_keeps _⟩
  | toplevelDestroyed surface =>
    simp only [State.step] at h
    split at h
    · cases h
      exact ⟨⟨rfl, rfl, rfl⟩, State.addDamage_keeps _⟩
    · cases h
      exact ⟨⟨rfl, rfl, rfl⟩, id, fun _ _ _ _ => id⟩
  | commit surface buffer reported =>
    simp only [State.step, Option.ite_none_right_eq_some] at h
    obtain ⟨-, h⟩ := h
    split at h
    · split at h
      · cases h
        exact ⟨⟨rfl, rfl, rfl⟩, State.addDamage_keeps _⟩
      · cases h
        exact ⟨⟨rfl, rfl, rfl⟩, id, fun _ _ _ _ => id⟩
    · cases h
      exact ⟨⟨rfl, rfl, rfl⟩, State.addDamage_keeps _⟩

/-- **A resize damages all of the new output.** -/
theorem State.step_resize [DecidableEq ι] {width height : ℕ}
    (h : s.step (.resizeOutput width height) = some s') :
    s'.width = width ∧ s'.height = height ∧ s'.canvas = s.canvas ∧ s'.damage ≠ [] ∧
    ∀ x y, x < width → y < height → Damaged s'.damage x y := by
  simp only [State.step, Option.ite_none_right_eq_some, Option.some.injEq] at h
  obtain ⟨-, rfl⟩ := h
  exact ⟨rfl, rfl, rfl, accumulate_ne_nil _ _ _,
    fun x y hx hy => accumulate_covers hx hy (Or.inr (full_has hx hy))⟩

/-- Only a commit changes a surface's buffer. -/
theorem State.step_buffers [DecidableEq ι] (h : s.step op = some s') :
    s'.buffers = s.buffers ∨ ∃ surface buffer reported, op = .commit surface buffer reported ∧
      s'.buffers = Function.update s.buffers surface buffer := by
  cases op with
  | newToplevel surface =>
    cases h
    exact Or.inl rfl
  | toplevelDestroyed surface =>
    simp only [State.step] at h
    split at h <;> (cases h; exact Or.inl rfl)
  | resizeOutput width height =>
    simp only [State.step, Option.ite_none_right_eq_some, Option.some.injEq] at h
    obtain ⟨-, rfl⟩ := h
    exact Or.inl rfl
  | commit surface buffer reported =>
    simp only [State.step, Option.ite_none_right_eq_some] at h
    obtain ⟨-, h⟩ := h
    refine Or.inr ⟨surface, buffer, reported, rfl, ?_⟩
    split at h
    · split at h <;> (cases h; rfl)
    · cases h
      rfl
  | frame =>
    cases h
    exact Or.inl rfl

theorem sane_step [DecidableEq ι] (hs : Sane s) (h : s.step op = some s') : Sane s' := by
  rcases State.step_cases h with ⟨t, rfl, -, ht⟩ |
    ⟨surface, buffer, reported, e, -, -, -, hadmitted, rfl⟩ | rfl | ⟨-, rfl⟩
  · exact ⟨(ht hs).size, (ht hs).location, (ht hs).buffers⟩
  · have hcommit : Sane (s.setBuffer surface buffer) := sane_setBuffer hs hadmitted
    cases surfaceDamage buffer reported e.location with
    | none => exact hcommit
    | some rect => exact ⟨hcommit.size, hcommit.location, hcommit.buffers⟩
  · exact hs
  · exact ⟨hs.size, hs.location, hs.buffers⟩

theorem reachable_sane [DecidableEq ι] (h : (machine ι).Reachable s) : Sane s := by
  refine Machine.Reachable.invariant (P := Sane) (fun s hs => ?_)
    (fun s a s' hstep hs => sane_step hs hstep) h
  obtain ⟨hsize, hbuffers, hspace, -, -⟩ := hs
  refine ⟨hsize, fun e he => ?_, fun k b hb => ?_⟩
  · rw [hspace] at he
    cases he
  · rw [hbuffers] at hb
    cases hb

/-! ## What a commit changes -/

section Pixels

variable {w i : ℕ} {b : Buffer} {buffer buffer' : Option Buffer} {v : ℕ → Option UInt8}

theorem shown_of_notMem {win : Window} (h : i ∉ win.extent w) : win.shown w v i = v i := if_neg h

theorem shown_congr {v' : ℕ → Option UInt8} {win : Window} (hv : v i = v' i) :
    win.shown w v i = win.shown w v' i := by
  unfold Window.shown Window.overTo
  rw [hv]

theorem shown_of_mem {win : Window} (h : i ∈ win.extent w) : win.shown w v i = win.value w i :=
  if_pos h

/-- **Where a buffer at the origin is painted it shows its pixels.** -/
theorem value_of_pixel (hmem : i ∈ Window.extent w ⟨0, 0, some b⟩) {px : Bytes}
    (hpx : b.pixel (col w i) (row w i) = some px) :
    Window.value w ⟨0, 0, some b⟩ i = px[i % 4]? := by
  unfold Buffer.pixel at hpx
  rw [Option.ite_none_right_eq_some] at hpx
  obtain ⟨-, hpx⟩ := hpx
  cases b with
  | other width height => exact hmem.elim
  | singlePixel rgba =>
    cases hpx
    rfl
  | shm b =>
    cases hpx
    show blitValue w 0 0 (Window.pixelData b) b.stride i = _
    rw [List.getElem?_take_of_lt (by omega), List.getElem?_drop]
    rfl

/-- A full repaint puts a buffer at the origin into the rows that do not
run out of it. -/
theorem mem_extent_shm {b : ShmBuffer} :
    i ∈ Window.extent w ⟨0, 0, some (.shm b)⟩ ↔ b.offset + b.stride * b.height ≤ b.pool.length ∧
      (col w i < b.width ∧ row w i < b.height) ∧
        row w i * b.stride + min b.width w * 4 ≤ b.stride * b.height := by
  by_cases hpool : b.offset + b.stride * b.height ≤ b.pool.length
  · have hextent : Window.extent w ⟨0, 0, some (.shm b)⟩ =
        blitRows w 0 0 b.width b.height b.stride w := if_pos hpool
    rw [hextent]
    show ((0 ≤ col w i ∧ col w i < 0 + b.width) ∧ 0 ≤ row w i ∧ row w i < 0 + b.height) ∧
      (row w i - 0) * b.stride + (min (0 + b.width) w - 0) * 4 ≤ b.stride * b.height ↔ _
    simp only [Nat.zero_add, Nat.sub_zero, Nat.zero_le, true_and, hpool]
  · have hextent : Window.extent w ⟨0, 0, some (.shm b)⟩ = ∅ := if_neg hpool
    rw [hextent]
    exact iff_of_false id fun h => hpool h.1

/-- **What is painted has four bytes.** -/
theorem length_of_pixel (hmem : i ∈ Window.extent w ⟨0, 0, some b⟩) (hcol : col w i < w)
    {px : Bytes} (hpx : b.pixel (col w i) (row w i) = some px) : px.length = 4 := by
  unfold Buffer.pixel at hpx
  rw [Option.ite_none_right_eq_some] at hpx
  obtain ⟨-, hpx⟩ := hpx
  cases b with
  | other width height => exact hmem.elim
  | singlePixel rgba =>
    cases hpx
    rfl
  | shm b =>
    obtain ⟨hpool, ⟨hx, -⟩, hend⟩ := mem_extent_shm.1 hmem
    cases hpx
    have hlen : (Window.pixelData b).length = b.stride * b.height := by
      rw [Window.pixelData, List.length_take, List.length_drop]
      omega
    rw [List.length_take, List.length_drop, hlen]
    omega

/-- **A buffer with a pixel of four bytes is painted there**, unless a full
repaint skips the pixel's row. -/
theorem mem_extent_of_pixel (hb : b.Admitted) {px : Bytes}
    (hpx : b.pixel (col w i) (row w i) = some px) (hlen : px.length = 4)
    (hskip : ¬ b.SkipsRow w (col w i) (row w i)) : i ∈ Window.extent w ⟨0, 0, some b⟩ := by
  unfold Buffer.pixel at hpx
  rw [Option.ite_none_right_eq_some] at hpx
  obtain ⟨hin, hpx⟩ := hpx
  cases b with
  | singlePixel rgba => exact ⟨Nat.zero_le _, Nat.zero_le _⟩
  | shm b => exact mem_extent_shm.2 ⟨hb.2.2, hin, not_lt.1 fun hlt => hskip ⟨hin, hlt⟩⟩
  | other width height =>
    cases hpx
    cases hlen

/-- **A commit changes nothing where nothing is reported**: not inside
the new buffer's bounds by what is promised of the report, and not
outside where the commit neither spills nor skips. -/
theorem over_eq_of_commit (hcol : col w i < w)
    (hold : ∀ b ∈ buffer, b.Admitted) (hnew : ∀ b ∈ buffer', b.Admitted)
    (hin : i ∈ Window.extent w ⟨0, 0, buffer⟩ ∨ i ∈ Window.extent w ⟨0, 0, buffer'⟩ →
      (∃ b ∈ buffer', col w i < b.size.1 ∧ row w i < b.size.2) ∧
      (∀ b ∈ buffer, ¬ b.SkipsRow w (col w i) (row w i)) ∧
      ∀ b ∈ buffer', ¬ b.SkipsRow w (col w i) (row w i))
    (hsame : ∀ b ∈ buffer', col w i < b.size.1 → row w i < b.size.2 →
      buffer.bind (fun old => old.pixel (col w i) (row w i)) = b.pixel (col w i) (row w i)) :
    Window.shown w v ⟨0, 0, buffer⟩ i = Window.shown w v ⟨0, 0, buffer'⟩ i := by
  by_cases hmem : i ∈ Window.extent w ⟨0, 0, buffer⟩ ∨ i ∈ Window.extent w ⟨0, 0, buffer'⟩
  swap
  · rw [not_or] at hmem
    rw [shown_of_notMem hmem.1, shown_of_notMem hmem.2]
  obtain ⟨⟨b, hb, hx, hy⟩, hskip, hskip'⟩ := hin hmem
  have hpixel := hsame b hb hx hy
  cases hpx : b.pixel (col w i) (row w i) with
  | none =>
    unfold Buffer.pixel at hpx
    rw [if_pos ⟨hx, hy⟩] at hpx
    cases b <;> cases hpx
  | some px =>
    rw [hpx, Option.bind_eq_some_iff] at hpixel
    obtain ⟨old, hold', hpx'⟩ := hpixel
    rw [hold', hb] at hmem ⊢
    have hlen : px.length = 4 := hmem.elim (fun hmem => length_of_pixel hmem hcol hpx')
      fun hmem => length_of_pixel hmem hcol hpx
    have hboth : i ∈ Window.extent w ⟨0, 0, some old⟩ ∧ i ∈ Window.extent w ⟨0, 0, some b⟩ :=
      ⟨mem_extent_of_pixel (hold old hold') hpx' hlen (hskip old hold'),
        mem_extent_of_pixel (hnew b hb) hpx hlen (hskip' b hb)⟩
    rw [shown_of_mem hboth.1, shown_of_mem hboth.2, value_of_pixel hboth.1 hpx',
      value_of_pixel hboth.2 hpx]

/-- A window paints whole pixels. -/
theorem extent_congr {win : Window} {j : ℕ} (hcol : col w i = col w j) (hrow : row w i = row w j) :
    i ∈ win.extent w ↔ j ∈ win.extent w := by
  obtain ⟨x, y, buffer⟩ := win
  cases buffer with
  | none => exact Iff.rfl
  | some buffer =>
    cases buffer with
    | other width height => exact Iff.rfl
    | singlePixel rgba =>
      show _ ≤ col w i ∧ _ ≤ row w i ↔ _ ≤ col w j ∧ _ ≤ row w j
      rw [hcol, hrow]
    | shm b =>
      simp only [Window.extent, Window.extentTo]
      split
      · show ((_ ≤ col w i ∧ col w i < _) ∧ _ ≤ row w i ∧ row w i < _) ∧ (row w i - _) * _ + _ ≤ _ ↔
          ((_ ≤ col w j ∧ col w j < _) ∧ _ ≤ row w j ∧ row w j < _) ∧ (row w j - _) * _ + _ ≤ _
        rw [hcol, hrow]
      · exact Iff.rfl

/-- The bytes of a pixel of the output. -/
theorem col_row_pixel {x y k : ℕ} (hx : x < w) (hk : k < 4) :
    col w ((y * w + x) * 4 + k) = x ∧ row w ((y * w + x) * 4 + k) = y := by
  have hdiv : ((y * w + x) * 4 + k) / 4 = y * w + x := by omega
  refine ⟨?_, ?_⟩
  · rw [col, hdiv, Nat.mul_comm, Nat.mul_add_mod, Nat.mod_eq_of_lt hx]
  · rw [row, hdiv, Nat.mul_comm, Nat.mul_add_div (by omega), Nat.div_eq_of_lt hx, Nat.add_zero]

end Pixels

section Congr

variable {w i : ℕ} {α : Type*} {f g : α → Window} (l : List α)
  (h : ∀ a ∈ l, ∀ v : ℕ → Option UInt8, (f a).shown w v i = (g a).shown w v i)

include h

/-- Two window lists that paint a byte alike give it one value. -/
theorem picture_congr : picture w (l.map f) i = picture w (l.map g) i := by
  unfold picture pictureTo
  simp only [List.length_map, List.foldl_map]
  split
  · rfl
  · exact foldl_at_congr l (fun a ha v v' hv => (h a ha v).trans (shown_congr hv)) rfl

end Congr

/-! ## Damage is complete -/

theorem damaged_addFullDamage (t : State ι) {x y : ℕ} (hx : x < t.width) (hy : y < t.height) :
    Damaged t.addFullDamage.damage x y :=
  accumulate_covers hx hy (Or.inr (full_has hx hy))

/-- What `damage_since` reports is in `surface_damage`'s rectangle. -/
theorem surfaceDamage_has {b : Buffer} {reported : List Rect} {x y : ℕ}
    (h : Damaged reported x y) :
    ∃ rect, surfaceDamage (some b) reported (0, 0) = some rect ∧ rect.Has x y := by
  cases reported with
  | nil =>
    obtain ⟨r, hmem, -⟩ := h
    cases hmem
  | cons r rs =>
    refine ⟨_, rfl, ?_⟩
    have hunion : (rs.foldl Rect.merge r).Has x y := by
      refine foldl_merge_has ?_
      obtain ⟨r', hmem, hr'⟩ := h
      rcases List.mem_cons.1 hmem with rfl | hmem
      · exact Or.inl hr'
      · exact Or.inr ⟨r', hmem, hr'⟩
    simpa only [Rect.Has, Int.add_zero] using hunion

theorem Sane.windows_addressable (hs : Sane s) : ∀ win ∈ s.windows, win.Addressable := by
  intro win hwin b hb
  obtain ⟨e, -, rfl⟩ := List.mem_map.1 hwin
  obtain ⟨-, hbytes, -⟩ := hs.buffers e.surface _ hb
  exact ⟨by omega, Or.inr hbytes⟩

/-- **A frame repaints what it has to**: where the canvas shows the
picture outside the damage, repainting the damage shows all of it, unless
a clip paints a row that a full repaint skips. -/
theorem State.Tracks.render (hs : Sane s) (hrespects : s.renderer.Respects) (ht : s.Tracks) :
    s.renderer.render.1.length = s.width * s.height * 4 ∧
      ∀ i < s.width * s.height * 4, s.renderer.render.1[i]? = s.picture i := by
  refine Renderer.render_eq_picture (s := s.renderer) hs.size hs.windows_addressable hrespects
    fun hsame _ i hi hd => ht ?_ i hi hd
  have hsize := Renderer.bufferSize_eq (s := s.renderer) hs.size
  simp only [Renderer.sizeChanged, bne_eq_false_iff_eq] at hsame
  exact hsame.trans hsize

section Runs

variable [DecidableEq ι]

/-- A commit to a mapped window leaves a byte's value, or damages it, or
spills or skips there. -/
theorem commit_keeps (hs : Sane s) {surface : ι} {buffer : Option Buffer} {reported : List Rect}
    {e : Element ι} (he : e ∈ s.space) (hesurface : e.surface = surface)
    (hadmitted : ∀ b ∈ buffer, b.Admitted)
    (hhonest : Op.Honest s (.commit surface buffer reported)) {i : ℕ}
    (hi : i < s.width * s.height * 4)
    (hspill : ¬ Op.Spills s (col s.width i) (row s.width i) (.commit surface buffer reported))
    (hskip : ¬ Op.Skips s (col s.width i) (row s.width i) (.commit surface buffer reported))
    (hd : ∀ rect, surfaceDamage buffer reported e.location = some rect →
      ¬ rect.Has (col s.width i) (row s.width i)) :
    (s.setBuffer surface buffer).picture i = s.picture i := by
  rw [hs.location e he] at hd
  refine picture_congr s.space fun e' he' v => ?_
  have hwindow : ∀ t : State ι, t.window e' = ⟨0, 0, t.buffers e'.surface⟩ := fun t => by
    rw [State.window, hs.location e' he']
  by_cases hsurface : e'.surface = surface
  · obtain ⟨hcol, hrow⟩ := col_row_pixel (k := 0) (y := row s.width i) (col_row_lt hi).1 (by omega)
    have hnew : (s.setBuffer surface buffer).window e' = ⟨0, 0, buffer⟩ := by
      rw [hwindow, hsurface, State.setBuffer_self]
    rw [hnew, hwindow s, hsurface]
    refine (over_eq_of_commit (col_row_lt hi).1 (hs.buffers surface) hadmitted (fun hmem => ?_)
      fun b hb hx hy => ?_).symm
    · rw [extent_congr hcol.symm hrow.symm, extent_congr hcol.symm hrow.symm] at hmem
      have htouches : s.Touches (col s.width i) (row s.width i) surface buffer :=
        ⟨col_row_lt hi, ⟨e, he, hesurface⟩, hmem⟩
      refine ⟨?_, fun old hold hskips => ?_, fun b hb hskips => ?_⟩
      · by_contra hout
        exact hspill ⟨htouches, fun b hb hbounds => hout ⟨b, hb, hbounds⟩⟩
      · exact hskip ⟨htouches, Or.inl ⟨old, hold, hskips⟩⟩
      · exact hskip ⟨htouches, Or.inr ⟨b, hb, hskips⟩⟩
    · -- a pixel that differs inside the bounds is one that was reported
      subst hb
      by_contra hne
      obtain ⟨rect, hrect, hhas⟩ := surfaceDamage_has (b := b) (hhonest _ _ hx hy hne)
      exact hd rect hrect hhas
  · rw [hwindow, hwindow s, State.setBuffer_of_ne _ hsurface]

/-- **What an operation keeps**: a byte of the output is damaged, or the
operation spills or skips there, or the byte keeps its value. -/
theorem step_keeps (hs : Sane s) (hop : op.Honest s) (h : s.step op = some s') {i : ℕ}
    (hi : i < s'.width * s'.height * 4) :
    Damaged s'.damage (col s'.width i) (row s'.width i) ∨
    op.Spills s (col s'.width i) (row s'.width i) ∨
    op.Skips s (col s'.width i) (row s'.width i) ∨
    (s'.width = s.width ∧ s'.height = s.height ∧ s'.picture i = s.picture i) := by
  obtain ⟨hcol, hrow⟩ := col_row_lt hi
  rcases State.step_cases h with ⟨t, rfl, -, -⟩ | ⟨surface, buffer, reported, e, rfl, he, hsurface,
    hadmitted, rfl⟩ | rfl | ⟨rfl, rfl⟩
  · exact Or.inl (damaged_addFullDamage t hcol hrow)
  · by_cases hspill : Op.Spills s (col s.width i) (row s.width i) (.commit surface buffer reported)
    · refine Or.inr (Or.inl ?_)
      cases surfaceDamage buffer reported e.location <;> exact hspill
    by_cases hskip : Op.Skips s (col s.width i) (row s.width i) (.commit surface buffer reported)
    · refine Or.inr (Or.inr (Or.inl ?_))
      cases surfaceDamage buffer reported e.location <;> exact hskip
    have hkeeps := commit_keeps hs he hsurface hadmitted hop (i := i)
    cases hd : surfaceDamage buffer reported e.location with
    | none =>
      rw [hd] at hi
      exact Or.inr (Or.inr (Or.inr ⟨rfl, rfl, hkeeps hi hspill hskip (by simp [hd])⟩))
    | some rect =>
      rw [hd] at hi hcol hrow
      by_cases hnow : rect.Has (col s.width i) (row s.width i)
      · exact Or.inl (accumulate_covers hcol hrow (Or.inr hnow))
      · refine Or.inr (Or.inr (Or.inr ⟨rfl, rfl, hkeeps hi hspill hskip fun r hr => ?_⟩))
        rw [hd] at hr
        cases hr
        exact hnow
  · exact Or.inr (Or.inr (Or.inr ⟨rfl, rfl, rfl⟩))
  · exact Or.inr (Or.inr (Or.inr ⟨rfl, rfl, rfl⟩))

/-- **What is not damaged after an operation** was not damaged before, and
its canvas is the old one, unless a frame was painted. -/
theorem step_canvas (h : s.step op = some s') {i : ℕ} (hi : i < s'.width * s'.height * 4)
    (hd : ¬ Damaged s'.damage (col s'.width i) (row s'.width i)) :
    (s'.width = s.width ∧ s'.height = s.height) ∧
      (op = .frame ∧ s'.canvas = s.renderer.render.1 ∨ s'.canvas = s.canvas ∧
        ¬ Damaged s.damage (col s.width i) (row s.width i)) := by
  obtain ⟨hcol, hrow⟩ := col_row_lt hi
  have hclient : op.isClient = true → _ := fun hop => State.step_client hop h
  cases op with
  | resizeOutput width height =>
    obtain ⟨hw, hh, -, -, hall⟩ := State.step_resize h
    exact absurd (hall _ _ (hw ▸ hcol) (hh ▸ hrow)) hd
  | frame =>
    cases h
    exact ⟨⟨rfl, rfl⟩, Or.inl ⟨rfl, rfl⟩⟩
  | _ =>
    obtain ⟨⟨hw, hh, hcanvas⟩, -, hdamage⟩ := hclient rfl
    rw [hw] at hcol hrow hd
    rw [hh] at hrow
    exact ⟨⟨hw, hh⟩, Or.inr ⟨hcanvas, fun hold => hd (hdamage _ _ hcol hrow hold)⟩⟩

/-- **An operation whose damage is complete keeps the canvas on track**,
and so does a frame that paints no row a full repaint skips. -/
theorem tracks_step (hs : Sane s) (hop : op.Complete s)
    (hframe : op = .frame → s.renderer.Respects) (h : s.step op = some s')
    (ht : s.Tracks) : s'.Tracks := by
  intro hlen i hi hd
  obtain ⟨⟨hw, hh⟩, hcanvas⟩ := step_canvas h hi hd
  have hpicture : s'.picture i = s.picture i := by
    by_contra hne
    exact hd (hop s' h i hi hne)
  rw [hw, hh] at hi
  rw [hpicture]
  rcases hcanvas with ⟨hop, hcanvas⟩ | ⟨hcanvas, hold⟩
  · rw [hcanvas]
    exact (ht.render hs (hframe hop)).2 i hi
  · rw [hcanvas, hw, hh] at hlen
    rw [hcanvas]
    exact ht hlen i hi hold

/-- An operation with an honest report that spills and skips nowhere is
complete. -/
theorem complete_of_honest (hs : Sane s) (hop : op.Honest s)
    (hkeeps : ∀ x y, ¬ op.Spills s x y ∧ ¬ op.Skips s x y) : op.Complete s := by
  intro s' h i hi hne
  rcases step_keeps hs hop h hi with hd | hspill | hskip | ⟨-, -, hpicture⟩
  · exact hd
  · exact absurd hspill (hkeeps _ _).1
  · exact absurd hskip (hkeeps _ _).2
  · exact absurd hpicture hne

/-- A resize damages whatever it changes. -/
theorem complete_resize (s : State ι) {width height : ℕ} :
    (Op.resizeOutput width height : Op ι).Complete s := by
  intro s' h i hi _
  obtain ⟨hw, hh, -, -, hall⟩ := State.step_resize h
  obtain ⟨hcol, hrow⟩ := col_row_lt hi
  exact hall _ _ (hw ▸ hcol) (hh ▸ hrow)

/-- So does a new window. -/
theorem complete_newToplevel (s : State ι) (surface : ι) : (Op.newToplevel surface).Complete s := by
  intro s' h i hi _
  cases h
  obtain ⟨hcol, hrow⟩ := col_row_lt hi
  exact damaged_addFullDamage _ hcol hrow

/-- A step that spills nowhere, with an honest report, and a buffer whose
rows are no wider than its stride. -/
structure Op.Faithful (s : State ι) (op : Op ι) : Prop where
  honest : op.Honest s
  within : ∀ x y, ¬ op.Spills s x y
  rowsFit : op.RowsFit

/-- Every surface's buffer has rows no wider than its stride. -/
def State.RowsFit (s : State ι) : Prop := ∀ surface, ∀ b ∈ s.buffers surface, b.RowsFit

theorem State.RowsFit.step (hs : s.RowsFit) (hop : op.RowsFit) (h : s.step op = some s') :
    s'.RowsFit := by
  rcases State.step_buffers h with hsame | ⟨surface, buffer, reported, rfl, hbuffers⟩
  · rw [State.RowsFit, hsame]
    exact hs
  · intro k b hb
    rw [hbuffers] at hb
    by_cases hk : k = surface
    · subst hk
      rw [Function.update_self] at hb
      exact hop b hb
    · rw [Function.update_of_ne hk] at hb
      exact hs k b hb

omit [DecidableEq ι] in
/-- Where every row fits nothing is skipped. -/
theorem Op.not_skips (hs : s.RowsFit) (hop : op.RowsFit) {x y : ℕ} : ¬ op.Skips s x y := by
  cases op with
  | commit surface buffer reported =>
    rintro ⟨-, ⟨old, hold, hskips⟩ | ⟨b, hb, hskips⟩⟩
    · exact hskips.not_rowsFit (hs surface old hold)
    · exact hskips.not_rowsFit (hop b hb)
  | _ => exact id

omit [DecidableEq ι] in
theorem State.RowsFit.respects (hs : s.RowsFit) (hsane : Sane s) : s.renderer.Respects := by
  refine Renderer.respects_of_valid fun win hwin b hb => ?_
  obtain ⟨e, -, rfl⟩ := List.mem_map.1 hwin
  have hbytes := (hsane.buffers e.surface _ hb).2.1
  exact ⟨hs e.surface _ hb, by omega⟩

/-- **In a run without spills and wide rows the canvas tracks the
picture.** -/
theorem tracks_of_run (h : (machine ι).Reach Op.Faithful s) : s.RowsFit ∧ s.Tracks := by
  refine Machine.Reach.invariant_of (P := fun t => t.RowsFit ∧ t.Tracks) (Q := Sane)
    (fun t ht => reachable_sane ht.reachable)
    (fun t ht => ⟨fun k b hb => ?_, fun hlen i hi => ?_⟩) (fun t op t' hs _ hop hstep hkept => ?_) h
  · rw [ht.2.1] at hb
    cases hb
  · -- the canvas of a new compositor is empty, and so is an output of its size
    rw [ht.2.2.2.2, List.length_nil] at hlen
    omega
  · have hcomplete := complete_of_honest hs hop.honest fun x y =>
      ⟨hop.within x y, Op.not_skips hkept.1 hop.rowsFit⟩
    exact ⟨hkept.1.step hop.rowsFit hstep,
      tracks_step hs hcomplete (fun _ => hkept.1.respects hs) hstep hkept.2⟩

/-- **Commit damage is complete, spills apart.** Every pixel whose
full-repaint value an operation changes lies in the damage it
accumulates, or is one its commit spills or skips at; and in a run without
spills and wide rows every frame, repainting no more than the damage, is
the full repaint. -/
theorem commit_damage_complete :
    (∀ (s s' : State ι) (op : Op ι), (machine ι).Reachable s → op.Honest s →
      { s with damage := [] }.step op = some s' → ∀ x y, x < s'.width → y < s'.height →
        s'.pixel x y ≠ s.pixel x y →
          Damaged s'.damage x y ∨ op.Spills s x y ∨ op.Skips s x y) ∧
    ∀ s : State ι, (machine ι).Reach Op.Faithful s →
      s.renderer.render.1.length = s.width * s.height * 4 ∧
        ∀ i < s.width * s.height * 4, s.renderer.render.1[i]? = s.picture i := by
  refine ⟨fun s s' op hr hop h x y hx hy hne => ?_, fun s hr => ?_⟩
  swap
  · obtain ⟨hfit, htracks⟩ := tracks_of_run hr
    have hsane := reachable_sane hr.reachable
    exact htracks.render hsane (hfit.respects hsane)
  have hs := reachable_sane hr
  by_contra hout
  rw [not_or, not_or] at hout
  have hbytes : ∀ k < 4, s'.width = s.width ∧ s'.height = s.height ∧
      s'.picture ((y * s'.width + x) * 4 + k) = s.picture ((y * s'.width + x) * 4 + k) := by
    intro k hk
    obtain ⟨hcol, hrow⟩ := col_row_pixel (y := y) hx hk
    have hi : (y * s'.width + x) * 4 + k < s'.width * s'.height * 4 := by
      have hle := row_le (w := s'.width) (h := s'.height) (x := x + 1) hx hy
      omega
    have hop' : op.Honest { s with damage := [] } := by
      cases op <;> exact hop
    rcases step_keeps (s := { s with damage := [] }) ⟨hs.size, hs.location, hs.buffers⟩ hop' h hi with
      hd | hspill | hskip | hkept
    · rw [hcol, hrow] at hd
      exact absurd hd hout.1
    · rw [hcol, hrow] at hspill
      refine absurd ?_ hout.2.1
      cases op <;> exact hspill
    · rw [hcol, hrow] at hskip
      refine absurd ?_ hout.2.2
      cases op <;> exact hskip
    · exact hkept
  obtain ⟨hw, hh, -⟩ := hbytes 0 (by omega)
  refine hne ?_
  rw [State.pixel, State.pixel, if_pos ⟨hx, hy⟩, if_pos ⟨hw ▸ hx, hh ▸ hy⟩, ← hw]
  congr 1
  exact List.map_congr_left fun k hk => (hbytes k (List.mem_range.1 hk)).2.2

end Runs

section Single

/-- A single window's picture. -/
theorem picture_single {t : State ι} {k : ι} (h : t.space = [⟨k, (0, 0)⟩]) (i : ℕ) :
    t.picture i = Window.shown t.width (fun _ => some 0) ⟨0, 0, t.buffers k⟩ i := by
  rw [State.picture, State.windows, h]
  rfl

/-- Pixels that are alike have their first byte alike. -/
theorem picture_zero_of_pixel {t t' : State ι} (ht : 0 < t.width ∧ 0 < t.height)
    (ht' : 0 < t'.width ∧ 0 < t'.height) (h : t'.pixel 0 0 = t.pixel 0 0) :
    t'.picture 0 = t.picture 0 := by
  rw [State.pixel, State.pixel, if_pos ht, if_pos ht', Option.some.injEq] at h
  simpa using List.map_inj_left.1 h 0 (by decide)

/-- A one-by-one output with one window, of the buffer given. -/
def oneWindow (buffer : Option Buffer) (damage : List Rect) (canvas : Bytes) : State Unit where
  width := 1
  height := 1
  buffers _ := buffer
  space := [⟨(), (0, 0)⟩]
  damage := damage
  canvas := canvas

/-- A white pixel. -/
def white : Buffer := .shm ⟨[255, 255, 255, 255], 0, 1, 1, 4⟩

theorem oneWindow_reachable : (machine Unit).Reachable (oneWindow none [⟨0, 0, 1, 1⟩] []) :=
  Machine.reach_of_exec (s := ⟨1, 1, fun _ => none, [], [⟨0, 0, 1, 1⟩], []⟩) [.newToplevel ()]
    (.start ⟨by decide, rfl, rfl, rfl, rfl⟩) rfl

theorem oneWindow_white : (oneWindow (some white) [] []).picture 0 = some 255 := by
  rw [picture_single (k := ()) rfl]
  have hpx : white.pixel (col 1 0) (row 1 0) = some [255, 255, 255, 255] := rfl
  have hmem : 0 ∈ Window.extent 1 ⟨0, 0, some white⟩ :=
    mem_extent_of_pixel (by decide) hpx rfl fun hskips =>
      hskips.not_rowsFit (show white.RowsFit by decide)
  exact (shown_of_mem hmem).trans (value_of_pixel hmem hpx)

theorem oneWindow_none {damage : List Rect} {canvas : Bytes} :
    (oneWindow none damage canvas).picture 0 = some 0 := by
  rw [picture_single (k := ()) rfl]
  exact shown_of_notMem id

/-- The commit of a white pixel to the window. -/
def commitWhite : Op Unit := .commit () (some white) [⟨0, 0, 1, 1⟩]

theorem commitWhite_faithful {damage : List Rect} {canvas : Bytes} :
    commitWhite.Faithful (oneWindow none damage canvas) := by
  refine ⟨fun x y hx hy _ => ⟨_, List.mem_singleton_self _, ?_⟩, fun x y hspill => ?_,
    fun b hb => ?_⟩
  · have hx' : x < 1 := hx
    have hy' : y < 1 := hy
    simp only [Rect.Has]
    omega
  · obtain ⟨⟨⟨hx, hy⟩, -⟩, hout⟩ := hspill
    exact hout white rfl ⟨hx, hy⟩
  · cases hb
    exact (by decide : white.RowsFit)

/-- The first commit of a window shows in its damage, and the frame after
it is white. -/
theorem commit_damage_complete_first :
    ((oneWindow (some white) [⟨0, 0, 1, 1⟩] []).pixel 0 0 ≠
        (oneWindow none [⟨0, 0, 1, 1⟩] []).pixel 0 0 ∧
      Damaged (oneWindow (some white) [⟨0, 0, 1, 1⟩] []).damage 0 0) ∧
    (oneWindow (some white) [⟨0, 0, 1, 1⟩] []).renderer.render.1[0]? = some 255 := by
  have hne : (oneWindow (some white) [⟨0, 0, 1, 1⟩] []).pixel 0 0 ≠
      (oneWindow none [⟨0, 0, 1, 1⟩] []).pixel 0 0 := by
    intro h
    have hzero := picture_zero_of_pixel ⟨by decide, by decide⟩ ⟨by decide, by decide⟩ h
    rw [oneWindow_none] at hzero
    exact absurd (oneWindow_white.symm.trans hzero) (by decide)
  have hfaithful : commitWhite.Faithful (oneWindow none [⟨0, 0, 1, 1⟩] []) := commitWhite_faithful
  refine ⟨⟨hne, ?_⟩, ?_⟩
  · rcases commit_damage_complete.1 _ (oneWindow (some white) [⟨0, 0, 1, 1⟩] []) commitWhite
      oneWindow_reachable hfaithful.honest rfl 0 0 (by decide) (by decide) hne with
      hd | hspill | hskip
    · exact hd
    · exact absurd hspill (hfaithful.within 0 0)
    · exact absurd hskip (Op.not_skips (fun _ _ hb => by cases hb) hfaithful.rowsFit)
  · have hstart : (machine Unit).Reach Op.Faithful ⟨1, 1, fun _ => none, [], [⟨0, 0, 1, 1⟩], []⟩ :=
      .start ⟨by decide, rfl, rfl, rfl, rfl⟩
    have hmapped : (machine Unit).Reach Op.Faithful (oneWindow none [⟨0, 0, 1, 1⟩] []) :=
      hstart.next (a := .newToplevel ()) ⟨trivial, fun _ _ => id, trivial⟩ rfl
    have hwhite : (machine Unit).Reach Op.Faithful (oneWindow (some white) [⟨0, 0, 1, 1⟩] []) :=
      hmapped.next (a := commitWhite) hfaithful rfl
    exact ((commit_damage_complete.2 _ hwhite).2 0 (by decide)).trans oneWindow_white

/-- A detach damages nothing, and the window's last picture goes. -/
theorem detach_damages_nothing :
    ¬ ∀ (s s' : State Unit) (op : Op Unit), (machine Unit).Reachable s → op.Honest s →
      { s with damage := [] }.step op = some s' → ∀ x y, x < s'.width → y < s'.height →
        s'.pixel x y ≠ s.pixel x y → Damaged s'.damage x y := by
  intro h
  have hr : (machine Unit).Reachable (oneWindow (some white) [⟨0, 0, 1, 1⟩] []) :=
    oneWindow_reachable.next (a := .commit () (some white) [⟨0, 0, 1, 1⟩]) rfl
  have hd := h _ (oneWindow none [] []) (.commit () none []) hr trivial rfl 0 0 (by decide)
    (by decide) fun hpixel => by
      have hzero := picture_zero_of_pixel ⟨by decide, by decide⟩ ⟨by decide, by decide⟩ hpixel
      rw [oneWindow_none] at hzero
      exact absurd (oneWindow_white.symm.trans hzero.symm) (by decide)
  obtain ⟨r, hmem, -⟩ := hd
  cases hmem

end Single

end Compositor

end WaylandWebStream
