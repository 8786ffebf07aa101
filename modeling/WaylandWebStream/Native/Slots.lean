import WaylandWebStream.Native.Renderer
import Mathlib.Data.List.Perm.Basic

/-!
# Slots — nobody draws in a buffer the compositor has

A slot that is with the compositor keeps its index: a resize makes a zombie
of it, and the index is free only after the release. So an index is never
given to a second buffer while a release for the first is under way, and an
index is enough to tell whose release it is. `Sound` is that bookkeeping,
and `slots_safe` what it buys.
-/

namespace WaylandWebStream

namespace Native

open Strided

/-! ## Bookkeeping -/

/-- What is true of each slot, at a renderer's size and count of buffers. -/
structure SlotSound (r : ShmRenderer) (slot : BufferSlot) : Prop where
  /-- A zombie is with the compositor, -/
  zombie : slot.zombie = true → slot.released = false
  /-- and what is no zombie has the renderer's size. -/
  current : slot.zombie = false → slot.width = r.width ∧ slot.height = r.height
  mapped : slot.mapping.length = bufferSize slot.width slot.height
  made : slot.buffer < r.made

/-- **Sound bookkeeping**: a slot is not released exactly when a release
for its buffer, under its index, is still to come. -/
structure Sound (r : ShmRenderer) (awaiting : List Attached) : Prop where
  awaiting_iff : ∀ b i, ⟨b, i⟩ ∈ awaiting ↔
    ∃ slot, r.slots i = some slot ∧ slot.buffer = b ∧ slot.released = false
  nodup : awaiting.Nodup
  slot : ∀ i slot, r.slots i = some slot → SlotSound r slot
  distinct : ∀ i j slot slot', r.slots i = some slot → r.slots j = some slot' →
    slot.buffer = slot'.buffer → i = j

open ShmRenderer

variable {r r' : ShmRenderer} {awaiting awaiting' : List Attached} {i idx : SlotId} {b : ℕ}
  {slot slot' : BufferSlot} {x : Option BufferSlot} {allocates : SlotId → Bool}

theorem Sound.perm (h : Sound r awaiting) (hp : awaiting.Perm awaiting') : Sound r awaiting' where
  awaiting_iff b i := by rw [← hp.mem_iff]; exact h.awaiting_iff b i
  nodup := hp.nodup_iff.1 h.nodup
  slot := h.slot
  distinct := h.distinct

/-- The bookkeeping reads no more than the slots, the size and the count. -/
theorem SlotSound.mono (h : SlotSound r slot) (hw : r'.width = r.width)
    (hh : r'.height = r.height) (hmade : r.made ≤ r'.made) : SlotSound r' slot where
  zombie := h.zombie
  current hz := by rw [hw, hh]; exact h.current hz
  mapped := h.mapped
  made := h.made.trans_le hmade

/-- **A released slot is nowhere awaited**: buffers are not shared. -/
theorem Sound.not_awaiting (h : Sound r awaiting) (hslot : r.slots i = some slot)
    (hreleased : slot.released = true) (j : SlotId) : ⟨slot.buffer, j⟩ ∉ awaiting := by
  intro hmem
  obtain ⟨t, ht, hbuffer, hheld⟩ := (h.awaiting_iff _ _).1 hmem
  obtain rfl := h.distinct j i t slot ht hslot hbuffer
  rw [hslot] at ht
  rw [← Option.some.inj ht, hreleased] at hheld
  cases hheld

/-- **One index changes hands**: the bookkeeping holds after if what is put
there is sound and awaited as it says, and nothing else is different. -/
theorem Sound.replace (h : Sound r awaiting) (hslots : r'.slots = Function.update r.slots idx x)
    (hw : r'.width = r.width) (hh : r'.height = r.height) (hmade : r.made ≤ r'.made)
    (hx : ∀ t, x = some t → SlotSound r' t)
    (hfresh : ∀ t, x = some t → ∀ j t', r.slots j = some t' → t'.buffer = t.buffer → j = idx)
    (hidx : ∀ b, ⟨b, idx⟩ ∈ awaiting' ↔ ∃ t, x = some t ∧ t.buffer = b ∧ t.released = false)
    (hother : ∀ b i, i ≠ idx → (⟨b, i⟩ ∈ awaiting' ↔ ⟨b, i⟩ ∈ awaiting))
    (hnodup : awaiting'.Nodup) : Sound r' awaiting' := by
  have hat : r'.slots idx = x := by rw [hslots, Function.update_self]
  have hne : ∀ i, i ≠ idx → r'.slots i = r.slots i := fun i hi => by
    rw [hslots, Function.update_of_ne hi]
  refine ⟨fun b i => ?_, hnodup, fun i t ht => ?_, fun i j t t' ht ht' heq => ?_⟩
  · by_cases hi : i = idx
    · rw [hi, hat]
      exact hidx b
    · rw [hne i hi, hother b i hi]
      exact h.awaiting_iff b i
  · by_cases hi : i = idx
    · rw [hi, hat] at ht
      exact hx t ht
    · rw [hne i hi] at ht
      exact (h.slot i t ht).mono hw hh hmade
  · by_cases hi : i = idx
    · by_cases hj : j = idx
      · rw [hi, hj]
      · rw [hi, hat] at ht
        rw [hne j hj] at ht'
        exact absurd (hfresh t ht j t' ht' heq.symm) hj
    · rw [hne i hi] at ht
      by_cases hj : j = idx
      · rw [hj, hat] at ht'
        exact absurd (hfresh t' ht' i t ht heq) hi
      · rw [hne j hj] at ht'
        exact h.distinct i j t t' ht ht' heq

/-! ## Making slots -/

theorem createBufferSlot_eq {allocated : Bool} {w h : UInt32}
    (hc : createBufferSlot allocated b w h = some slot) :
    slot = { buffer := b, mapping := List.replicate (bufferSize w h) 0, width := w, height := h,
             released := true, zombie := false } := by
  unfold createBufferSlot at hc
  split at hc
  · exact (Option.some.inj hc).symm
  · cases hc

/-- The fresh buffer of an empty index. -/
theorem Sound.create (h : Sound r awaiting) (hnone : r.slots idx = none)
    (hc : createBufferSlot (allocates idx) r.made r.width r.height = some slot) :
    Sound { r.setSlot idx (some slot) with made := r.made + 1 } awaiting := by
  obtain rfl := createBufferSlot_eq hc
  refine h.replace rfl rfl rfl (Nat.le_succ _) (fun t ht => ?_) (fun t ht j t' ht' heq => ?_)
    (fun b => ?_) (fun _ _ _ => Iff.rfl) h.nodup
  · obtain rfl := Option.some.inj ht
    exact ⟨fun hz => (by cases hz), fun _ => ⟨rfl, rfl⟩, List.length_replicate,
      Nat.lt_succ_self _⟩
  · -- every buffer stored was made before this one
    obtain rfl := Option.some.inj ht
    have hlt := (h.slot j t' ht').made
    simp only at heq
    omega
  · rw [h.awaiting_iff b idx, hnone]
    constructor
    · rintro ⟨t, ht, -⟩
      cases ht
    · rintro ⟨t, ht, -, hheld⟩
      obtain rfl := Option.some.inj ht
      cases hheld

theorem Sound.recreateFrom (allocates : SlotId → Bool) (order : List SlotId)
    (h : Sound r awaiting) : Sound (recreateFrom allocates order r).1 awaiting := by
  induction order generalizing r with
  | nil => exact h
  | cons idx rest ih =>
    rw [ShmRenderer.recreateFrom]
    split
    · exact ih h
    · rename_i hnone
      split
      · exact h
      · rename_i slot hc
        exact ih (h.create hnone hc)

theorem Sound.ready (allocates : SlotId → Bool) (h : Sound r awaiting) :
    Sound (r.ready allocates).1 awaiting := by
  unfold ShmRenderer.ready
  split
  · exact h.recreateFrom _ _
  · exact h

/-! ## Resizing, attaching, releasing -/

/-- A resize leaves what is held, as zombies, and drops the rest. -/
theorem outgrow_eq_some : outgrow x = some slot ↔
    ∃ t, x = some t ∧ t.released = false ∧ slot = { t with zombie := true } := by
  cases x with
  | none => simp [outgrow]
  | some t =>
    by_cases hreleased : t.released = true
    · simp [outgrow, hreleased]
    · simp only [outgrow, hreleased, Option.some.injEq, exists_eq_left']
      simp [eq_comm]

theorem Sound.resize {newW newH : UInt32} (h : Sound r awaiting) :
    Sound (r.resize newW newH).1 awaiting := by
  unfold ShmRenderer.resize
  split
  · exact h
  · refine ⟨fun b i => ?_, h.nodup, fun i t ht => ?_, fun i j t t' ht ht' heq => ?_⟩
    · rw [h.awaiting_iff]
      constructor
      · rintro ⟨t, ht, hb, hheld⟩
        exact ⟨_, outgrow_eq_some.2 ⟨t, ht, hheld, rfl⟩, hb, hheld⟩
      · rintro ⟨t, ht, hb, hheld⟩
        obtain ⟨u, hu, -, rfl⟩ := outgrow_eq_some.1 ht
        exact ⟨u, hu, hb, hheld⟩
    · obtain ⟨u, hu, hheld, rfl⟩ := outgrow_eq_some.1 ht
      have hsound := h.slot i u hu
      exact ⟨fun _ => hheld, fun hz => (by cases hz), hsound.mapped, hsound.made⟩
    · obtain ⟨u, hu, -, rfl⟩ := outgrow_eq_some.1 ht
      obtain ⟨u', hu', -, rfl⟩ := outgrow_eq_some.1 ht'
      exact h.distinct i j u u' hu hu' heq

/-- **A free slot is attached**, with whatever was drawn in it. -/
theorem Sound.attach (h : Sound r awaiting) (hslot : r.slots idx = some slot)
    (hfree : slot.free = true) {mapping : Bytes} (hlen : mapping.length = slot.mapping.length) :
    Sound (r.attach idx { slot with mapping }).1 (awaiting ++ [⟨slot.buffer, idx⟩]) := by
  have hsound := h.slot idx slot hslot
  have hreleased : slot.released = true := by
    simp only [BufferSlot.free, Bool.and_eq_true] at hfree
    exact hfree.1
  have hnot := h.not_awaiting hslot hreleased
  refine h.replace rfl rfl rfl le_rfl (fun t ht => ?_) (fun t ht j t' ht' heq => ?_)
    (fun b => ?_) (fun b i hi => ?_) ?_
  · obtain rfl := Option.some.inj ht
    exact ⟨fun _ => rfl, hsound.current, by rw [hlen]; exact hsound.mapped, hsound.made⟩
  · obtain rfl := Option.some.inj ht
    exact h.distinct j idx t' slot ht' hslot heq
  · rw [List.mem_append, List.mem_singleton, Attached.mk.injEq]
    constructor
    · rintro (hmem | ⟨rfl, -⟩)
      · obtain ⟨t, ht, -, hheld⟩ := (h.awaiting_iff b idx).1 hmem
        rw [hslot] at ht
        rw [← Option.some.inj ht, hreleased] at hheld
        cases hheld
      · exact ⟨_, rfl, rfl, rfl⟩
    · rintro ⟨t, ht, hb, -⟩
      obtain rfl := Option.some.inj ht
      exact .inr ⟨hb.symm, rfl⟩
  · simp [hi]
  · exact List.nodup_append.2 ⟨h.nodup, List.nodup_singleton _, fun e he e' he' heq => by
      rw [List.mem_singleton.1 he'] at heq
      exact hnot idx (heq ▸ he)⟩

/-- **A release is handled**: it is for the buffer stored at its index. -/
theorem Sound.release {e : Attached} (h : Sound r (e :: awaiting)) :
    ∃ slot, r.slots e.slot = some slot ∧ slot.buffer = e.buffer ∧ slot.released = false ∧
      Sound (r.releaseSlot e.slot).1 awaiting := by
  obtain ⟨slot, hslot, hb, hheld⟩ := (h.awaiting_iff e.buffer e.slot).1 (List.mem_cons_self ..)
  refine ⟨slot, hslot, hb, hheld, ?_⟩
  have hsound := h.slot e.slot slot hslot
  obtain ⟨hnot, hnodup⟩ := List.nodup_cons.1 h.nodup
  -- an index awaits the release of the buffer it stores, and of that one once
  have hidx : ∀ b, ⟨b, e.slot⟩ ∉ awaiting := by
    intro b hmem
    obtain ⟨t, ht, htb, -⟩ := (h.awaiting_iff b e.slot).1 (List.mem_cons_of_mem _ hmem)
    rw [hslot] at ht
    rw [← htb, ← Option.some.inj ht, hb] at hmem
    exact hnot hmem
  have hother : ∀ b i, i ≠ e.slot → (⟨b, i⟩ ∈ awaiting ↔ ⟨b, i⟩ ∈ e :: awaiting) := by
    intro b i hi
    rw [List.mem_cons]
    refine ⟨.inr, fun hmem => hmem.resolve_left fun heq => hi ?_⟩
    rw [← heq]
  rw [ShmRenderer.releaseSlot, hslot]
  dsimp only
  split
  · refine h.replace rfl rfl rfl le_rfl (fun t ht => (by cases ht))
      (fun t ht => (by cases ht))
      (fun b => ?_) hother hnodup
    exact ⟨fun hmem => absurd hmem (hidx b), fun ⟨_, ht, _⟩ => by cases ht⟩
  · rename_i hzombie
    refine h.replace rfl rfl rfl le_rfl (fun t ht => ?_) (fun t ht j t' ht' heq => ?_)
      (fun b => ?_) hother hnodup
    · obtain rfl := Option.some.inj ht
      exact ⟨fun hz => absurd hz hzombie, hsound.current, hsound.mapped, hsound.made⟩
    · obtain rfl := Option.some.inj ht
      exact h.distinct j e.slot t' slot ht' hslot heq
    · refine ⟨fun hmem => absurd hmem (hidx b), fun ⟨t, ht, _, hheld'⟩ => ?_⟩
      obtain rfl := Option.some.inj ht
      cases hheld'

/-! ## Safety

What each operation does to the outside is judged by the releases awaited
when it begins: `Kept` collects that with the bookkeeping after it. -/

/-- **A safe effect**: what is written, attached or dropped is in no
compositor's hands, and a release is for the buffer stored at its index. -/
def Effect.Safe (awaiting : List Attached) : Effect → Prop
  | .copy _ slot frameLen c => slot.zombie = false ∧ (∀ i, ⟨slot.buffer, i⟩ ∉ awaiting) ∧
      c.InBounds frameLen slot.mapping.length
  | .attach _ slot width height => slot.zombie = false ∧ (∀ i, ⟨slot.buffer, i⟩ ∉ awaiting) ∧
      slot.width = width ∧ slot.height = height
  | .drop slot => ∀ i, ⟨slot.buffer, i⟩ ∉ awaiting
  | .release buffer stored => ∃ slot, stored = some slot ∧ slot.buffer = buffer

/-- An operation keeps the bookkeeping, and its effects are safe. -/
structure Kept (awaiting : List Attached) (r' : ShmRenderer) (effects : List Effect) : Prop where
  sound : Sound r' (awaiting ++ effects.filterMap Effect.attached)
  safe : ∀ e ∈ effects, e.Safe awaiting
  /-- The size something is attached at is the renderer's. -/
  sized : ∀ idx slot width height, .attach idx slot width height ∈ effects →
    width = r'.width ∧ height = r'.height

variable {effects effects' : List Effect} {frame : DecodedFrame}

theorem Sound.kept (h : Sound r awaiting) : Kept awaiting r [] :=
  ⟨by simpa using h, fun e he => (by cases he), fun _ _ _ _ he => (by cases he)⟩

/-- A free slot, as both uses of it read it. -/
theorem Sound.of_free (h : Sound r awaiting) (hslot : r.slots idx = some slot)
    (hfree : slot.free = true) : slot.zombie = false ∧ (∀ i, ⟨slot.buffer, i⟩ ∉ awaiting) ∧
      slot.width = r.width ∧ slot.height = r.height := by
  simp only [BufferSlot.free, Bool.and_eq_true, Bool.not_eq_true'] at hfree
  obtain ⟨hreleased, hzombie⟩ := hfree
  exact ⟨hzombie, h.not_awaiting hslot hreleased, (h.slot idx slot hslot).current hzombie⟩

/-- Resizing drops what is released, and nothing else. -/
theorem mem_resize {newW newH : UInt32} {e : Effect} (he : e ∈ (r.resize newW newH).2) :
    ∃ i slot, r.slots i = some slot ∧ slot.released = true ∧ e = .drop slot := by
  unfold ShmRenderer.resize at he
  split at he
  · cases he
  · obtain ⟨i, -, hi⟩ := List.mem_filterMap.1 he
    unfold dropped at hi
    split at hi
    · rename_i slot hslot
      split at hi
      · rename_i hreleased
        exact ⟨i, slot, hslot, hreleased, (Option.some.inj hi).symm⟩
      · cases hi
    · cases hi

theorem resize_attached (newW newH : UInt32) :
    (r.resize newW newH).2.filterMap Effect.attached = [] := by
  refine List.filterMap_eq_nil_iff.2 fun e he => ?_
  obtain ⟨i, slot, -, -, rfl⟩ := mem_resize he
  rfl

theorem Sound.kept_resize (newW newH : UInt32) (h : Sound r awaiting) :
    Kept awaiting (r.resize newW newH).1 (r.resize newW newH).2 := by
  refine ⟨by rw [resize_attached, List.append_nil]; exact h.resize, fun e he => ?_,
    fun _ _ _ _ he => ?_⟩
  · obtain ⟨i, slot, hslot, hreleased, rfl⟩ := mem_resize he
    exact h.not_awaiting hslot hreleased
  · obtain ⟨i, slot, -, -, heq⟩ := mem_resize he
    cases heq

/-- A release has no effect but to drop a zombie. -/
theorem releaseSlot_drops {e : Effect} (he : e ∈ (r.releaseSlot idx).2) : ∃ t, e = .drop t := by
  unfold ShmRenderer.releaseSlot at he
  split at he
  · cases he
  · split at he
    · exact ⟨_, List.mem_singleton.1 he⟩
    · cases he

/-- What a release drops was the released buffer's, and awaits no other. -/
theorem Sound.release_safe {e : Attached} (h : Sound r (e :: awaiting)) :
    ∀ f ∈ (r.releaseSlot e.slot).2, f.Safe awaiting := by
  intro f hf
  obtain ⟨slot, hslot, hb, -, hafter⟩ := h.release
  rw [ShmRenderer.releaseSlot, hslot] at hf
  dsimp only at hf
  split at hf
  · rename_i hzombie
    rw [List.mem_singleton.1 hf]
    intro j hmem
    obtain ⟨t, ht, htb, -⟩ := (h.awaiting_iff slot.buffer j).1 (List.mem_cons_of_mem _ hmem)
    obtain rfl := h.distinct j e.slot t slot ht hslot htb
    rw [hb] at hmem
    exact (List.nodup_cons.1 h.nodup).1 hmem
  · cases hf

theorem released_eq_true : r.released idx = true ↔
    ∃ slot, r.slots idx = some slot ∧ slot.free = true := by
  rw [ShmRenderer.released, Option.any_eq_true]

/-- **Priming**: the first free slot is attached as it is, if there is one. -/
theorem prime_cases : r.prime = (r, [], false) ∨
    ∃ idx slot, r.slots idx = some slot ∧ slot.free = true ∧
      r.prime = ((r.attach idx slot).1, [(r.attach idx slot).2], true) := by
  unfold ShmRenderer.prime
  split
  · exact .inl rfl
  · rename_i idx hfind
    obtain ⟨slot, hslot, hfree⟩ := released_eq_true.1 (List.find?_some hfind)
    refine .inr ⟨idx, slot, hslot, hfree, ?_⟩
    rw [hslot]

theorem Sound.kept_prime (h : Sound r awaiting) : Kept awaiting r.prime.1 r.prime.2.1 := by
  obtain hprime | ⟨idx, slot, hslot, hfree, hprime⟩ := prime_cases (r := r)
  · rw [hprime]
    exact h.kept
  · rw [hprime]
    refine ⟨h.attach hslot hfree rfl, fun e he => ?_, fun _ _ _ _ he => ?_⟩
    · rw [List.mem_singleton.1 he]
      exact h.of_free hslot hfree
    · cases List.mem_singleton.1 he
      exact ⟨rfl, rfl⟩

/-- Operations one after the other, when the first attaches nothing. -/
theorem Kept.trans (h : Kept awaiting r effects)
    (hnone : effects.filterMap Effect.attached = []) (h' : Kept awaiting r' effects') :
    Kept awaiting r' (effects ++ effects') := by
  refine ⟨by rw [List.filterMap_append, hnone, List.nil_append]; exact h'.sound, fun e he => ?_,
    fun idx slot width height he => ?_⟩
  · rcases List.mem_append.1 he with he | he
    · exact h.safe e he
    · exact h'.safe e he
  · rcases List.mem_append.1 he with he | he
    · cases List.filterMap_eq_nil_iff.1 hnone _ he
    · exact h'.sized idx slot width height he

theorem Sound.kept_resizeAndPrime (allocates : SlotId → Bool) (newW newH : UInt32)
    (h : Sound r awaiting) :
    Kept awaiting (r.resizeAndPrime allocates newW newH).1
      (r.resizeAndPrime allocates newW newH).2.1 := by
  have hresize := h.kept_resize newW newH
  have hnone := resize_attached (r := r) newW newH
  have hsound : Sound (r.resize newW newH).1 awaiting := by
    simpa [hnone] using hresize.sound
  have hfilled := hsound.recreateFrom allocates (List.finRange 3)
  unfold ShmRenderer.resizeAndPrime
  dsimp only
  split <;> rename_i filled hrecreate <;>
    rw [← ShmRenderer.recreateSlots, hrecreate] at hfilled
  · refine ⟨?_, hresize.safe, fun _ _ _ _ he => ?_⟩
    · rw [hnone, List.append_nil]
      exact hfilled
    · cases List.filterMap_eq_nil_iff.1 hnone _ he
  · exact hresize.trans hnone hfilled.kept_prime

/-! ## Drawing -/

/-- **Drawing**: the frame is drawn into a free slot of about its size, or
nothing is done but filling the empty indices. -/
theorem render_cases (r : ShmRenderer) (allocates : SlotId → Bool) (frame : DecodedFrame) :
    (∃ answer, answer ≠ some true ∧
      r.render allocates frame = ((r.ready allocates).1, [], answer)) ∨
    ∃ idx slot, (r.ready allocates).2 = true ∧ (r.ready allocates).1.pick = some (idx, slot) ∧
      tolerates slot frame = true ∧
      r.render allocates frame =
        ({ ((r.ready allocates).1.attach idx (drawn slot frame)).1 with
            renderCount := (r.ready allocates).1.renderCount + 1 },
          copies idx slot frame ++ [((r.ready allocates).1.attach idx (drawn slot frame)).2],
          some true) := by
  unfold ShmRenderer.render
  split <;> rename_i filled hready <;> rw [hready]
  · exact .inl ⟨none, by simp, rfl⟩
  · split
    · exact .inl ⟨some false, by simp, rfl⟩
    · rename_i idx slot hpick
      split
      · rename_i htolerates
        exact .inr ⟨idx, slot, rfl, hpick, htolerates, rfl⟩
      · exact .inl ⟨some false, by simp, rfl⟩

/-- The slot picked is stored at its index, and free. -/
theorem of_pick (hpick : r.pick = some (idx, slot)) :
    r.slots idx = some slot ∧ slot.free = true := by
  simp only [ShmRenderer.pick, Option.bind_eq_some_iff, Option.map_eq_some_iff,
    Prod.mk.injEq] at hpick
  obtain ⟨_, hfind, _, hslot, rfl, rfl⟩ := hpick
  obtain ⟨t, ht, hfree⟩ := released_eq_true.1 (List.find?_some hfind)
  rw [hslot] at ht
  obtain rfl := Option.some.inj ht
  exact ⟨hslot, hfree⟩

/-- The mapping of a slot a frame is drawn into is the slot's picture. -/
theorem SlotSound.mapping_eq (h : SlotSound r slot) (htolerates : tolerates slot frame = true) :
    slot.mapping.length = slot.width.toNat * 4 * slot.height.toNat := by
  simp only [tolerates, Bool.and_eq_true, decide_eq_true_eq] at htolerates
  rw [h.mapped, bufferSize_eq htolerates.1 htolerates.2]

theorem Sound.kept_render (allocates : SlotId → Bool) (frame : DecodedFrame)
    (h : Sound r awaiting) :
    Kept awaiting (r.render allocates frame).1 (r.render allocates frame).2.1 := by
  have hready := h.ready allocates
  obtain ⟨answer, -, hrender⟩ | ⟨idx, slot, -, hpick, htolerates, hrender⟩ :=
    render_cases r allocates frame
  · rw [hrender]
    exact hready.kept
  · obtain ⟨hslot, hfree⟩ := of_pick hpick
    have hlen := (hready.slot idx slot hslot).mapping_eq htolerates
    have hcopies : (copies idx slot frame).filterMap Effect.attached = [] := by
      refine List.filterMap_eq_nil_iff.2 fun e he => ?_
      obtain ⟨c, -, rfl⟩ := List.mem_map.1 he
      rfl
    obtain ⟨hzombie, hnot, hsize⟩ := hready.of_free hslot hfree
    have hattach := hready.attach hslot hfree (length_blitInto hlen frame)
    rw [hrender]
    refine ⟨?_, fun e he => ?_, fun _ _ _ _ he => ?_⟩
    · rw [List.filterMap_append, hcopies, List.nil_append]
      exact ⟨hattach.awaiting_iff, hattach.nodup,
        fun i t ht => (hattach.slot i t ht).mono rfl rfl le_rfl, hattach.distinct⟩
    · rcases List.mem_append.1 he with he | he
      · obtain ⟨c, hc, rfl⟩ := List.mem_map.1 he
        rw [hlen] at hc
        exact ⟨hzombie, hnot, by rw [hlen]; exact blitsOf_inBounds hc⟩
      · rw [List.mem_singleton.1 he]
        exact ⟨hzombie, hnot, hsize⟩
    · rcases List.mem_append.1 he with he | he
      · cases List.filterMap_eq_nil_iff.1 hcopies _ he
      · cases List.mem_singleton.1 he
        exact ⟨rfl, rfl⟩

/-! ## Runs -/

variable {s s' : State} {a : Action}

/-- The bookkeeping of a state. -/
def State.Booked (s : State) : Prop := Sound s.renderer s.awaiting

theorem Kept.booked (h : Kept s.awaiting r effects) : (s.after r effects).Booked := by
  refine h.sound.perm ?_
  simp only [State.awaiting, State.after, List.append_assoc]
  exact List.Perm.append_left _ List.perm_append_comm

/-- **One step**: the bookkeeping is kept, every effect is safe, and what is
attached has the size of the renderer. -/
theorem State.Booked.act (h : s.Booked) (hact : s.act a = some (s', effects)) :
    s'.Booked ∧ (∀ e ∈ effects, e.Safe (s.found a).awaiting) ∧
      ∀ idx slot width height, .attach idx slot width height ∈ effects →
        width = s'.renderer.width ∧ height = s'.renderer.height := by
  cases a with
  | resize newW newH =>
    cases hact
    have hkept := Sound.kept_resize newW newH h
    exact ⟨hkept.booked, hkept.safe, hkept.sized⟩
  | resizeAndPrime allocates newW newH =>
    cases hact
    have hkept := Sound.kept_resizeAndPrime allocates newW newH h
    exact ⟨hkept.booked, hkept.safe, hkept.sized⟩
  | prime =>
    cases hact
    have hkept := Sound.kept_prime h
    exact ⟨hkept.booked, hkept.safe, hkept.sized⟩
  | render allocates frame =>
    cases hact
    have hkept := Sound.kept_render allocates frame h
    exact ⟨hkept.booked, hkept.safe, hkept.sized⟩
  | compositorReleases n =>
    simp only [State.act] at hact
    split at hact
    · cases hact
    · rename_i e he
      cases hact
      obtain ⟨hlt, rfl⟩ := List.getElem?_eq_some_iff.1 he
      refine ⟨Sound.perm h ?_, fun e he => (by cases he), fun _ _ _ _ he => (by cases he)⟩
      -- a release only moves from the compositor into the queue
      have hheld : s.held.Perm (s.held[n] :: s.held.eraseIdx n) :=
        (List.getElem_cons_eraseIdx_perm hlt).symm
      have hlast : (s.held[n] :: (s.held.eraseIdx n ++ s.releases)).Perm
          (s.held.eraseIdx n ++ (s.releases ++ [s.held[n]])) := by
        rw [← List.append_assoc]
        exact (List.perm_append_singleton _ _).symm
      exact (hheld.append_right _).trans hlast
  | dispatch =>
    simp only [State.act] at hact
    split at hact
    · cases hact
    · rename_i e rest hreleases
      cases hact
      have hsound : Sound s.renderer (e :: (s.held ++ rest)) := by
        refine Sound.perm h ?_
        rw [State.awaiting, hreleases]
        exact List.perm_middle
      obtain ⟨slot, hslot, hb, -, hafter⟩ := hsound.release
      have hfound : (s.found .dispatch).awaiting = s.held ++ rest := by
        rw [State.found, State.awaiting, hreleases, List.tail_cons]
      refine ⟨hafter, fun f hf => ?_, fun idx slot width height he => ?_⟩
      · rw [hfound]
        rcases List.mem_cons.1 hf with rfl | hf
        · exact ⟨slot, hslot, hb⟩
        · exact hsound.release_safe f hf
      · rcases List.mem_cons.1 he with heq | he
        · cases heq
        · obtain ⟨t, heq⟩ := releaseSlot_drops he
          cases heq

theorem step_eq_some : machine.step s a = some s' ↔ ∃ effects, s.act a = some (s', effects) := by
  simp [machine]

/-- A fresh renderer, its slots all released. -/
theorem booked_of_init (h : machine.init s) : s.Booked := by
  obtain ⟨width, height, allocates, hslots, hheld, hreleases, -⟩ := h
  have hbare : Sound (ShmRenderer.bare width height) [] :=
    ⟨fun b i => ⟨fun hmem => (by cases hmem), fun ⟨_, ht, _⟩ => (by cases ht)⟩, List.nodup_nil,
      fun i t ht => (by cases ht), fun i j t t' ht => (by cases ht)⟩
  have hfilled := hbare.recreateFrom allocates (List.finRange 3)
  rw [← ShmRenderer.recreateSlots, hslots] at hfilled
  rw [State.Booked, State.awaiting, hheld, hreleases]
  exact hfilled

theorem booked_of_reachable (h : machine.Reachable s) : s.Booked := by
  refine h.invariant (fun _ => booked_of_init) fun s a s' hstep hbooked => ?_
  obtain ⟨effects, hact⟩ := step_eq_some.1 hstep
  exact (hbooked.act hact).1

/-- **Slots are safe**, in every run: what the renderer writes to, attaches
or drops is not with the compositor, nor a zombie when written or attached;
copies stay inside frame and mapping; what is attached has the renderer's
size; and a release is for the buffer its index stores. -/
theorem slots_safe (h : machine.Reachable s) (hact : s.act a = some (s', effects)) :
    (∀ e ∈ effects, e.Safe (s.found a).awaiting) ∧
      ∀ idx slot width height, .attach idx slot width height ∈ effects →
        width = s'.renderer.width ∧ height = s'.renderer.height :=
  ((booked_of_reachable h).act hact).2

/-- A fresh window. -/
def first (width height : UInt32) : State :=
  { renderer := ((ShmRenderer.bare width height).recreateSlots fun _ => true).1
    held := [], releases := [], shown := [] }

/-- A primed slot becomes a zombie, and is dropped when its release comes. -/
theorem slots_safe_zombie : ∃ s s' effects, machine.Reachable s ∧
    s.act .dispatch = some (s', effects) ∧ effects.length = 2 ∧
    (∀ e ∈ effects, e.Safe (s.found .dispatch).awaiting) ∧
      ∀ idx slot width height, .attach idx slot width height ∈ effects →
        width = s'.renderer.width ∧ height = s'.renderer.height := by
  have hfirst : machine.Reachable (first 1 1) :=
    .start ⟨1, 1, fun _ => true, rfl, rfl, rfl, rfl⟩
  have hrun : machine.exec (first 1 1)
      [.prime, .resizeAndPrime (fun _ => true) 2 1, .compositorReleases 0] = some _ := rfl
  have hreach := machine.reach_of_exec _ hfirst hrun
  exact ⟨_, _, _, hreach, rfl, rfl, slots_safe hreach rfl⟩

end Native

end WaylandWebStream
