import WaylandWebStream.Lib.Latest
import WaylandWebStream.Native.Slots

/-!
# Shown — what is in the buffers the window attaches

A fresh slot is zeroed; it is not cleared before it is drawn in again, and
a blit writes the frame's region only. So at each of its positions a slot
holds what the last frame to cover that position left there, and zero where
none has (`Remembers`). A frame that covers the slot is shown as it is, and
a smaller one with the edge of the earlier frames around it. `Exact` is the
letterbox, and a run shows letterboxes exactly as long as those edges are
black (`shown_exact_iff`).
-/

namespace WaylandWebStream

namespace Native

open ShmRenderer Strided Latest

/-- Which bytes of a pixel are compared: all four, or the three that
`Xrgb8888` reads. -/
inductive Reading
  | bytes
  | colours

/-- A position counts for a reading. -/
def Reading.counts : Reading → ℕ → Bool
  | .bytes, _ => true
  | .colours, p => p % 4 != 3

/-- **The letterbox is shown**: the slot holds that of the frame alone. -/
def Shown.Exact (reading : Reading) (e : Shown) : Prop :=
  ∀ p < e.slot.width.toNat * 4 * e.slot.height.toNat, reading.counts p = true →
    e.slot.mapping[p]? =
      some (letterboxByte e.frame e.slot.width.toNat e.slot.height.toNat p)

instance (reading : Reading) (e : Shown) : Decidable (e.Exact reading) :=
  inferInstanceAs (Decidable (∀ p < _, _ → _))

/-- What a frame that was drawn put at a position of a buffer's picture, if
it was drawn into that buffer and covers the position. -/
def painted (buffer w h p : ℕ) (e : Shown) : Option UInt8 :=
  if e.slot.buffer = buffer ∧ InRegion e.frame w h p then some (letterboxByte e.frame w h p)
  else none

/-- The slot a frame is drawn into, as it is before. -/
def ShmRenderer.target (r : ShmRenderer) (allocates : SlotId → Bool) (frame : DecodedFrame) :
    Option BufferSlot :=
  match r.ready allocates with
  | (_, false) => none
  | (filled, true) =>
    match filled.pick with
    | none => none
    | some (_, slot) => if tolerates slot frame then some slot else none

/-- **Black around the frame**: at each position of the slot outside the
frame's region, the last frame to cover it, of those drawn into the slot's
buffer so far, was black, if there is one. -/
def BlackAround (reading : Reading) (shown : List Shown) (frame : DecodedFrame)
    (slot : BufferSlot) : Prop :=
  ∀ p < slot.width.toNat * 4 * slot.height.toNat, reading.counts p = true →
    ¬ InRegion frame slot.width.toNat slot.height.toNat p →
      ∀ byte, latest (painted slot.buffer slot.width.toNat slot.height.toNat p) shown
        = some byte → byte = 0

/-- A frame goes into a slot whose earlier frames left black around it, if
into any. -/
def Clean (reading : Reading) (s : State) : Action → Prop
  | .render allocates frame =>
    ∀ slot, s.renderer.target allocates frame = some slot → BlackAround reading s.shown frame slot
  | .resize _ _ | .resizeAndPrime _ _ _ | .prime | .compositorReleases _ | .dispatch => True

variable {r r' r'' : ShmRenderer} {awaiting : List Attached} {allocates : SlotId → Bool}
  {frame : DecodedFrame} {slot slot' : BufferSlot} {reading : Reading} {s s' : State} {a : Action}
  {effects : List Effect} {shown : List Shown} {idx : SlotId} {p w h : ℕ}

/-! ## What a slot remembers -/

/-- What the frames drawn so far have left at a position of a slot. -/
def leftAt (shown : List Shown) (slot : BufferSlot) (p : ℕ) : UInt8 :=
  (latest (painted slot.buffer slot.width.toNat slot.height.toNat p) shown).getD 0

/-- **Every slot holds what was drawn into it**, and zeros where nothing
was. No frame was drawn into a buffer yet to be made. -/
structure Remembers (shown : List Shown) (r : ShmRenderer) : Prop where
  holds : ∀ i slot, r.slots i = some slot → ∀ p < slot.mapping.length,
    slot.mapping[p]? = some (leftAt shown slot p)
  made : ∀ e ∈ shown, e.slot.buffer < r.made

/-- The same buffer with the same picture; who has it may differ. -/
structure SamePicture (slot slot' : BufferSlot) : Prop where
  buffer : slot'.buffer = slot.buffer
  mapping : slot'.mapping = slot.mapping
  width : slot'.width = slot.width
  height : slot'.height = slot.height

theorem SamePicture.trans {slot'' : BufferSlot} (h : SamePicture slot slot')
    (h' : SamePicture slot' slot'') : SamePicture slot slot'' :=
  ⟨h'.buffer.trans h.buffer, h'.mapping.trans h.mapping, h'.width.trans h.width,
    h'.height.trans h.height⟩

/-- **Nothing is drawn**: a slot of `r'` is one of `r` with its picture, or
is fresh and black. -/
structure Undrawn (r r' : ShmRenderer) : Prop where
  slots : ∀ i slot', r'.slots i = some slot' →
    (∃ slot, r.slots i = some slot ∧ SamePicture slot slot') ∨
      r.made ≤ slot'.buffer ∧ ∃ n, slot'.mapping = List.replicate n 0
  made : r.made ≤ r'.made

theorem Undrawn.refl (r : ShmRenderer) : Undrawn r r :=
  ⟨fun _ slot hslot => .inl ⟨slot, hslot, rfl, rfl, rfl, rfl⟩, le_rfl⟩

theorem Undrawn.trans (h : Undrawn r r') (h' : Undrawn r' r'') : Undrawn r r'' := by
  refine ⟨fun i slot'' hslot => ?_, h.made.trans h'.made⟩
  obtain ⟨slot', hslot', hsame'⟩ | ⟨hmade, hblack⟩ := h'.slots i slot'' hslot
  · obtain ⟨slot, hslot, hsame⟩ | ⟨hmade, n, hblack⟩ := h.slots i slot' hslot'
    · exact .inl ⟨slot, hslot, hsame.trans hsame'⟩
    · exact .inr ⟨by rw [hsame'.buffer]; exact hmade, n, by rw [hsame'.mapping]; exact hblack⟩
  · exact .inr ⟨h.made.trans hmade, hblack⟩

/-- **What is not drawn in stays as it was**, and a fresh slot is black. -/
theorem Remembers.of_undrawn (h : Remembers shown r) (hundrawn : Undrawn r r') :
    Remembers shown r' := by
  refine ⟨fun i slot' hslot' p hp => ?_, fun e he => (h.made e he).trans_le hundrawn.made⟩
  obtain ⟨slot, hslot, hsame⟩ | ⟨hfresh, n, hblack⟩ := hundrawn.slots i slot' hslot'
  · rw [hsame.mapping] at hp ⊢
    rw [h.holds i slot hslot p hp, leftAt, leftAt, hsame.buffer, hsame.width, hsame.height]
  · -- no frame was drawn into this buffer
    have hnone : latest (painted slot'.buffer slot'.width.toNat slot'.height.toNat p) shown
        = none := by
      refine latest_eq_none fun e he => if_neg fun hpainted => ?_
      have hmade := h.made e he
      omega
    rw [leftAt, hnone, hblack]
    rw [hblack, List.length_replicate] at hp
    exact List.getElem?_replicate_of_lt hp

/-- One index changes hands. -/
theorem undrawn_setSlot {x : Option BufferSlot}
    (hslots : r'.slots = Function.update r.slots idx x) (hmade : r.made ≤ r'.made)
    (hx : ∀ slot', x = some slot' →
      (∃ slot, r.slots idx = some slot ∧ SamePicture slot slot') ∨
        r.made ≤ slot'.buffer ∧ ∃ n, slot'.mapping = List.replicate n 0) : Undrawn r r' := by
  refine ⟨fun i t ht => ?_, hmade⟩
  by_cases hi : i = idx
  · rw [hslots, hi, Function.update_self] at ht
    rw [hi]
    exact hx t ht
  · rw [hslots, Function.update_of_ne hi] at ht
    exact .inl ⟨t, ht, rfl, rfl, rfl, rfl⟩

theorem undrawn_recreateFrom (allocates : SlotId → Bool) (order : List SlotId)
    (r : ShmRenderer) : Undrawn r (recreateFrom allocates order r).1 := by
  induction order generalizing r with
  | nil => exact .refl r
  | cons idx rest ih =>
    rw [recreateFrom]
    split
    · exact ih r
    · split
      · exact .refl r
      · rename_i slot hc
        refine Undrawn.trans (undrawn_setSlot rfl (Nat.le_succ _) fun t ht => .inr ?_) (ih _)
        obtain rfl := Option.some.inj ht
        rw [createBufferSlot_eq hc]
        exact ⟨le_rfl, _, rfl⟩

theorem undrawn_ready (allocates : SlotId → Bool) (r : ShmRenderer) :
    Undrawn r (r.ready allocates).1 := by
  unfold ShmRenderer.ready
  split
  · exact undrawn_recreateFrom _ _ r
  · exact .refl r

theorem undrawn_resize (newW newH : UInt32) (r : ShmRenderer) :
    Undrawn r (r.resize newW newH).1 := by
  unfold ShmRenderer.resize
  split
  · exact .refl r
  · refine ⟨fun i slot' hslot' => ?_, le_rfl⟩
    obtain ⟨slot, hslot, -, rfl⟩ := outgrow_eq_some.1 hslot'
    exact .inl ⟨slot, hslot, rfl, rfl, rfl, rfl⟩

theorem undrawn_prime (r : ShmRenderer) : Undrawn r r.prime.1 := by
  obtain hprime | ⟨idx, slot, hslot, -, hprime⟩ := prime_cases (r := r)
  · rw [hprime]
    exact .refl r
  · rw [hprime]
    refine undrawn_setSlot rfl le_rfl fun t ht => .inl ⟨slot, hslot, ?_⟩
    obtain rfl := Option.some.inj ht
    exact ⟨rfl, rfl, rfl, rfl⟩

theorem undrawn_resizeAndPrime (allocates : SlotId → Bool) (newW newH : UInt32)
    (r : ShmRenderer) : Undrawn r (r.resizeAndPrime allocates newW newH).1 := by
  have hfilled := (undrawn_resize newW newH r).trans
    (undrawn_recreateFrom allocates (List.finRange 3) _)
  unfold ShmRenderer.resizeAndPrime
  dsimp only
  split <;> rename_i filled hrecreate <;> rw [← recreateSlots, hrecreate] at hfilled
  · exact hfilled
  · exact hfilled.trans (undrawn_prime filled)

theorem undrawn_releaseSlot (idx : SlotId) (r : ShmRenderer) :
    Undrawn r (r.releaseSlot idx).1 := by
  unfold ShmRenderer.releaseSlot
  split
  · exact .refl r
  · rename_i slot hslot
    split
    · exact undrawn_setSlot rfl le_rfl fun t ht => (by cases ht)
    · refine undrawn_setSlot rfl le_rfl fun t ht => .inl ⟨slot, hslot, ?_⟩
      obtain rfl := Option.some.inj ht
      exact ⟨rfl, rfl, rfl, rfl⟩

/-! ## Drawing -/

/-- A draw into another buffer leaves nothing here. -/
theorem leftAt_concat_of_ne {e : Shown} (hne : e.slot.buffer ≠ slot.buffer) :
    leftAt (shown ++ [e]) slot p = leftAt shown slot p := by
  have hnone : painted slot.buffer slot.width.toNat slot.height.toNat p e = none :=
    if_neg fun hpainted => hne hpainted.1
  rw [leftAt, latest_concat, hnone, Option.none_or, leftAt]

/-- A draw into the slot leaves the frame in its region, -/
theorem leftAt_drawn (hin : InRegion frame slot.width.toNat slot.height.toNat p) :
    leftAt (shown ++ [⟨frame, drawn slot frame⟩]) slot p
      = letterboxByte frame slot.width.toNat slot.height.toNat p := by
  have hsome : painted slot.buffer slot.width.toNat slot.height.toNat p
      ⟨frame, drawn slot frame⟩
        = some (letterboxByte frame slot.width.toNat slot.height.toNat p) :=
    if_pos ⟨rfl, hin⟩
  rw [leftAt, latest_concat, hsome, Option.some_or, Option.getD_some]

/-- and the earlier frames around it. -/
theorem leftAt_drawn_of_not (hout : ¬ InRegion frame slot.width.toNat slot.height.toNat p) :
    leftAt (shown ++ [⟨frame, drawn slot frame⟩]) slot p = leftAt shown slot p := by
  have hnone : painted slot.buffer slot.width.toNat slot.height.toNat p
      ⟨frame, drawn slot frame⟩ = none := if_neg fun hpainted => hout hpainted.2
  rw [leftAt, latest_concat, hnone, Option.none_or, leftAt]

/-- Inside its region a blit leaves the letterbox of the frame. -/
theorem getElem?_drawn (hlen : slot.mapping.length = slot.width.toNat * 4 * slot.height.toNat)
    (hp : p < slot.mapping.length)
    (hin : InRegion frame slot.width.toNat slot.height.toNat p) :
    (drawn slot frame).mapping[p]?
      = some (letterboxByte frame slot.width.toNat slot.height.toNat p) := by
  have hget := getElem?_blitInto hlen hin
  have hlt : p < (blitInto frame slot.mapping slot.width.toNat slot.height.toNat).length := by
    rw [length_blitInto hlen frame]
    exact hp
  rw [drawn, letterboxByte, if_pos hin, ← hget, List.getElem?_eq_getElem hlt, Option.getD_some]

/-- **The frame is remembered**: the slot it was drawn into holds it over
what it held before, and no other slot is of the same buffer. -/
theorem Remembers.draw (h : Remembers shown r) (hsound : Sound r awaiting)
    (hslot : r.slots idx = some slot)
    (hlen : slot.mapping.length = slot.width.toNat * 4 * slot.height.toNat) :
    Remembers (shown ++ [⟨frame, drawn slot frame⟩])
      { (r.attach idx (drawn slot frame)).1 with renderCount := r.renderCount + 1 } := by
  constructor
  · intro i t ht p hp
    have hslots : Function.update r.slots idx (some { drawn slot frame with released := false }) i
        = some t := ht
    by_cases hi : i = idx
    · rw [hi, Function.update_self] at hslots
      obtain rfl := Option.some.inj hslots
      have hlt : p < slot.mapping.length := by
        rw [← length_blitInto hlen frame]
        exact hp
      show (drawn slot frame).mapping[p]? = some (leftAt (shown ++ [_]) slot p)
      by_cases hin : InRegion frame slot.width.toNat slot.height.toNat p
      · rw [leftAt_drawn hin]
        exact getElem?_drawn hlen hlt hin
      · rw [leftAt_drawn_of_not hin, drawn, getElem?_blitInto_of_not hlen hin]
        exact h.holds idx slot hslot p hlt
    · rw [Function.update_of_ne hi] at hslots
      rw [leftAt_concat_of_ne fun heq => hi (hsound.distinct i idx t slot hslots hslot heq.symm)]
      exact h.holds i t hslots p hp
  · intro e he
    rcases List.mem_append.1 he with he | he
    · exact h.made e he
    · rw [List.mem_singleton.1 he]
      exact (hsound.slot idx slot hslot).made

/-! ## What a render shows -/

/-- The target is stored, and is as large as its mapping. -/
theorem Sound.target (h : Sound r awaiting) (htarget : r.target allocates frame = some slot) :
    (∃ i, (r.ready allocates).1.slots i = some slot) ∧
      slot.mapping.length = slot.width.toNat * 4 * slot.height.toNat := by
  have hready := h.ready allocates
  unfold ShmRenderer.target at htarget
  split at htarget
  · cases htarget
  · rename_i filled hfilled
    rw [hfilled] at hready ⊢
    split at htarget
    · cases htarget
    · rename_i idx t hpick
      split at htarget
      · rename_i htolerates
        obtain rfl := Option.some.inj htarget
        have hslot := (of_pick hpick).1
        exact ⟨⟨idx, hslot⟩, (hready.slot idx t hslot).mapping_eq htolerates⟩
      · cases htarget

/-- What a render shows: its frame, in its target. -/
theorem shown_render : (r.render allocates frame).2.1.filterMap (Effect.shown frame) =
    ((r.target allocates frame).map fun slot => ⟨frame, drawn slot frame⟩).toList := by
  unfold ShmRenderer.render ShmRenderer.target
  rcases r.ready allocates with ⟨filled, _ | _⟩
  · rfl
  · dsimp only
    rcases filled.pick with _ | ⟨idx, slot⟩
    · rfl
    · dsimp only
      split
      · have hcopies : (copies idx slot frame).filterMap (Effect.shown frame) = [] := by
          refine List.filterMap_eq_nil_iff.2 fun e he => ?_
          obtain ⟨c, -, rfl⟩ := List.mem_map.1 he
          rfl
        rw [List.filterMap_append, hcopies]
        rfl
      · rfl

theorem Remembers.render (h : Remembers shown r) (hsound : Sound r awaiting)
    (allocates : SlotId → Bool) (frame : DecodedFrame) :
    Remembers (shown ++ (r.render allocates frame).2.1.filterMap (Effect.shown frame))
      (r.render allocates frame).1 := by
  have hready := h.of_undrawn (undrawn_ready allocates r)
  have hsound' := hsound.ready allocates
  obtain ⟨answer, -, hrender⟩ | ⟨idx, slot, hok, hpick, htolerates, hrender⟩ :=
    render_cases r allocates frame
  · rw [hrender, List.filterMap_nil, List.append_nil]
    exact hready
  · have hslot := (of_pick hpick).1
    have htarget : r.target allocates frame = some slot := by
      unfold ShmRenderer.target
      rcases hr : r.ready allocates with ⟨filled, _ | _⟩ <;> rw [hr] at hok hpick
      · cases hok
      · dsimp only at hpick ⊢
        rw [hpick]
        exact if_pos htolerates
    rw [shown_render, htarget, hrender]
    exact hready.draw hsound' hslot ((hsound'.slot idx slot hslot).mapping_eq htolerates)

/-! ## Runs -/

/-- What a state's slots hold. -/
def State.Remembers (s : State) : Prop := Native.Remembers s.shown s.renderer

/-- **One step**: the slots keep holding what was drawn into them. -/
theorem State.Remembers.step (h : s.Remembers) (hbooked : s.Booked)
    (hstep : machine.step s a = some s') : s'.Remembers := by
  obtain ⟨effects, hact⟩ := step_eq_some.1 hstep
  cases a with
  | resize newW newH =>
    cases hact
    exact Native.Remembers.of_undrawn h (undrawn_resize newW newH _)
  | resizeAndPrime allocates newW newH =>
    cases hact
    exact Native.Remembers.of_undrawn h (undrawn_resizeAndPrime allocates newW newH _)
  | prime =>
    cases hact
    exact Native.Remembers.of_undrawn h (undrawn_prime _)
  | render allocates frame =>
    cases hact
    exact Native.Remembers.render h hbooked allocates frame
  | compositorReleases n =>
    simp only [State.act] at hact
    split at hact
    · cases hact
    · cases hact
      exact h
  | dispatch =>
    simp only [State.act] at hact
    split at hact
    · cases hact
    · rename_i e rest hreleases
      cases hact
      exact Native.Remembers.of_undrawn h (undrawn_releaseSlot e.slot _)

/-- A fresh renderer has black slots. -/
theorem remembers_of_init (h : machine.init s) : s.Remembers := by
  obtain ⟨width, height, allocates, hslots, -, -, hshown⟩ := h
  have hbare : Native.Remembers [] (ShmRenderer.bare width height) :=
    ⟨fun _ _ ht => (by cases ht), fun _ he => (by cases he)⟩
  have hfilled := hbare.of_undrawn (undrawn_recreateFrom allocates (List.finRange 3) _)
  rw [← recreateSlots, hslots] at hfilled
  rw [State.Remembers, hshown]
  exact hfilled

/-- What holds of every state of a run: its bookkeeping, and its pictures. -/
def State.Kept (s : State) : Prop := s.Booked ∧ s.Remembers

theorem State.Kept.step (h : s.Kept) (hstep : machine.step s a = some s') : s'.Kept := by
  obtain ⟨effects, hact⟩ := step_eq_some.1 hstep
  exact ⟨(h.1.act hact).1, h.2.step h.1 hstep⟩

/-- **A drawn slot shows the letterbox exactly when the frames before left
black around it.** -/
theorem exact_drawn (h : Remembers shown r) (hslot : r.slots idx = some slot)
    (hlen : slot.mapping.length = slot.width.toNat * 4 * slot.height.toNat) :
    (Shown.mk frame (drawn slot frame)).Exact reading ↔ BlackAround reading shown frame slot := by
  -- outside the region the slot holds what it remembers
  have hborder : ∀ p < slot.width.toNat * 4 * slot.height.toNat,
      ¬ InRegion frame slot.width.toNat slot.height.toNat p →
        (drawn slot frame).mapping[p]? = some (leftAt shown slot p) := fun p hp hout => by
    rw [drawn, getElem?_blitInto_of_not hlen hout]
    exact h.holds idx slot hslot p (hlen ▸ hp)
  constructor
  · intro hexact p hp hcounts hout byte hbyte
    have hat := (hborder p hp hout).symm.trans (hexact p hp hcounts)
    rw [leftAt, hbyte, Option.getD_some] at hat
    rw [Option.some.inj hat]
    exact if_neg hout
  · intro hblack p hp hcounts
    by_cases hin : InRegion frame slot.width.toNat slot.height.toNat p
    · exact getElem?_drawn hlen (hlen ▸ hp) hin
    · have hzero : leftAt shown slot p = 0 := by
        rw [leftAt]
        rcases hlatest : latest _ shown with _ | byte
        · rfl
        · exact hblack p hp hcounts hin byte hlatest
      refine (hborder p hp hin).trans ?_
      rw [hzero]
      exact congrArg some (if_neg hin).symm

/-- All frames shown so far are letterboxes. -/
def State.AllExact (reading : Reading) (s : State) : Prop := ∀ e ∈ s.shown, e.Exact reading

/-- **One step**: the frames stay letterboxes exactly when the step is clean. -/
theorem State.Kept.allExact_step (h : s.Kept) (hstep : machine.step s a = some s') :
    s'.AllExact reading ↔ Clean reading s a ∧ s.AllExact reading := by
  obtain ⟨effects, hact⟩ := step_eq_some.1 hstep
  obtain ⟨hbooked, hremembers⟩ := h
  cases a with
  | render allocates frame =>
    have hshown : s'.shown = s.shown ++ ((s.renderer.target allocates frame).map fun slot =>
        Shown.mk frame (drawn slot frame)).toList := by
      rw [← shown_render]
      cases hact
      rfl
    have hready := Native.Remembers.of_undrawn hremembers (undrawn_ready allocates s.renderer)
    have hdrawn : ∀ slot, s.renderer.target allocates frame = some slot →
        ((Shown.mk frame (drawn slot frame)).Exact reading ↔
          BlackAround reading s.shown frame slot) := fun slot htarget => by
      obtain ⟨⟨i, hslot⟩, hlen⟩ := Sound.target hbooked htarget
      exact exact_drawn hready hslot hlen
    simp only [AllExact, hshown, List.forall_mem_append, Clean, Option.mem_toList,
      Option.map_eq_some_iff]
    rw [and_comm]
    refine and_congr_left fun _ => ⟨fun hexact slot htarget => ?_, ?_⟩
    · exact (hdrawn slot htarget).1 (hexact _ ⟨slot, htarget, rfl⟩)
    · rintro hclean e ⟨slot, htarget, rfl⟩
      exact (hdrawn slot htarget).2 (hclean slot htarget)
  | resize | resizeAndPrime | prime =>
    cases hact
    exact (and_iff_right trivial).symm
  | compositorReleases | dispatch =>
    simp only [State.act] at hact
    split at hact
    · cases hact
    · cases hact
      exact (and_iff_right trivial).symm

/-- **The window shows the current frame alone exactly in clean runs**: all
frames shown are letterboxes exactly when around each frame drawn the last
frames to reach there, in that buffer, were black. The two paths of the
blit never differ. -/
theorem shown_exact_iff (reading : Reading) {acts : List Action} (h : machine.init s)
    (hrun : machine.exec s acts = some s') :
    ((∀ e ∈ s'.shown, e.Exact reading) ↔ machine.Run (Clean reading) s acts s') ∧
      ∀ (frame : DecodedFrame) (mapping : Bytes) (width height : ℕ),
        mapping.length = width * 4 * height →
          blitInto frame mapping width height = blitRows frame width height mapping := by
  have hkept : s.Kept := ⟨booked_of_init h, remembers_of_init h⟩
  have hiff := Machine.iff_run (P := State.AllExact reading) (fun _ _ _ => State.Kept.step)
    (fun _ _ _ hkept hstep => hkept.allExact_step hstep) hkept hrun
  obtain ⟨_, _, _, -, -, -, hshown⟩ := h
  refine ⟨hiff.trans (and_iff_right fun e he => ?_), fun _ _ _ _ hlen =>
    blitInto_eq_blitRows hlen⟩
  rw [hshown] at he
  cases he

/-! ## Frames that do not shrink -/

/-- The region of a larger frame is larger. -/
theorem InRegion.grow {small : DecodedFrame}
    (hw : min small.width.toNat w ≤ min frame.width.toNat w)
    (hh : min small.height.toNat h ≤ min frame.height.toNat h) (hin : InRegion small w h p) :
    InRegion frame w h p := by
  unfold InRegion top left regionW regionH at *
  omega

/-- **A render is clean whose frame is no smaller, as far as the slot goes,
than any drawn into its buffer before**: so into a fresh buffer, and where
it covers the slot. -/
theorem clean_of_grown
    (hgrown : ∀ slot, s.renderer.target allocates frame = some slot →
      ∀ e ∈ s.shown, e.slot.buffer = slot.buffer →
        min e.frame.width.toNat slot.width.toNat ≤ min frame.width.toNat slot.width.toNat ∧
        min e.frame.height.toNat slot.height.toNat ≤ min frame.height.toNat slot.height.toNat) :
    Clean reading s (.render allocates frame) := by
  intro slot htarget p _ _ hout byte hbyte
  have hnone : latest (painted slot.buffer slot.width.toNat slot.height.toNat p) s.shown
      = none := by
    refine latest_eq_none fun e he => if_neg fun hpainted => hout ?_
    obtain ⟨hw, hh⟩ := hgrown slot htarget e he hpainted.1
    exact hpainted.2.grow hw hh
  rw [hnone] at hbyte
  cases hbyte

/-- Frames of one colour, in a window of 3 × 3. -/
def white4 : DecodedFrame := ⟨4, 4, List.replicate 64 255, by decide, by decide⟩
def grey2 : DecodedFrame := ⟨2, 2, List.replicate 16 128, by decide, by decide⟩

/-- A frame is rendered, and its buffer comes back. -/
def renderAndRelease (frame : DecodedFrame) : List Action :=
  [.render (fun _ => true) frame, .compositorReleases 0, .dispatch]

/-- Frames of one colour each go through the three slots of a window. -/
def thrice (frame : DecodedFrame) : List Action :=
  renderAndRelease frame ++ renderAndRelease frame ++ renderAndRelease frame

/-- **A larger frame after a smaller one**, in the slot of the smaller: all
four are shown alone. -/
theorem shown_exact_iff_larger :
    ∃ s', machine.exec (first 3 3) (thrice grey2 ++ renderAndRelease white4) = some s' ∧
      s'.shown.length = 4 ∧ (∀ e ∈ s'.shown, e.Exact .bytes) ∧
      machine.Run (Clean .bytes) (first 3 3) (thrice grey2 ++ renderAndRelease white4) s' ∧
      ∀ (frame : DecodedFrame) (mapping : Bytes) (width height : ℕ),
        mapping.length = width * 4 * height →
          blitInto frame mapping width height = blitRows frame width height mapping := by
  obtain ⟨s', hrun⟩ : ∃ s', machine.exec (first 3 3) (thrice grey2 ++ renderAndRelease white4)
      = some s' := ⟨_, rfl⟩
  obtain ⟨hiff, hpaths⟩ := shown_exact_iff .bytes
    ⟨3, 3, fun _ => true, rfl, rfl, rfl, rfl⟩ hrun
  obtain ⟨hlength, hexact⟩ : s'.shown.length = 4 ∧ ∀ e ∈ s'.shown, e.Exact .bytes := by
    obtain rfl := Option.some.inj hrun
    decide +kernel
  exact ⟨s', hrun, hlength, hexact, hiff.1 hexact, hpaths⟩

/-- **The edge of an old frame stays**: three frames of 4 × 4 go through the
slots of a 3 × 3 window, and the 2 × 2 frame after them leaves their last
column and row. -/
theorem not_shown_exact : ¬ ∀ s acts s', machine.init s → machine.exec s acts = some s' →
    ∀ e ∈ s'.shown, e.Exact .colours := by
  intro hall
  have hexact := hall (first 3 3) (thrice white4 ++ renderAndRelease grey2) _
    ⟨3, 3, fun _ => true, rfl, rfl, rfl, rfl⟩ rfl
  have hlast := hexact _ (.tail _ (.tail _ (.tail _ (.head _)))) 8 (by decide) rfl
  revert hlast
  decide +kernel

end Native

end WaylandWebStream
