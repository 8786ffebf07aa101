import WaylandWebStream.Native.Window

/-!
# Picture — the size the server grants and the size the slots have

The server cuts a request to its maximum and rounds it down to even; the
renderer draws no frame that is more than two pixels from its slots. Once
nothing is on its way any more the server's output is what the window's
last size is granted, so the two meet as long as the window is at most
two pixels above the even maximum, and the slots have the window's size.
Otherwise no frame is ever drawn (`picture_iff`).
-/

namespace WaylandWebStream

namespace Native

namespace Window

open Compositor (Size evenFloor sanitizeResolution outputSize)

/-! ## What is granted -/

/-- The server can grant something: its maximum is not below 16. -/
def Usable (max : Size) : Prop := 16 ≤ max.1 ∧ 16 ≤ max.2

instance (max : Size) : Decidable (Usable max) := inferInstanceAs (Decidable (_ ∧ _))

/-- At least the minimum size of the window. -/
def Extent.AtLeast (e : Extent) : Prop := 16 ≤ e.1.toNat ∧ 16 ≤ e.2.toNat

/-- The output, once a size has been asked for. -/
def granted (initial max : Size) (e : Extent) : Size :=
  (sanitizeResolution e.size max).getD initial

variable {initial max output req : Size} {s s' : State} {a : Action} {e : Extent}

theorem sanitizeResolution_of_usable (hmax : Usable max) (he : e.AtLeast) :
    sanitizeResolution e.size max =
      some (evenFloor (min e.1.toNat max.1), evenFloor (min e.2.toNat max.2)) := by
  obtain ⟨hw, hh⟩ := hmax
  obtain ⟨hew, heh⟩ := he
  unfold sanitizeResolution Extent.size evenFloor
  exact if_neg (by omega)

theorem sanitizeResolution_of_not_usable (hmax : ¬ Usable max) (req : Size) :
    sanitizeResolution req max = none := by
  unfold Usable at hmax
  unfold sanitizeResolution evenFloor
  exact if_pos (by omega)

/-- A server that can grant nothing keeps its first size. -/
theorem output_of_not_usable (hmax : ¬ Usable max) (h : (outputSize initial max).Reachable output) :
    output = initial := by
  refine Machine.Reachable.invariant (P := fun size => size = initial) (fun _ hs => hs)
    (fun size req size' hstep hsize => ?_) h
  obtain rfl := Option.some.inj hstep
  rw [sanitizeResolution_of_not_usable hmax, Option.getD_none]
  exact hsize

/-- What was granted before does not matter to a size of the window. -/
theorem getD_output (he : e.AtLeast) (h : (outputSize initial max).Reachable output) :
    (sanitizeResolution e.size max).getD output = granted initial max e := by
  by_cases hmax : Usable max
  · rw [granted, sanitizeResolution_of_usable hmax he]
    rfl
  · rw [granted, output_of_not_usable hmax h]

/-! ## The account of the requests -/

/-- The last request of a size is the last one on its way, or is granted. -/
def Asked (initial max : Size) (s : State) (e : Extent) : Prop :=
  (s.resizes ++ s.wire).getLast? = some e.size ∨
    (s.resizes ++ s.wire = [] ∧ s.output = granted initial max e)

/-- **What the server is told**: the window's size, or a change of it is
still to be noticed or read. -/
structure Informed (initial max : Size) (s : State) : Prop where
  value : s.sizeTx.value = s.window
  seen : s.sizeRx.seen ≤ s.sizeTx.version
  atLeast : s.window.AtLeast
  output : (outputSize initial max).Reachable s.output
  silent : s.told = none → s.wire = [] ∧ s.noticed = false
  told : ∀ e, s.told = some e → e.AtLeast ∧ Asked initial max s e ∧
    (s.sizeTx.hasChanged s.sizeRx = true ∨ s.noticed = true ∨ e = s.window)

/-- What the display thread keeps to itself tells the server nothing. -/
theorem Informed.display (h : Informed initial max s) (configured : Bool)
    (pendingResize : Option Extent) (renderer : Option Native.State) (early later : List Extent) :
    Informed initial max { s with configured, pendingResize, renderer, early, later } :=
  ⟨h.value, h.seen, h.atLeast, h.output, h.silent, h.told⟩

theorem Informed.onRenderer {a : Native.Action} (h : Informed initial max s)
    (hstep : s.onRenderer a = some s') : Informed initial max s' := by
  obtain ⟨w, w', -, -, rfl⟩ := onRenderer_eq_some.1 hstep
  exact h.display ..

theorem Informed.tick {allocates : SlotId → Bool} (h : Informed initial max s)
    (hstep : s.tick allocates = some s') : Informed initial max s' := by
  unfold State.tick at hstep
  split at hstep
  · cases hstep
  · have hnext : Informed initial max { s with pendingResize := none } := h.display ..
    exact hnext.onRenderer hstep

theorem Informed.build {allocates : SlotId → Bool} (h : Informed initial max s)
    (hstep : s.build allocates = some s') : Informed initial max s' := by
  unfold State.build at hstep
  split at hstep
  · rename_i r _ _
    have hnext : Informed initial max { s with
        renderer := some { renderer := r, held := [], releases := [], shown := [] } } :=
      h.display ..
    exact hnext.onRenderer hstep
  · cases hstep

theorem Informed.record (h : Informed initial max s) (e : Extent) :
    Informed initial max (s.record e) := by
  unfold State.record
  split <;> exact h.display ..

/-- A size that is sent is there to be noticed. -/
theorem Informed.setWindow (h : Informed initial max s) (he : e.AtLeast) :
    Informed initial max (s.setWindow e) := by
  refine ⟨rfl, h.seen.trans (Nat.le_succ _), he, h.output, h.silent, fun e' he' => ?_⟩
  obtain ⟨hatLeast, hasked, -⟩ := h.told e' he'
  exact ⟨hatLeast, hasked, .inl (Watch.hasChanged_send h.seen e)⟩

theorem Informed.configure (h : Informed initial max s) (newWidth newHeight : Option Dimension) :
    Informed initial max (s.configure newWidth newHeight) := by
  have he : Extent.AtLeast ((newWidth.map Subtype.val).getD s.width,
      (newHeight.map Subtype.val).getD s.height) := by
    constructor
    · cases newWidth with
      | none => exact h.atLeast.1
      | some n => exact UInt32.le_iff_toNat_le.1 n.2
    · cases newHeight with
      | none => exact h.atLeast.2
      | some n => exact UInt32.le_iff_toNat_le.1 n.2
  unfold State.configure
  dsimp only
  generalize ((newWidth.map Subtype.val).getD s.width,
    (newHeight.map Subtype.val).getD s.height) = e at he
  have hset := (h.record e).setWindow he
  split
  · exact hset.display ..
  · split
    · exact hset.display ..
    · exact h.record e

/-- The window's size goes on its way, behind every other. -/
theorem Informed.tell (h : Informed initial max s) : Informed initial max s.tell := by
  refine ⟨h.value, h.seen, h.atLeast, h.output, fun hnone => (by cases hnone), fun e he => ?_⟩
  obtain rfl := Option.some.inj he
  rw [h.value]
  refine ⟨h.atLeast, .inl ?_, .inr (.inr rfl)⟩
  show (s.resizes ++ (s.wire ++ [s.sizeTx.value.size])).getLast? = some s.window.size
  rw [← List.append_assoc, List.getLast?_concat, h.value]

/-- A request is passed on, and its place among the others is the same. -/
theorem Informed.deliver {rest : List Size} (h : Informed initial max s)
    (hwire : s.wire = req :: rest) :
    Informed initial max { s with wire := rest, resizes := s.resizes ++ [req] } := by
  have hline : s.resizes ++ [req] ++ rest = s.resizes ++ s.wire := by simp [hwire]
  refine ⟨h.value, h.seen, h.atLeast, h.output, fun hnone => ?_, fun e he => ?_⟩
  · rw [(h.silent hnone).1] at hwire
    cases hwire
  · obtain ⟨hatLeast, hasked, hcurrent⟩ := h.told e he
    rw [Asked, ← hline] at hasked
    exact ⟨hatLeast, hasked, hcurrent⟩

/-- **A request is taken**: if it is the last, it is what is granted. -/
theorem Informed.apply {rest : List Size} (h : Informed initial max s)
    (hresizes : s.resizes = req :: rest) :
    Informed initial max { s with
      resizes := rest, output := (sanitizeResolution req max).getD s.output } := by
  have hreach : (outputSize initial max).Reachable ((sanitizeResolution req max).getD s.output) :=
    h.output.next (a := req) rfl
  refine ⟨h.value, h.seen, h.atLeast, hreach, h.silent, fun e he => ?_⟩
  obtain ⟨hatLeast, hasked, hcurrent⟩ := h.told e he
  refine ⟨hatLeast, ?_, hcurrent⟩
  rw [Asked, hresizes, List.cons_append] at hasked
  rcases hasked with hlast | ⟨hnil, -⟩
  · by_cases hrest : rest ++ s.wire = []
    · rw [hrest, List.getLast?_singleton, Option.some.injEq] at hlast
      refine .inr ⟨hrest, ?_⟩
      show (sanitizeResolution req max).getD s.output = _
      rw [hlast]
      exact getD_output hatLeast h.output
    · rw [List.getLast?_cons_of_ne_nil hrest] at hlast
      exact .inl hlast
  · cases hnil

theorem informed_step (h : Informed initial max s) (hstep : s.step max a = some s') :
    Informed initial max s' := by
  cases a with
  | configure newWidth newHeight =>
    cases hstep
    exact h.configure newWidth newHeight
  | build allocates => exact h.build hstep
  | tick allocates => exact h.tick hstep
  | render allocates frame => exact h.onRenderer hstep
  | compositorReleases n => exact h.onRenderer hstep
  | dispatch => exact h.onRenderer hstep
  | announce =>
    obtain ⟨-, heq⟩ := Option.ite_none_right_eq_some.1 hstep
    cases heq
    have htell := h.tell
    refine ⟨htell.value, le_rfl, htell.atLeast, htell.output, htell.silent, fun e he => ?_⟩
    obtain rfl := Option.some.inj he
    obtain ⟨hatLeast, hasked, -⟩ := htell.told _ rfl
    exact ⟨hatLeast, hasked, .inr (.inr h.value)⟩
  | notice =>
    obtain ⟨⟨htold, -, -⟩, heq⟩ := Option.ite_none_right_eq_some.1 hstep
    cases heq
    refine ⟨h.value, le_rfl, h.atLeast, h.output, fun hnone => absurd hnone htold, fun e he => ?_⟩
    obtain ⟨hatLeast, hasked, -⟩ := h.told e he
    exact ⟨hatLeast, hasked, .inr (.inl rfl)⟩
  | resend =>
    obtain ⟨-, heq⟩ := Option.ite_none_right_eq_some.1 hstep
    cases heq
    exact h.tell
  | deliver =>
    simp only [State.step] at hstep
    split at hstep
    · cases hstep
    · rename_i req rest hwire
      obtain ⟨-, heq⟩ := Option.ite_none_right_eq_some.1 hstep
      cases heq
      exact h.deliver hwire
  | apply =>
    simp only [State.step] at hstep
    split at hstep
    · cases hstep
    · rename_i req rest hresizes
      cases hstep
      exact h.apply hresizes

/-- What the other ends do changes nothing the display thread knows. -/
theorem Sized.elsewhere (h : Sized s) (sizeRx : Watch.Receiver) (noticed : Bool)
    (told : Option Extent) (wire resizes : List Size) (output : Size) :
    Sized { s with sizeRx, noticed, told, wire, resizes, output } :=
  ⟨h.booked, h.unbuilt, h.window, h.configured, h.pending, h.slots⟩

theorem sized_step (h : Sized s) (hstep : s.step max a = some s') : Sized s' := by
  cases a with
  | configure newWidth newHeight =>
    cases hstep
    exact h.configure newWidth newHeight
  | build allocates => exact h.build hstep
  | tick allocates => exact h.tick hstep
  | render allocates frame => exact h.onRenderer rfl hstep
  | compositorReleases n => exact h.onRenderer rfl hstep
  | dispatch => exact h.onRenderer rfl hstep
  | announce =>
    obtain ⟨-, heq⟩ := Option.ite_none_right_eq_some.1 hstep
    cases heq
    exact h.elsewhere ..
  | notice =>
    obtain ⟨-, heq⟩ := Option.ite_none_right_eq_some.1 hstep
    cases heq
    exact h.elsewhere ..
  | resend =>
    obtain ⟨-, heq⟩ := Option.ite_none_right_eq_some.1 hstep
    cases heq
    exact h.elsewhere ..
  | deliver =>
    simp only [State.step] at hstep
    split at hstep
    · cases hstep
    · obtain ⟨-, heq⟩ := Option.ite_none_right_eq_some.1 hstep
      cases heq
      exact h.elsewhere ..
  | apply =>
    simp only [State.step] at hstep
    split at hstep
    · cases hstep
    · cases hstep
      exact h.elsewhere ..

theorem sized_of_reachable (h : (machine initial max).Reachable s) : Sized s := by
  refine h.invariant (fun s hs => ?_) fun s a s' hstep hsized => sized_step hsized hstep
  obtain ⟨output, resizes, -, rfl⟩ := hs
  exact ⟨fun w hw => (by cases hw), fun _ => rfl, rfl, iff_of_false nofun (not_not.2 rfl),
    fun e he => (by cases he), fun w hw => (by cases hw)⟩

theorem informed_of_reachable (h : (machine initial max).Reachable s) : Informed initial max s := by
  refine h.invariant (fun s hs => ?_) fun s a s' hstep hinformed => informed_step hinformed hstep
  obtain ⟨output, resizes, houtput, rfl⟩ := hs
  have hfirst : Extent.AtLeast INITIAL_WINDOW_SIZE := ⟨by decide, by decide⟩
  exact ⟨rfl, le_rfl, hfirst, houtput, fun _ => ⟨rfl, rfl⟩,
    fun e he => (by cases he)⟩

/-! ## When nothing is on its way any more -/

/-- **Settled**: the last size has been asked for, and the server has
applied what it was asked. -/
structure Settled (s : State) : Prop where
  pendingResize : s.pendingResize = none
  told : s.told ≠ none
  noticed : s.noticed = false
  seen : s.sizeTx.hasChanged s.sizeRx = false
  wire : s.wire = []
  resizes : s.resizes = []

/-- **Settled, the output is what the window is granted.** -/
theorem Settled.output_eq (h : Settled s) (hinformed : Informed initial max s) :
    s.output = granted initial max s.window := by
  obtain ⟨e, he⟩ := Option.ne_none_iff_exists'.1 h.told
  obtain ⟨-, hasked, hcurrent⟩ := hinformed.told e he
  rw [h.seen, h.noticed] at hcurrent
  obtain rfl : e = s.window := by simpa using hcurrent
  rw [Asked, h.resizes, h.wire] at hasked
  rcases hasked with hlast | ⟨-, houtput⟩
  · cases hlast
  · exact houtput

/-- Two lengths within the renderer's tolerance. -/
def Close (m n : ℕ) : Prop := m ≤ n + 2 ∧ n ≤ m + 2

instance (m n : ℕ) : Decidable (Close m n) := inferInstanceAs (Decidable (_ ∧ _))

/-- The server's frames are within the tolerance of the slots. -/
def InTolerance (output : Size) (w : Native.State) : Prop :=
  Close output.1 w.renderer.width.toNat ∧ Close output.2 w.renderer.height.toNat

instance (output : Size) (w : Native.State) : Decidable (InTolerance output w) :=
  inferInstanceAs (Decidable (_ ∧ _))

/-- A frame the server produces: it has the output's size. -/
def Produced (output : Size) (frame : DecodedFrame) : Prop :=
  frame.width.toNat = output.1 ∧ frame.height.toNat = output.2

/-- **The window fits**: it is at most two pixels above the even part of
the maximum. A window sized too late has slots of 1280x720 and fits
around that; and where the maximum is below 16 it is the first size of
the server that must be around the slots'. -/
def Fits (initial max : Size) (early later : List Extent) : Prop :=
  let window := (windowOf early later).size
  let slots := (slotsOf early later).size
  if Usable max then
    if Late early later then
      (1278 ≤ min window.1 max.1 ∧ min window.1 max.1 ≤ 1283) ∧
        718 ≤ min window.2 max.2 ∧ min window.2 max.2 ≤ 723
    else window.1 ≤ evenFloor max.1 + 2 ∧ window.2 ≤ evenFloor max.2 + 2
  else Close initial.1 slots.1 ∧ Close initial.2 slots.2

instance (initial max : Size) (early later : List Extent) :
    Decidable (Fits initial max early later) :=
  inferInstanceAs (Decidable (ite _ (ite _ _ _) _))

/-- A length cut to a maximum and rounded is close to itself exactly when
it is not much above the maximum. -/
theorem close_granted {m n : ℕ} : Close (evenFloor (min n m)) n ↔ n ≤ evenFloor m + 2 := by
  unfold Close evenFloor
  omega

/-- And to the slots of a late window exactly when it is around theirs. -/
theorem close_granted_wide {n : ℕ} :
    Close (evenFloor n) (INITIAL_WINDOW_SIZE.1.toNat) ↔ 1278 ≤ n ∧ n ≤ 1283 := by
  show evenFloor n ≤ 1280 + 2 ∧ 1280 ≤ evenFloor n + 2 ↔ _
  unfold evenFloor
  omega

theorem close_granted_high {n : ℕ} :
    Close (evenFloor n) (INITIAL_WINDOW_SIZE.2.toNat) ↔ 718 ≤ n ∧ n ≤ 723 := by
  show evenFloor n ≤ 720 + 2 ∧ 720 ≤ evenFloor n + 2 ↔ _
  unfold evenFloor
  omega

/-- The output is within the tolerance exactly when the window fits. -/
theorem Settled.inTolerance_iff (h : Settled s) (hsized : Sized s)
    (hinformed : Informed initial max s) {w : Native.State} (hw : s.renderer = some w) :
    InTolerance s.output w ↔ Fits initial max s.early s.later := by
  have hextent := hsized.slots w hw h.pendingResize
  have hwidth : w.renderer.width = (slotsOf s.early s.later).1 := congrArg Prod.fst hextent
  have hheight : w.renderer.height = (slotsOf s.early s.later).2 := congrArg Prod.snd hextent
  have hatLeast := hinformed.atLeast
  rw [InTolerance, h.output_eq hinformed, granted, hwidth, hheight, Fits]
  rw [hsized.window] at hatLeast ⊢
  split
  · rename_i hmax
    rw [sanitizeResolution_of_usable hmax hatLeast, Option.getD_some]
    split
    · rename_i hlate
      rw [slotsOf, if_pos hlate]
      exact and_congr close_granted_wide close_granted_high
    · rename_i hlate
      rw [slotsOf, if_neg hlate]
      exact and_congr close_granted close_granted
  · rename_i hmax
    rw [sanitizeResolution_of_not_usable hmax, Option.getD_none]
    rfl

/-- The renderer's comparison, of the frames of an output. -/
theorem tolerates_iff {slot : BufferSlot} {frame : DecodedFrame} {w : Native.State}
    (hsize : slot.width = w.renderer.width ∧ slot.height = w.renderer.height)
    (hframe : Produced output frame) :
    ShmRenderer.tolerates slot frame = true ↔ InTolerance output w := by
  simp only [ShmRenderer.tolerates, Bool.and_eq_true, decide_eq_true_eq, hsize.1, hsize.2, absDiff,
    hframe.1, hframe.2, InTolerance, Close]
  omega

/-- **A frame is drawn** when there is a slot for it, and it is within the
tolerance. -/
theorem render_eq_true_iff {w : Native.State} (hbooked : w.Booked) (allocates : SlotId → Bool)
    {frame : DecodedFrame} (hframe : Produced output frame) :
    (w.renderer.render allocates frame).2.2 = some true ↔
      InTolerance output w ∧ (w.renderer.ready allocates).2 = true ∧
        (w.renderer.ready allocates).1.pick.isSome = true := by
  have hready := Sound.ready allocates hbooked
  have hextent := ShmRenderer.extent_ready (r := w.renderer) allocates
  rw [ShmRenderer.extent, ShmRenderer.extent, Prod.mk.injEq] at hextent
  have hslot : ∀ {idx slot}, (w.renderer.ready allocates).1.pick = some (idx, slot) →
      (ShmRenderer.tolerates slot frame = true ↔ InTolerance output w) := by
    intro idx slot hpick
    obtain ⟨hslot, hfree⟩ := of_pick hpick
    obtain ⟨-, -, hwidth, hheight⟩ := hready.of_free hslot hfree
    exact tolerates_iff ⟨hwidth.trans hextent.1, hheight.trans hextent.2⟩ hframe
  unfold ShmRenderer.render
  split <;> rename_i filled hfilled <;> rw [hfilled] at hslot ⊢
  · simp
  · split
    · rename_i hnone
      simp [hnone]
    · rename_i idx slot hpick
      rw [hpick, ← hslot hpick]
      split
      · rename_i htolerates
        simp [htolerates]
      · rename_i htolerates
        simp [htolerates]

/-- **When the window gets a picture.** Once nothing is on its way any
more, the server's frames are within the tolerance of the slots exactly
when the window fits; and a frame is drawn exactly when it does, a slot
is free and the slots there are could be made. -/
theorem picture_iff (h : (machine initial max).Reachable s) (hsettled : Settled s)
    {w : Native.State} (hw : s.renderer = some w) :
    (InTolerance s.output w ↔ Fits initial max s.early s.later) ∧
      ∀ (allocates : SlotId → Bool) (frame : DecodedFrame), Produced s.output frame →
        ((w.renderer.render allocates frame).2.2 = some true ↔
          Fits initial max s.early s.later ∧ (w.renderer.ready allocates).2 = true ∧
            (w.renderer.ready allocates).1.pick.isSome = true) := by
  have hsized := sized_of_reachable h
  have hiff := hsettled.inTolerance_iff hsized (informed_of_reachable h) hw
  refine ⟨hiff, fun allocates frame hframe => ?_⟩
  rw [← hiff]
  exact render_eq_true_iff (hsized.booked w hw) allocates hframe

/-- The window is configured and the renderer made; the server is asked
for the size and grants it. -/
def opening (newWidth newHeight : Dimension) : List Action :=
  [.configure newWidth newHeight, .build fun _ => true, .announce, .deliver, .apply]

/-- The state before, with nothing asked for by others. -/
theorem reachable_start (initial max : Size) :
    (machine initial max).Reachable (start initial []) :=
  .start ⟨initial, [], .start rfl, rfl⟩

/-- An odd window of an ordinary size, and one that is wider than most. -/
def odd : List Action := opening ⟨1279, by decide⟩ ⟨719, by decide⟩
def wide : List Action := opening ⟨5120, by decide⟩ ⟨1440, by decide⟩

theorem picture_iff_odd : ∃ s w, (machine (1280, 720) (3840, 2160)).Reachable s ∧ Settled s ∧
    s.renderer = some w ∧ s.output = (1278, 718) ∧ InTolerance s.output w := by
  obtain ⟨s, w, hrun, hsettled, hw, houtput, hearly, hlater⟩ : ∃ s w,
      (machine (1280, 720) (3840, 2160)).exec (start (1280, 720) []) odd = some s ∧ Settled s ∧
      s.renderer = some w ∧ s.output = (1278, 718) ∧ s.early = [(1279, 719)] ∧ s.later = [] :=
    ⟨_, _, rfl, ⟨rfl, Option.some_ne_none _, rfl, rfl, rfl, rfl⟩, rfl, rfl, rfl, rfl⟩
  have hreach := (machine _ _).reach_of_exec _ (reachable_start _ _) hrun
  refine ⟨s, w, hreach, hsettled, hw, houtput, (picture_iff hreach hsettled hw).1.2 ?_⟩
  rw [hearly, hlater]
  decide

/-- **A window wider than the maximum** gets no picture: the server grants
3840x1440, and no frame of that size is drawn in slots of 5120x1440. -/
theorem not_picture : ∃ s w, (machine (1280, 720) (3840, 2160)).Reachable s ∧ Settled s ∧
    s.renderer = some w ∧ s.output = (3840, 1440) ∧ ¬ InTolerance s.output w := by
  obtain ⟨s, w, hrun, hsettled, hw, houtput, hwidth⟩ : ∃ s w,
      (machine (1280, 720) (3840, 2160)).exec (start (1280, 720) []) wide = some s ∧ Settled s ∧
      s.renderer = some w ∧ s.output = (3840, 1440) ∧ w.renderer.width = 5120 :=
    ⟨_, _, rfl, ⟨rfl, Option.some_ne_none _, rfl, rfl, rfl, rfl⟩, rfl, rfl, rfl⟩
  have hreach := (machine _ _).reach_of_exec _ (reachable_start _ _) hrun
  refine ⟨s, w, hreach, hsettled, hw, houtput, ?_⟩
  rw [InTolerance, houtput, hwidth]
  exact fun hclose => absurd hclose.1 (by decide)

end Window

end Native

end WaylandWebStream
