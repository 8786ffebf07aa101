import WaylandWebStream.Compositor.OutputSize
import WaylandWebStream.Lib.Machine
import Mathlib.Logic.Function.Basic
import Mathlib.Data.List.Nodup

/-!
# Configures — what a window is told of the output's size

A new window's fullscreen state is staged and not sent; its first commit
sends it, and so does every resize from the window's creation on. The
set of windows that have had their first configure is kept beside the
space, and the two change together: `Kept`. From that follows the exact
list of configures a window has been sent, `sent_of_exec`.
-/

namespace WaylandWebStream

namespace Compositor

/-- `as i32`. -/
def asI32 (n : ℕ) : ℤ := (n : ℤ).bmod (2 ^ 32)

/-- What a configure suggests to a window. -/
structure ToplevelState where
  size : Option (ℤ × ℤ)
  maximized : Bool
  activated : Bool
  deriving DecidableEq

/-- **The whole output, borderless.** -/
def fullscreen (size : Size) : ToplevelState := ⟨some (asI32 size.1, asI32 size.2), true, true⟩

/-- A toplevel: the state staged for it, and the configures it was sent. -/
structure Toplevel where
  serverPending : Option ToplevelState
  sent : List ToplevelState
  deriving DecidableEq

namespace Toplevel

/-- Nothing staged, nothing sent. -/
def new : Toplevel := ⟨none, []⟩

/-- `current_server_state`: what was last sent. -/
def currentServerState (t : Toplevel) : ToplevelState := t.sent.getLast?.getD ⟨none, false, false⟩

/-- What a configure would carry now. -/
def staged (t : Toplevel) : ToplevelState := t.serverPending.getD t.currentServerState

/-- `with_pending_state`. -/
def withPendingState (t : Toplevel) (f : ToplevelState → ToplevelState) : Toplevel :=
  { t with serverPending := some (f t.staged) }

/-- `send_configure`, which always sends. -/
def sendConfigure (t : Toplevel) : Toplevel := ⟨none, t.sent ++ [t.staged]⟩

@[simp] theorem withPendingState_sent (t : Toplevel) (f : ToplevelState → ToplevelState) :
    (t.withPendingState f).sent = t.sent := rfl

@[simp] theorem withPendingState_staged (t : Toplevel) (f : ToplevelState → ToplevelState) :
    (t.withPendingState f).staged = f t.staged := rfl

@[simp] theorem sendConfigure_sent (t : Toplevel) :
    t.sendConfigure.sent = t.sent ++ [t.staged] := rfl

end Toplevel

/-- The windows, and what their toplevels were sent. -/
structure Shell (ι : Type) where
  size : Size
  /-- The mapped windows by their surfaces, bottom to top. -/
  space : List ι
  toplevel : ι → Toplevel
  /-- The windows that have had the configure of their first commit. -/
  kickedToplevels : List ι

/-- What clients and the main loop do. -/
inductive ShellOp (ι : Type)
  | newToplevel (surface : ι)
  | commit (surface : ι)
  | toplevelDestroyed (surface : ι)
  | resizeOutput (size : Size)
  deriving DecidableEq

namespace Shell

variable {ι : Type} [DecidableEq ι]

/-- No window yet. -/
def initial (size : Size) : Shell ι := ⟨size, [], fun _ => .new, []⟩

variable (s : Shell ι)

/-- Stages the whole output for a window. -/
def configureToplevelFullscreen (surface : ι) : Shell ι :=
  { s with toplevel := Function.update s.toplevel surface
            ((s.toplevel surface).withPendingState fun state =>
              { state with size := some (asI32 s.size.1, asI32 s.size.2), maximized := true,
                           activated := true }) }

def sendConfigure (surface : ι) : Shell ι :=
  { s with toplevel := Function.update s.toplevel surface (s.toplevel surface).sendConfigure }

/-- Staged, and not sent. -/
def newToplevel (surface : ι) : Shell ι :=
  let s := { s with toplevel := Function.update s.toplevel surface .new }
  { s.configureToplevelFullscreen surface with space := s.space ++ [surface] }

/-- A window's first commit sends it a configure. -/
def commit (surface : ι) : Shell ι :=
  if surface ∈ s.space ∧ surface ∉ s.kickedToplevels then
    ({ s with kickedToplevels := surface :: s.kickedToplevels }.configureToplevelFullscreen
      surface).sendConfigure surface
  else s

def toplevelDestroyed (surface : ι) : Shell ι :=
  { s with kickedToplevels := s.kickedToplevels.filter (· ≠ surface),
           space := s.space.erase surface }

/-- Every window is told of the new size. -/
def resizeOutput (size : Size) : Shell ι :=
  s.space.foldl (fun s w => (s.configureToplevelFullscreen w).sendConfigure w) { s with size }

/-- One operation. A surface has one toplevel at a time. -/
def step (s : Shell ι) : ShellOp ι → Option (Shell ι)
  | .newToplevel surface => if surface ∈ s.space then none else some (s.newToplevel surface)
  | .commit surface => some (s.commit surface)
  | .toplevelDestroyed surface => some (s.toplevelDestroyed surface)
  | .resizeOutput size => some (s.resizeOutput size)

/-- **The windows**, from none on. -/
def machine (size : Size) : Machine (Shell ι) (ShellOp ι) := ⟨fun s => s = initial size, step⟩

/-! ## What each operation sends -/

section Steps

variable {s : Shell ι} {w surface : ι} {size : Size}

/-- **A configure right after staging carries the output's size.** -/
theorem sent_configured : ((s.configureToplevelFullscreen surface).sendConfigure surface).toplevel w
    = if w = surface then ⟨none, (s.toplevel surface).sent ++ [fullscreen s.size]⟩
      else s.toplevel w := by
  by_cases hw : w = surface
  · subst hw
    simp [sendConfigure, configureToplevelFullscreen, Toplevel.sendConfigure, fullscreen]
  · simp [sendConfigure, configureToplevelFullscreen, hw]

/-- What a round of configures leaves: each window of a list was sent one. -/
theorem foldl_configured {ws : List ι} (hws : ws.Nodup) (s : Shell ι) :
    let s' := ws.foldl (fun s w => (s.configureToplevelFullscreen w).sendConfigure w) s
    s'.size = s.size ∧ s'.space = s.space ∧ s'.kickedToplevels = s.kickedToplevels ∧
      ∀ w, (s'.toplevel w).sent =
        (s.toplevel w).sent ++ if w ∈ ws then [fullscreen s.size] else [] := by
  induction ws generalizing s with
  | nil => simp
  | cons v ws ih =>
    obtain ⟨hv, hws⟩ := List.nodup_cons.1 hws
    obtain ⟨hsize, hspace, hkicked, hsent⟩ :=
      ih hws ((s.configureToplevelFullscreen v).sendConfigure v)
    refine ⟨hsize, hspace, hkicked, fun w => ?_⟩
    have hsent := hsent w
    rw [sent_configured] at hsent
    rw [List.foldl_cons, hsent]
    by_cases hw : w = v
    · subst hw
      simp [hv]
    · simp [hw, sendConfigure, configureToplevelFullscreen]

/-- The windows and the first configures keep step. -/
structure Kept (s : Shell ι) : Prop where
  nodup : s.space.Nodup
  kicked : ∀ w ∈ s.kickedToplevels, w ∈ s.space

/-- **What a resize leaves.** -/
theorem resizeOutput_spec (size : Size) (h : s.Kept) :
    (s.resizeOutput size).size = size ∧ (s.resizeOutput size).space = s.space ∧
      (s.resizeOutput size).kickedToplevels = s.kickedToplevels ∧
      ∀ w, ((s.resizeOutput size).toplevel w).sent =
        (s.toplevel w).sent ++ if w ∈ s.space then [fullscreen size] else [] :=
  foldl_configured h.nodup { s with size }

/-- **What a commit leaves.** -/
theorem commit_spec (s : Shell ι) (surface : ι) :
    (s.commit surface).size = s.size ∧ (s.commit surface).space = s.space ∧
      (∀ w, w ∈ (s.commit surface).kickedToplevels ↔
        w ∈ s.kickedToplevels ∨ w = surface ∧ surface ∈ s.space) ∧
      ∀ w, ((s.commit surface).toplevel w).sent = (s.toplevel w).sent ++
        if w = surface ∧ surface ∈ s.space ∧ surface ∉ s.kickedToplevels
        then [fullscreen s.size] else [] := by
  unfold commit
  by_cases hfirst : surface ∈ s.space ∧ surface ∉ s.kickedToplevels
  · rw [if_pos hfirst]
    refine ⟨rfl, rfl, fun w => ?_, fun w => ?_⟩
    · have hkicked : w ∈ surface :: s.kickedToplevels ↔ _ := List.mem_cons
      exact hkicked.trans (by tauto)
    · rw [sent_configured]
      by_cases hw : w = surface
      · subst hw
        simp [hfirst]
      · simp [hw]
  · rw [if_neg hfirst]
    refine ⟨rfl, rfl, fun w => ?_, fun w => ?_⟩
    · constructor
      · exact .inl
      · rintro (hw | ⟨rfl, hmapped⟩)
        · exact hw
        · exact not_not.1 fun hw => hfirst ⟨hmapped, hw⟩
    · rw [if_neg fun hw => hfirst hw.2, List.append_nil]

/-- Every operation keeps the windows and the first configures in step. -/
theorem Kept.step {s' : Shell ι} {op : ShellOp ι} (h : s.Kept) (hstep : s.step op = some s') :
    s'.Kept := by
  cases op with
  | newToplevel surface =>
    obtain ⟨hnew, heq⟩ := Option.ite_none_left_eq_some.1 hstep
    cases heq
    exact ⟨List.nodup_append.2 ⟨h.nodup, List.nodup_singleton _, fun a ha b hb => by
      rw [List.mem_singleton.1 hb]
      exact fun hab => hnew (hab ▸ ha)⟩, fun w hw => List.mem_append_left _ (h.kicked w hw)⟩
  | commit surface =>
    cases hstep
    obtain ⟨-, hspace, hkicked, -⟩ := commit_spec s surface
    refine ⟨hspace ▸ h.nodup, fun w hw => ?_⟩
    rw [hspace]
    obtain hw | ⟨rfl, hw⟩ := (hkicked w).1 hw
    · exact h.kicked w hw
    · exact hw
  | toplevelDestroyed surface =>
    cases hstep
    refine ⟨h.nodup.erase _, fun w hw => ?_⟩
    obtain ⟨hw, hne⟩ := List.mem_filter.1 hw
    exact (List.mem_erase_of_ne (by simpa using hne)).2 (h.kicked w hw)
  | resizeOutput size =>
    cases hstep
    obtain ⟨-, hspace, hkicked, -⟩ := resizeOutput_spec size h
    exact ⟨hspace ▸ h.nodup, fun w hw => hspace ▸ h.kicked w (hkicked ▸ hw)⟩

omit [DecidableEq ι] in
theorem Kept.initial : (initial size : Shell ι).Kept :=
  ⟨List.nodup_nil, fun _ hw => by cases hw⟩

end Steps

/-! ## What a window was sent -/

/-- **What a window is told** by a history, of what it is told before: the
size in force, and whether it has committed. -/
def told (surface : ι) (size : Size) (committed : Bool) : List (ShellOp ι) → List ToplevelState
  | [] => []
  | .resizeOutput size' :: ops => fullscreen size' :: told surface size' committed ops
  | .commit w :: ops =>
    if w = surface ∧ committed = false then fullscreen size :: told surface size true ops
    else told surface size committed ops
  | _ :: ops => told surface size committed ops

/-- The size in force after a history. -/
def sizeAfter (size : Size) : List (ShellOp ι) → Size
  | [] => size
  | .resizeOutput size' :: ops => sizeAfter size' ops
  | _ :: ops => sizeAfter size ops

/-- The resizes of a history. -/
def resizes (ops : List (ShellOp ι)) : ℕ :=
  ops.countP fun op => match op with
    | .resizeOutput _ => true
    | _ => false

section Told

variable {s s' : Shell ι} {surface : ι} {size : Size} {ops before after : List (ShellOp ι)}
  {committed : Bool}

/-- A history is told to a window one operation at a time. -/
theorem told_cons (op : ShellOp ι) :
    told surface size committed (op :: ops) = told surface size committed [op] ++
      told surface (sizeAfter size [op]) (committed || decide (op = .commit surface)) ops := by
  cases op with
  | newToplevel w => simp [told, sizeAfter]
  | toplevelDestroyed w => simp [told, sizeAfter]
  | resizeOutput size' => simp [told, sizeAfter]
  | commit w =>
    by_cases hw : w = surface
    · cases committed <;> simp [told, sizeAfter, hw]
    · simp [told, sizeAfter, hw]

/-- **How often a window is told**: once for each resize, and once for its
first commit. -/
theorem length_told : (told surface size committed ops).length =
    resizes ops + if committed = false ∧ .commit surface ∈ ops then 1 else 0 := by
  induction ops generalizing size committed with
  | nil => simp [told, resizes]
  | cons op ops ih =>
    rw [told_cons, List.length_append, ih]
    cases op with
    | newToplevel w => simp [told, resizes]
    | toplevelDestroyed w => simp [told, resizes]
    | resizeOutput size' =>
      simp only [told, resizes, List.length_cons, List.countP_cons, List.mem_cons]
      simp
      omega
    | commit w =>
      by_cases hw : w = surface
      · subst hw
        cases committed <;> simp [told, resizes, Nat.add_comm]
      · have hne : ¬surface = w := fun h => hw h.symm
        simp [told, resizes, hw, hne]

omit [DecidableEq ι] in
/-- The size stands where nothing resizes. -/
theorem sizeAfter_of_resizes (h : resizes ops = 0) : sizeAfter size ops = size := by
  induction ops with
  | nil => rfl
  | cons op ops ih =>
    cases op with
    | resizeOutput size' => simp [resizes] at h
    | newToplevel w => exact ih (by simpa [resizes] using h)
    | toplevelDestroyed w => exact ih (by simpa [resizes] using h)
    | commit w => exact ih (by simpa [resizes] using h)

/-- **The last thing told is the size in force.** -/
theorem getLast?_told (h : told surface size committed ops ≠ []) :
    (told surface size committed ops).getLast? = some (fullscreen (sizeAfter size ops)) := by
  induction ops generalizing size committed with
  | nil => exact absurd rfl h
  | cons op ops ih =>
    have hsize : sizeAfter size (op :: ops) = sizeAfter (sizeAfter size [op]) ops := by
      cases op <;> rfl
    rw [told_cons] at h ⊢
    by_cases hrest : told surface (sizeAfter size [op])
        (committed || decide (op = .commit surface)) ops = []
    · have hstands : resizes ops = 0 := by
        have hlength : (told surface (sizeAfter size [op])
            (committed || decide (op = .commit surface)) ops).length = _ := length_told
        rw [hrest, List.length_nil] at hlength
        omega
      rw [hrest, List.append_nil] at h ⊢
      rw [hsize, sizeAfter_of_resizes hstands]
      cases op with
      | newToplevel w => exact absurd rfl h
      | toplevelDestroyed w => exact absurd rfl h
      | resizeOutput size' => rfl
      | commit w =>
        by_cases hw : w = surface ∧ committed = false
        · simp [told, sizeAfter, hw]
        · exact absurd (by simp [told, hw]) h
    · rw [List.getLast?_append_of_ne_nil _ hrest, ih hrest, hsize]

/-- **One operation tells a window that stays what `told` says.** -/
theorem step_told {op : ShellOp ι} (hkept : s.Kept) (hmapped : surface ∈ s.space)
    (hstays : op ≠ .toplevelDestroyed surface) (hstep : s.step op = some s') :
    surface ∈ s'.space ∧ s'.size = sizeAfter s.size [op] ∧
      decide (surface ∈ s'.kickedToplevels) =
        (decide (surface ∈ s.kickedToplevels) || decide (op = .commit surface)) ∧
      (s'.toplevel surface).sent = (s.toplevel surface).sent ++
        told surface s.size (decide (surface ∈ s.kickedToplevels)) [op] := by
  cases op with
  | newToplevel w =>
    obtain ⟨hnew, heq⟩ := Option.ite_none_left_eq_some.1 hstep
    cases heq
    have hne : surface ≠ w := fun h => hnew (h ▸ hmapped)
    refine ⟨List.mem_append_left _ hmapped, rfl, by simp [newToplevel,
      configureToplevelFullscreen], ?_⟩
    simp [newToplevel, configureToplevelFullscreen, told, hne]
  | commit w =>
    cases hstep
    obtain ⟨hsize, hspace, hkicked, hsent⟩ := commit_spec s w
    refine ⟨hspace ▸ hmapped, hsize, ?_, ?_⟩
    · rw [Bool.eq_iff_iff, decide_eq_true_iff, hkicked surface]
      by_cases hw : w = surface
      · subst hw
        simp [hmapped]
      · have hne : surface ≠ w := fun h => hw h.symm
        simp [hw, hne]
    · rw [hsent surface]
      by_cases hw : w = surface
      · subst hw
        by_cases hdone : w ∈ s.kickedToplevels <;> simp [told, hmapped, hdone]
      · have hne : surface ≠ w := fun h => hw h.symm
        simp [told, hw, hne]
  | toplevelDestroyed w =>
    cases hstep
    have hne : surface ≠ w := fun h => hstays (h ▸ rfl)
    refine ⟨(List.mem_erase_of_ne hne).2 hmapped, rfl, ?_, ?_⟩
    · simp [toplevelDestroyed, hne]
    · simp [toplevelDestroyed, told]
  | resizeOutput size =>
    cases hstep
    obtain ⟨hsize, hspace, hkicked, hsent⟩ := resizeOutput_spec size hkept
    refine ⟨hspace ▸ hmapped, hsize, by simp [hkicked], ?_⟩
    rw [hsent surface, if_pos hmapped]
    rfl

/-- **A history tells a window that stays what `told` says.** -/
theorem exec_told (hkept : s.Kept) (hmapped : surface ∈ s.space)
    (hstays : .toplevelDestroyed surface ∉ ops) (hexec : (machine size).exec s ops = some s') :
    surface ∈ s'.space ∧ s'.size = sizeAfter s.size ops ∧
      (s'.toplevel surface).sent = (s.toplevel surface).sent ++
        told surface s.size (decide (surface ∈ s.kickedToplevels)) ops := by
  induction ops generalizing s with
  | nil =>
    cases hexec
    exact ⟨hmapped, rfl, (List.append_nil _).symm⟩
  | cons op ops ih =>
    rw [Machine.exec_cons, Option.bind_eq_some_iff] at hexec
    obtain ⟨t, ht, hexec⟩ := hexec
    rw [List.mem_cons, not_or] at hstays
    obtain ⟨hmapped', hsize, hcommitted, hsent⟩ :=
      step_told hkept hmapped (Ne.symm hstays.1) ht
    obtain ⟨hstill, hsize', hsent'⟩ := ih (hkept.step ht) hmapped' hstays.2 hexec
    refine ⟨hstill, ?_, ?_⟩
    · rw [hsize', hsize]
      cases op <;> rfl
    · rw [hsent', hsent, hsize, hcommitted, List.append_assoc, ← told_cons]

/-- The windows and the first configures keep step in every run. -/
theorem Reachable.kept (h : (machine size).Reachable s) : s.Kept :=
  h.invariant (fun s (hs : s = initial size) => by subst hs; exact Kept.initial)
    fun _ _ _ hstep hs => Kept.step hs hstep

/-- The size in force is that of the history's last resize. -/
theorem exec_size (hkept : s.Kept) (hexec : (machine size).exec s ops = some s') :
    s'.size = sizeAfter s.size ops := by
  induction ops generalizing s with
  | nil =>
    cases hexec
    rfl
  | cons op ops ih =>
    rw [Machine.exec_cons, Option.bind_eq_some_iff] at hexec
    obtain ⟨t, ht, hexec⟩ := hexec
    rw [ih (hkept.step ht) hexec]
    cases op with
    | newToplevel w =>
      obtain ⟨-, heq⟩ := Option.ite_none_left_eq_some.1 ht
      cases heq
      rfl
    | commit w =>
      cases ht
      rw [(commit_spec s w).1]
      rfl
    | toplevelDestroyed w =>
      cases ht
      rfl
    | resizeOutput size' =>
      cases ht
      rw [(resizeOutput_spec size' hkept).1]
      rfl

/-- **What a window has been told.** From its creation on, as long as it
lives, a window is sent one configure for its first commit and one for
each resize, nothing else: the last of them carries the size in force,
and nothing is sent before its first commit unless the output is resized
by then. -/
theorem sent_of_exec
    (hexec : (machine size).exec (initial size) (before ++ .newToplevel surface :: after) = some s)
    (hlives : .toplevelDestroyed surface ∉ after) :
    surface ∈ s.space ∧
      (s.toplevel surface).sent = told surface (sizeAfter size before) false after ∧
      (s.toplevel surface).sent.length =
        resizes after + (if .commit surface ∈ after then 1 else 0) ∧
      ((s.toplevel surface).sent ≠ [] →
        (s.toplevel surface).sent.getLast? = some (fullscreen s.size)) := by
  rw [Machine.exec_append, Option.bind_eq_some_iff] at hexec
  obtain ⟨t, ht, hexec⟩ := hexec
  rw [Machine.exec_cons, Option.bind_eq_some_iff] at hexec
  obtain ⟨u, hu, hexec⟩ := hexec
  replace hu : t.step (.newToplevel surface) = some u := hu
  have hkept : t.Kept := Reachable.kept (Machine.reach_of_exec before (.start rfl) ht)
  have hsize : t.size = sizeAfter size before := exec_size Kept.initial ht
  obtain ⟨hnew, heq⟩ := Option.ite_none_left_eq_some.1 hu
  have hkicked : surface ∉ u.kickedToplevels := fun h => by
    cases heq
    exact hnew (hkept.kicked surface h)
  have hmapped : surface ∈ u.space := by
    cases heq
    exact List.mem_append_right _ (List.mem_singleton_self _)
  have hnothing : (u.toplevel surface).sent = [] := by
    cases heq
    simp [newToplevel, configureToplevelFullscreen, Toplevel.new]
  have husize : u.size = sizeAfter size before := by
    cases heq
    exact hsize
  obtain ⟨hstill, hafter, hsent⟩ := exec_told (hkept.step hu) hmapped hlives hexec
  rw [hnothing, List.nil_append, husize, decide_eq_false hkicked] at hsent
  refine ⟨hstill, hsent, ?_, fun hsome => ?_⟩
  · rw [hsent, length_told]
    simp
  · rw [hsent] at hsome ⊢
    rw [getLast?_told hsome, hafter, husize]

/-- Resized before its first commit, committed twice, and resized again. -/
def resizedEarly : List (ShellOp ℕ) :=
  [.resizeOutput (1024, 768), .commit 0, .commit 0, .resizeOutput (640, 480)]

theorem sent_of_exec_resizedEarly :
    ∃ s, (machine (1280, 720)).exec (initial (1280, 720)) ([] ++ .newToplevel 0 :: resizedEarly) =
        some s ∧
      (s.toplevel 0).sent =
        [fullscreen (1024, 768), fullscreen (1024, 768), fullscreen (640, 480)] := by
  have hrun : ∃ s, (machine (1280, 720)).exec (initial (1280, 720))
      ([] ++ .newToplevel 0 :: resizedEarly) = some s := ⟨_, rfl⟩
  obtain ⟨s, hrun⟩ := hrun
  exact ⟨s, hrun, (sent_of_exec hrun (by decide)).2.1⟩

end Told

end Shell

end Compositor

end WaylandWebStream
