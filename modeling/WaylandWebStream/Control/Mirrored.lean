import WaylandWebStream.Compositor.AppMeta
import WaylandWebStream.Compositor.Cursor
import WaylandWebStream.Control.Convergence
import WaylandWebStream.Control.Settling

/-!
# From the compositor to the page

Once a tick the main loop forwards what changed in the compositor: the
cursor a client set, the names of the topmost window, and whether that
window locks the pointer. What is forwarded is the value of a watch
channel, which the page comes to show. So when all is forwarded and sent
the page mirrors the compositor, and it gets there without any client's
help.
-/

namespace WaylandWebStream

namespace Control

open Compositor (Desktop DesktopOp CursorState CursorImageStatus CursorIcon Hotspot WlBuffer Dmabuf
  Image cursorIconToCss cursorPendingToUpdate)

/-! ## The page's picture of a cursor -/

/-- **The picture drawn for the overlay**: the decoded bytes, where they
are as many as an `ImageData` of its size has. -/
def CursorOverlay.drawn (o : CursorOverlay) : Option Image := do
  let raw ← Base64.atob o.rgba
  if 0 < o.width.toNat ∧ 0 < raw.length ∧ raw.length = 4 * (o.width.toNat * o.height.toNat) then
    some ⟨o.width.toNat, o.height.toNat, raw⟩
  else none

/-- A picture a page can draw: four bytes for each of its pixels. -/
structure Drawable (img : Image) : Prop where
  width : 0 < img.width ∧ img.width < 2 ^ 32
  height : img.height < 2 ^ 32
  rgba : 0 < img.rgba.length ∧ img.rgba.length = 4 * (img.width * img.height)

/-- **A picture arrives as it left.** -/
theorem drawn_encoded {img : Image} (h : Drawable img) (hotX hotY : Int32) :
    CursorOverlay.drawn ⟨UInt32.ofNat img.width, UInt32.ofNat img.height, hotX, hotY,
      Base64.encode img.rgba⟩ = some img := by
  have hwidth : (UInt32.ofNat img.width).toNat = img.width := UInt32.toNat_ofNat_of_lt' h.width.2
  have hheight : (UInt32.ofNat img.height).toNat = img.height :=
    UInt32.toNat_ofNat_of_lt' h.height
  simp only [CursorOverlay.drawn, Base64.atob_encode, hwidth, hheight, Option.bind_eq_bind,
    Option.bind_some]
  exact if_pos ⟨h.width.1, h.rgba⟩

/-! ## The compositor, the main loop and the page -/

/-- What a client asks of the pointer. -/
inductive PointerConstraint
  | locked
  | confined
  deriving DecidableEq

/-- A surface's constraint. -/
structure Constraint where
  kind : PointerConstraint
  oneshot : Bool
  active : Bool
  deriving DecidableEq

/-- The compositor, as far as the page shows it, and the connection. -/
structure System (ι : Type) where
  desktop : Desktop ι
  cursor : CursorState ι
  constraints : ι → Option Constraint
  pointerLocked : Bool
  control : State

/-- What clients, the main loop and the connection do. -/
inductive SystemAction (ι : Type)
  | window (op : DesktopOp ι)
  | commit (surface : ι) (attached : Option (Option WlBuffer))
  | cursorImage (image : CursorImageStatus ι)
  | newConstraint (surface : ι) (kind : PointerConstraint) (oneshot : Bool)
  | constraintDestroyed (surface : ι)
  /-- The pointer leaves the surface, and its constraint is deactivated. -/
  | pointerLeft (surface : ι)
  | forwardCursor
  | forwardAppMeta
  | forwardPointerLock
  | connection (a : Action)

/-- The main loop forwards it, and nobody else. -/
def Action.isForwarded : Action → Bool
  | .change .cursor _ | .change .appMeta _ | .change .pointerLock _ => true
  | _ => false

/-- The wire's form of a window's names and icon. -/
def appMetaUpdate (m : Compositor.AppMeta) : Wire.AppMeta :=
  ⟨m.title, m.appId, m.favicon.map fun img =>
    ⟨UInt32.ofNat img.width, UInt32.ofNat img.height, Base64.encode img.rgba⟩⟩

/-- The main loop forwards, or the connection goes on quietly. -/
def SystemAction.isOwn {ι : Type} : SystemAction ι → Bool
  | .forwardCursor | .forwardAppMeta | .forwardPointerLock => true
  | .connection a => a.isQuiet
  | _ => false

namespace System

variable {ι : Type} [DecidableEq ι]

section Operations

variable (glReadback : Dmabuf → Option Image) (s : System ι)

def activate (surface : ι) : System ι :=
  { s with constraints := Function.update s.constraints surface
            ((s.constraints surface).map fun c => { c with active := true }) }

/-- A constraint of one shot does not survive it. -/
def deactivate (surface : ι) : System ι :=
  { s with constraints := Function.update s.constraints surface
            ((s.constraints surface).bind fun c =>
              if c.oneshot then none else some { c with active := false }) }

/-- The topmost window's is granted at once. -/
def newConstraint (surface : ι) (kind : PointerConstraint) (oneshot : Bool) : System ι :=
  let s := { s with
    constraints := Function.update s.constraints surface (some ⟨kind, oneshot, false⟩) }
  if s.desktop.topmost = some surface then s.activate surface else s

/-- Whether the topmost window locks the pointer; what it asks is granted. -/
def refreshPointerLock : Bool × System ι :=
  match s.desktop.topmost with
  | none => (false, s)
  | some surface =>
    match s.constraints surface with
    | none => (false, s)
    | some c => (c.kind = .locked, if c.active then s else s.activate surface)

/-- Whether it locks the pointer, if that changed since the last call. -/
def takePointerLockPending : Option Bool × System ι :=
  let (locked, s) := s.refreshPointerLock
  if locked ≠ s.pointerLocked then (some locked, { s with pointerLocked := locked }) else (none, s)

def forwardCursor : System ι :=
  let (pending, cursor) := s.cursor.takeCursorPending
  match pending with
  | some pending =>
    { s with cursor, control := s.control.change .cursor (cursorPendingToUpdate pending) }
  | none => { s with cursor }

def forwardAppMeta : System ι :=
  let desktop := s.desktop.takeAppMetaPending
  if s.desktop.appMetaDirty then
    { s with desktop, control := s.control.change .appMeta (appMetaUpdate desktop.taken) }
  else { s with desktop }

def forwardPointerLock : System ι :=
  let (pending, s) := s.takePointerLockPending
  match pending with
  | some locked => { s with control := s.control.change .pointerLock locked }
  | none => s

/-- One step; a panic ends the run. -/
def step (s : System ι) : SystemAction ι → Option (System ι)
  | .window (.commit _) | .window .takeAppMetaPending => none
  | .window op => (Desktop.step glReadback s.desktop op).map fun desktop => { s with desktop }
  | .commit surface attached =>
    match s.cursor.commit glReadback surface attached with
    | .error _ => none
    | .ok cursor => (Desktop.step glReadback s.desktop (.commit surface)).map fun desktop =>
        { s with cursor, desktop }
  | .cursorImage image =>
    match s.cursor.cursorImage glReadback image with
    | .error _ => none
    | .ok cursor => some { s with cursor }
  | .newConstraint surface kind oneshot =>
    match s.constraints surface with
    | some _ => none
    | none => some (s.newConstraint surface kind oneshot)
  | .constraintDestroyed surface =>
    some { s with constraints := Function.update s.constraints surface none }
  | .pointerLeft surface => some (s.deactivate surface)
  | .forwardCursor => some s.forwardCursor
  | .forwardAppMeta => some s.forwardAppMeta
  | .forwardPointerLock => some s.forwardPointerLock
  | .connection a =>
    if a.isForwarded then none else (s.control.step a).map fun control => { s with control }

/-- **Compositor, main loop and page**, from the start of the server on. -/
def machine : Machine (System ι) (SystemAction ι) where
  init s := s.desktop = .initial ∧ s.cursor = .initial ∧ s.constraints = (fun _ => none) ∧
    s.pointerLocked = false ∧ s.control.Started ∧ (s.control.tx .cursor).value = .default
  step := step glReadback

end Operations

/-! ## What the page should show -/

section Statements

variable (glReadback : Dmabuf → Option Image) (s : System ι)

/-- The topmost window asks for the pointer to be locked. -/
def locked : Bool :=
  match s.desktop.topmost.bind s.constraints with
  | none => false
  | some c => c.kind = .locked

/-- **Everything is forwarded**: the next tick finds nothing new. -/
structure Forwarded : Prop where
  cursor : s.cursor.cursorPending = none
  appMeta : s.desktop.appMetaDirty = false
  pointerLock : s.pointerLocked = s.locked

/-- **The page mirrors the compositor**: the names of the topmost window,
the lock it asks for, and the cursor the client set. -/
structure Mirrored : Prop where
  title : s.control.page.documentTitle =
    tabTitle s.desktop.topmostAttributes.title s.desktop.topmostAttributes.appId
  pointerLock : s.control.page.pointerLockWanted = s.locked
  unset : s.cursor.image = none ∨ s.cursor.image = some .hidden →
    s.control.page.canvasCursor = "none" ∧ s.control.page.cursorSurfaceActive = false
  named : ∀ icon, s.cursor.image = some (.named icon) →
    s.control.page.canvasCursor = cursorIconToCss icon ∧
      s.control.page.cursorSurfaceActive = false
  surface : ∀ wlSurface hotspot img, s.cursor.image = some (.surface wlSurface hotspot) →
    s.cursor.readBufferRgba glReadback wlSurface = .ok (some img) → Drawable img →
    s.control.page.canvasCursor = "none" ∧ s.control.page.cursorSurfaceActive = true ∧
      ∃ o, s.control.page.cursorOverlay = some o ∧ o.drawn = some img ∧
        (o.hotX, o.hotY) = (hotspot.x, hotspot.y)

/-- The client's side is as it was. -/
structure SameClients (s s' : System ι) : Prop where
  space : s'.desktop.space = s.desktop.space
  attributes : s'.desktop.attributes = s.desktop.attributes
  image : s'.cursor.image = s.cursor.image
  buffers : s'.cursor.buffers = s.cursor.buffers
  locked : s'.locked = s.locked

end Statements

/-! ## What a step keeps -/

section Steps

variable {glReadback : Dmabuf → Option Image} {s s' : System ι} {surface : ι}

/-- **What was forwarded is the channels' value**, and all else is as the
parts keep it. -/
structure Kept (glReadback : Dmabuf → Option Image) (s : System ι) : Prop where
  control : Control.machine.Reachable s.control
  desktop : s.desktop.Refreshed
  appMeta : (s.control.tx .appMeta).value = appMetaUpdate s.desktop.taken
  cursor : s.cursor.Extracted glReadback (s.control.tx .cursor).value
  pointerLock : (s.control.tx .pointerLock).value = s.pointerLocked

/-- A client's operation takes nothing. -/
theorem taken_of_step {d d' : Desktop ι} {op : DesktopOp ι}
    (h : Desktop.step glReadback d op = some d') (hop : op ≠ .takeAppMetaPending) :
    d'.taken = d.taken := by
  have hrefresh : ∀ d : Desktop ι, d.refreshAppMeta.taken = d.taken := by
    intro d
    unfold Desktop.refreshAppMeta
    dsimp only
    split <;> rfl
  cases op with
  | newToplevel surface attributes =>
    obtain ⟨-, heq⟩ := Option.ite_none_left_eq_some.1 h
    cases heq
    exact hrefresh _
  | toplevelDestroyed surface =>
    cases h
    rw [Desktop.toplevelDestroyed]
    split
    · exact hrefresh _
    · rfl
  | setTitle surface title =>
    cases h
    exact hrefresh _
  | setAppId surface appId =>
    cases h
    exact hrefresh _
  | setIcon surface icon =>
    cases h
    rfl
  | commit surface =>
    rw [Desktop.step, Desktop.commit] at h
    split at h
    · rw [Desktop.extractToplevelIcon] at h
      split at h
      · cases hread : Compositor.favicon glReadback _ with
        | error e =>
          rw [hread] at h
          cases h
        | ok favicon =>
          rw [hread] at h
          cases h
          unfold Desktop.showFavicon
          split <;> rfl
      · cases h
        rfl
    · cases h
      rfl
  | takeAppMetaPending => exact absurd rfl hop

/-- A connection changes no channel the main loop forwards on. -/
theorem tx_of_connection {c c' : State} {a : Action} {ch : Channel} (hstep : c.step a = some c')
    (ha : a.isForwarded = false) (hch : ch = .cursor ∨ ch = .appMeta ∨ ch = .pointerLock) :
    c'.tx ch = c.tx ch := by
  cases a with
  | change ch' v =>
    cases hstep
    refine State.change_of_ne v fun heq => ?_
    subst heq
    rcases hch with rfl | rfl | rfl
    · cases ha
    · cases ha
    · cases ha
  | connect =>
    obtain ⟨-, rfl⟩ := State.step_connect hstep
    rfl
  | burst =>
    obtain ⟨_, -, ⟨-, rfl⟩ | ⟨_, _, -, rfl⟩⟩ := State.step_burst hstep
    · rfl
    · rfl
  | wake ch' =>
    obtain ⟨_, -, -, rfl⟩ := State.step_wake hstep
    rfl
  | arm =>
    obtain ⟨_, _, -, -, rfl⟩ := State.step_arm hstep
    rfl
  | onMessage =>
    obtain ⟨_, _, _, -, -, rfl⟩ := State.step_onMessage hstep
    rfl
  | closed =>
    obtain rfl := State.step_closed hstep
    rfl

/-- What a client does to its windows. -/
theorem Kept.ofDesktop (h : Kept glReadback s) {op : DesktopOp ι} {d : Desktop ι}
    (hstep : Desktop.step glReadback s.desktop op = some d) (hop : op ≠ .takeAppMetaPending) :
    Kept glReadback { s with desktop := d } where
  control := h.control
  desktop := Desktop.step_refreshed h.desktop hstep
  appMeta := h.appMeta.trans (by rw [taken_of_step hstep hop])
  cursor := h.cursor
  pointerLock := h.pointerLock

omit [DecidableEq ι] in
/-- What becomes of constraints. -/
theorem Kept.ofConstraints (h : Kept glReadback s) (constraints : ι → Option Constraint) :
    Kept glReadback { s with constraints } :=
  ⟨h.control, h.desktop, h.appMeta, h.cursor, h.pointerLock⟩

/-- The lock is looked up, and a constraint granted, nothing else. -/
theorem refreshPointerLock_eq (s : System ι) :
    ∃ constraints, s.refreshPointerLock = (s.locked, { s with constraints }) ∧
      ({ s with constraints } : System ι).locked = s.locked := by
  unfold refreshPointerLock locked
  cases htop : s.desktop.topmost with
  | none => exact ⟨s.constraints, rfl, by simp [htop]⟩
  | some surface =>
    cases hconstraint : s.constraints surface with
    | none => exact ⟨s.constraints, by simp [hconstraint], by simp [htop, hconstraint]⟩
    | some c =>
      by_cases hactive : c.active
      · exact ⟨s.constraints, by simp [hconstraint, hactive], by simp [htop, hconstraint]⟩
      · refine ⟨(s.activate surface).constraints, ?_, ?_⟩
        · simp [hconstraint, hactive, activate]
        · simp [htop, hconstraint, activate]

/-- **What forwarding the lock leaves.** -/
theorem forwardPointerLock_eq (s : System ι) : ∃ constraints,
    s.forwardPointerLock = (if s.locked ≠ s.pointerLocked then
      { s with constraints, pointerLocked := s.locked,
               control := s.control.change .pointerLock s.locked }
      else { s with constraints }) ∧
    ({ s with constraints } : System ι).locked = s.locked := by
  obtain ⟨constraints, hrefresh, hlocked⟩ := refreshPointerLock_eq s
  refine ⟨constraints, ?_, hlocked⟩
  rw [forwardPointerLock, takePointerLockPending, hrefresh]
  dsimp only
  by_cases hchanged : s.locked ≠ s.pointerLocked
  · rw [if_pos hchanged, if_pos hchanged]
  · rw [if_neg hchanged, if_neg hchanged]

/-- A channel is changed. -/
theorem reachable_change {c : State} (h : Control.machine.Reachable c) (ch : Channel)
    (v : ch.Value) : Control.machine.Reachable (c.change ch v) :=
  h.next (a := .change ch v) rfl

omit [DecidableEq ι] in
theorem Kept.forwardCursor (h : Kept glReadback s) : Kept glReadback s.forwardCursor := by
  have htaken := h.cursor.take
  rw [System.forwardCursor]
  cases hpending : s.cursor.cursorPending with
  | none =>
    have hlatest : s.cursor.latest (s.control.tx .cursor).value = (s.control.tx .cursor).value := by
      rw [CursorState.latest, hpending]
      rfl
    rw [hlatest] at htaken
    simp only [CursorState.takeCursorPending, hpending]
    exact ⟨h.control, h.desktop, h.appMeta, htaken, h.pointerLock⟩
  | some pending =>
    have hlatest : s.cursor.latest (s.control.tx .cursor).value = cursorPendingToUpdate pending := by
      rw [CursorState.latest, hpending]
      rfl
    rw [hlatest] at htaken
    simp only [CursorState.takeCursorPending, hpending]
    refine ⟨reachable_change h.control _ _, h.desktop, ?_, ?_, ?_⟩
    · exact (congrArg Watch.value (State.change_of_ne _ (by decide))).trans h.appMeta
    · rw [State.change_self]
      exact htaken
    · exact (congrArg Watch.value (State.change_of_ne _ (by decide))).trans h.pointerLock

theorem Kept.forwardAppMeta (h : Kept glReadback s) : Kept glReadback s.forwardAppMeta := by
  have htake : Desktop.step glReadback s.desktop .takeAppMetaPending =
      some s.desktop.takeAppMetaPending := rfl
  have hdesktop : s.desktop.takeAppMetaPending.Refreshed :=
    Desktop.step_refreshed h.desktop htake
  rw [System.forwardAppMeta]
  by_cases hdirty : s.desktop.appMetaDirty = true
  · rw [if_pos hdirty]
    refine ⟨reachable_change h.control _ _, hdesktop, ?_, ?_, ?_⟩
    · rw [State.change_self]
      rfl
    · have hsame : ((s.control.change .appMeta
          (appMetaUpdate s.desktop.takeAppMetaPending.taken)).tx .cursor) = s.control.tx .cursor :=
        State.change_of_ne _ (by decide)
      show s.cursor.Extracted glReadback _
      rw [hsame]
      exact h.cursor
    · exact (congrArg Watch.value (State.change_of_ne _ (by decide))).trans h.pointerLock
  · rw [if_neg hdirty]
    refine ⟨h.control, hdesktop, ?_, h.cursor, h.pointerLock⟩
    have hsame : s.desktop.takeAppMetaPending = s.desktop := by
      rw [Desktop.takeAppMetaPending, if_neg hdirty]
    rw [hsame]
    exact h.appMeta

theorem Kept.forwardPointerLock (h : Kept glReadback s) : Kept glReadback s.forwardPointerLock := by
  obtain ⟨constraints, heq, -⟩ := forwardPointerLock_eq s
  rw [heq]
  split
  · refine ⟨reachable_change h.control _ _, h.desktop, ?_, ?_, ?_⟩
    · exact (congrArg Watch.value (State.change_of_ne _ (by decide))).trans h.appMeta
    · have hsame : ((s.control.change .pointerLock s.locked).tx .cursor) = s.control.tx .cursor :=
        State.change_of_ne _ (by decide)
      show s.cursor.Extracted glReadback _
      rw [hsame]
      exact h.cursor
    · rw [State.change_self]
      rfl
  · exact h.ofConstraints constraints

/-- **Every step keeps it.** -/
theorem Kept.step {a : SystemAction ι} (h : Kept glReadback s)
    (hstep : System.step glReadback s a = some s') : Kept glReadback s' := by
  cases a with
  | window op =>
    have hop : op ≠ .takeAppMetaPending := by
      rintro rfl
      cases hstep
    have hmap : (Desktop.step glReadback s.desktop op).map (fun desktop => { s with desktop }) =
        some s' := by
      cases op <;> first | exact hstep | cases hstep
    obtain ⟨d, hd, rfl⟩ := Option.map_eq_some_iff.1 hmap
    exact h.ofDesktop hd hop
  | commit surface attached =>
    rw [System.step] at hstep
    cases hcursor : s.cursor.commit glReadback surface attached with
    | error e =>
      rw [hcursor] at hstep
      cases hstep
    | ok cursor =>
      rw [hcursor] at hstep
      obtain ⟨d, hd, rfl⟩ := Option.map_eq_some_iff.1 hstep
      have hcommitted : Kept glReadback { s with cursor } :=
        ⟨h.control, h.desktop, h.appMeta, h.cursor.commit hcursor, h.pointerLock⟩
      exact hcommitted.ofDesktop hd nofun
  | cursorImage image =>
    rw [System.step] at hstep
    cases hcursor : s.cursor.cursorImage glReadback image with
    | error e =>
      rw [hcursor] at hstep
      cases hstep
    | ok cursor =>
      rw [hcursor] at hstep
      cases hstep
      exact ⟨h.control, h.desktop, h.appMeta, CursorState.Extracted.cursorImage hcursor,
        h.pointerLock⟩
  | newConstraint surface kind oneshot =>
    rw [System.step] at hstep
    split at hstep
    · cases hstep
    · cases hstep
      rw [newConstraint]
      dsimp only
      split
      · exact h.ofConstraints _
      · exact h.ofConstraints _
  | constraintDestroyed surface =>
    cases hstep
    exact h.ofConstraints _
  | pointerLeft surface =>
    cases hstep
    exact h.ofConstraints _
  | forwardCursor =>
    cases hstep
    exact h.forwardCursor
  | forwardAppMeta =>
    cases hstep
    exact h.forwardAppMeta
  | forwardPointerLock =>
    cases hstep
    exact h.forwardPointerLock
  | connection a =>
    obtain ⟨ha, hstep⟩ := Option.ite_none_left_eq_some.1 hstep
    obtain ⟨c, hc, rfl⟩ := Option.map_eq_some_iff.1 hstep
    have hother : a.isForwarded = false := Bool.eq_false_iff.2 ha
    refine ⟨h.control.next hc, h.desktop, ?_, ?_, ?_⟩
    · exact (congrArg Watch.value (tx_of_connection hc hother (by decide))).trans h.appMeta
    · show s.cursor.Extracted glReadback _
      rw [tx_of_connection hc hother (by decide)]
      exact h.cursor
    · exact (congrArg Watch.value (tx_of_connection hc hother (by decide))).trans h.pointerLock

theorem kept_of_reachable (h : (machine glReadback).Reachable s) : Kept glReadback s := by
  refine h.invariant (fun s hinit => ?_) fun _ _ _ hstep hs => hs.step hstep
  obtain ⟨hdesktop, hcursor, -, hlocked, hcontrol, hdefault⟩ :
    s.desktop = .initial ∧ s.cursor = .initial ∧ s.constraints = (fun _ => none) ∧
      s.pointerLocked = false ∧ s.control.Started ∧ (s.control.tx .cursor).value = .default := hinit
  refine ⟨.start hcontrol, ?_, ?_, ?_, ?_⟩
  · rw [hdesktop]
    exact ⟨rfl, rfl, fun _ => rfl⟩
  · rw [hdesktop]
    exact hcontrol.appMeta
  · rw [hcursor, hdefault]
    exact .initial
  · rw [hlocked]
    exact hcontrol.pointerLock

/-! ## The page mirrors the compositor -/

/-- **All forwarded and sent, the page mirrors the compositor**, after any
interleaving of clients, main loop, handler and page, connections that
drop included. -/
theorem page_mirrors (h : (machine glReadback).Reachable s) (hforwarded : s.Forwarded)
    (hsettled : s.control.Settled) : s.Mirrored glReadback := by
  have hkept := kept_of_reachable h
  have hshows := fun ch => shows_of_settled hkept.control hsettled ch
  have hlatest : ∀ taken, s.cursor.latest taken = taken := by
    intro taken
    rw [CursorState.latest, hforwarded.cursor]
    rfl
  have hcursor := hshows .cursor
  refine ⟨?_, ?_, fun hnone => ?_, fun icon hicon => ?_, fun w hotspot img himage hread hdraw => ?_⟩
  · have htitle : s.control.page.documentTitle = tabTitle (s.control.tx .appMeta).value.title
        (s.control.tx .appMeta).value.appId := hshows .appMeta
    rw [htitle, hkept.appMeta, hkept.desktop.clean hforwarded.appMeta]
    show tabTitle s.desktop.currentTitle s.desktop.currentAppId = _
    rw [hkept.desktop.title, hkept.desktop.appId]
  · have hlock : s.control.page.pointerLockWanted = (s.control.tx .pointerLock).value :=
      hshows .pointerLock
    rw [hlock, hkept.pointerLock, hforwarded.pointerLock]
  · rcases hnone with hnone | hnone
    · have hvalue := hkept.cursor.unset hnone
      rw [hlatest] at hvalue
      rw [hvalue] at hcursor
      exact hcursor
    · have hvalue := hkept.cursor.hidden hnone
      rw [hlatest] at hvalue
      rw [hvalue] at hcursor
      exact hcursor
  · have hvalue := hkept.cursor.named icon hicon
    rw [hlatest] at hvalue
    rw [hvalue] at hcursor
    exact hcursor
  · have hvalue := hkept.cursor.surface w hotspot img
      ((hkept.cursor.cursorSurface w hotspot).1 himage) hread
    rw [hlatest] at hvalue
    rw [hvalue] at hcursor
    obtain ⟨hcanvas, hactive, hoverlay⟩ := hcursor
    exact ⟨hcanvas, hactive, _, hoverlay, drawn_encoded hdraw _ _, rfl⟩

/-! ## And it gets there -/

omit [DecidableEq ι] in
theorem SameClients.trans {t : System ι} (h : s.SameClients t) (h' : t.SameClients s') :
    s.SameClients s' :=
  ⟨h'.space.trans h.space, h'.attributes.trans h.attributes, h'.image.trans h.image,
    h'.buffers.trans h.buffers, h'.locked.trans h.locked⟩

omit [DecidableEq ι] in
/-- The connection is no client's side. -/
theorem sameClients_control (s : System ι) (control : State) :
    s.SameClients { s with control } := ⟨rfl, rfl, rfl, rfl, rfl⟩

omit [DecidableEq ι] in
/-- **Forwarding the cursor** takes it. -/
theorem forwardCursor_spec (s : System ι) : s.SameClients s.forwardCursor ∧
    s.forwardCursor.cursor.cursorPending = none ∧
    s.forwardCursor.control.conn = s.control.conn := by
  rw [forwardCursor]
  rw [CursorState.takeCursorPending]
  cases s.cursor.cursorPending with
  | none => exact ⟨⟨rfl, rfl, rfl, rfl, rfl⟩, rfl, rfl⟩
  | some pending => exact ⟨⟨rfl, rfl, rfl, rfl, rfl⟩, rfl, rfl⟩

omit [DecidableEq ι] in
/-- **Forwarding the names** takes them. -/
theorem forwardAppMeta_spec (s : System ι) : s.SameClients s.forwardAppMeta ∧
    s.forwardAppMeta.desktop.appMetaDirty = false ∧
    s.forwardAppMeta.cursor = s.cursor ∧ s.forwardAppMeta.control.conn = s.control.conn := by
  rw [forwardAppMeta, Desktop.takeAppMetaPending]
  by_cases hdirty : s.desktop.appMetaDirty = true
  · rw [if_pos hdirty, if_pos hdirty]
    exact ⟨⟨rfl, rfl, rfl, rfl, rfl⟩, rfl, rfl, rfl⟩
  · rw [if_neg hdirty, if_neg hdirty]
    exact ⟨⟨rfl, rfl, rfl, rfl, rfl⟩, Bool.eq_false_iff.2 hdirty, rfl, rfl⟩

/-- **Forwarding the lock** leaves none to forward. -/
theorem forwardPointerLock_spec (s : System ι) : s.SameClients s.forwardPointerLock ∧
    s.forwardPointerLock.pointerLocked = s.forwardPointerLock.locked ∧
    s.forwardPointerLock.cursor = s.cursor ∧ s.forwardPointerLock.desktop = s.desktop ∧
    s.forwardPointerLock.control.conn = s.control.conn := by
  obtain ⟨constraints, heq, hlocked⟩ := forwardPointerLock_eq s
  rw [heq]
  by_cases hchanged : s.locked ≠ s.pointerLocked
  · rw [if_pos hchanged]
    exact ⟨⟨rfl, rfl, rfl, rfl, hlocked⟩, hlocked.symm, rfl, rfl, rfl⟩
  · rw [if_neg hchanged]
    exact ⟨⟨rfl, rfl, rfl, rfl, hlocked⟩, (not_not.1 hchanged).symm.trans hlocked.symm, rfl, rfl,
      rfl⟩

/-- A quiet run of the connection is one of the whole. -/
theorem run_connection {acts : List Action} {c : State}
    (h : Control.machine.Run (fun _ a => a.isQuiet = true) s.control acts c) :
    (machine glReadback).Run (fun _ a => a.isOwn = true) s (acts.map .connection)
      { s with control := c } := by
  induction acts generalizing s with
  | nil =>
    obtain rfl : s.control = c := h
    rfl
  | cons a acts ih =>
    obtain ⟨hquiet, t, ht, h⟩ := h
    have hother : ¬ a.isForwarded = true := by
      cases a with
      | change ch v => cases hquiet
      | _ => nofun
    have hstep : System.step glReadback s (.connection a) = some { s with control := t } := by
      replace ht : s.control.step a = some t := ht
      rw [System.step, if_neg hother, ht]
      rfl
    exact ⟨hquiet, _, hstep, ih h⟩

/-- **The page comes to mirror the compositor.** From wherever a connected
server is, the main loop, the handler and the page alone bring it about,
with the clients as they are. -/
theorem page_comes_to_mirror (h : (machine glReadback).Reachable s)
    (hconn : s.control.conn.isSome) :
    ∃ acts s', (machine glReadback).Run (fun _ a => a.isOwn = true) s acts s' ∧
      s.SameClients s' ∧ s'.Mirrored glReadback := by
  obtain ⟨hsame₁, hcursor, hconn₁⟩ := forwardCursor_spec s
  obtain ⟨hsame₂, hdirty, hcursor₂, hconn₂⟩ := forwardAppMeta_spec s.forwardCursor
  obtain ⟨hsame₃, hlocked, hcursor₃, hdesktop₃, hconn₃⟩ :=
    forwardPointerLock_spec s.forwardCursor.forwardAppMeta
  have hforward : (machine glReadback).Run (fun _ a => a.isOwn = true) s
      [.forwardCursor, .forwardAppMeta, .forwardPointerLock]
      s.forwardCursor.forwardAppMeta.forwardPointerLock :=
    ⟨rfl, _, rfl, rfl, _, rfl, rfl, _, rfl, rfl⟩
  generalize s.forwardCursor.forwardAppMeta.forwardPointerLock = t at *
  obtain ⟨c, hc⟩ := Option.isSome_iff_exists.1 hconn
  obtain ⟨control, ⟨acts, hquiet⟩, hsettled, htx⟩ :=
    exists_settled (hconn₃.trans (hconn₂.trans (hconn₁.trans hc)))
  have hrun := hforward.append (run_connection hquiet)
  have hsame : s.SameClients { t with control } :=
    ((hsame₁.trans hsame₂).trans hsame₃).trans (sameClients_control t control)
  refine ⟨_, _, hrun, hsame, page_mirrors ?_ ⟨?_, ?_, ?_⟩ hsettled⟩
  · exact Machine.Reach.run _ h (Machine.Run.mono hrun fun _ _ _ => trivial)
  · show t.cursor.cursorPending = none
    rw [hcursor₃, hcursor₂, hcursor]
  · show t.desktop.appMetaDirty = false
    rw [hdesktop₃, hdirty]
  · exact hlocked

/-- A server with no window, and a page it has not met. -/
def someSystem : System ℕ := ⟨.initial, .initial, fun _ => none, false, someStart⟩

/-- One pixel. -/
def somePixel : WlBuffer := .shm ⟨⟨[1, 2, 3, 255], 0, 1, 1, 4⟩, .argb8888⟩

/-- A window that locks the pointer and has a cursor of its own. -/
def someWindow : List (SystemAction ℕ) :=
  [.window (.newToplevel 0 ⟨"editor", ""⟩), .newConstraint 0 .locked false,
    .commit 1 (some (some somePixel)), .cursorImage (.surface 1 ⟨2, 3⟩), .connection .connect]

/-- What the main loop, the handler and the page make of it. -/
def someForwarding : List (SystemAction ℕ) :=
  [.forwardCursor, .forwardAppMeta, .forwardPointerLock] ++
    List.replicate 7 (.connection .burst) ++
    [.connection (.wake .cursor), .connection .arm, .connection (.wake .appMeta),
      .connection .arm, .connection (.wake .pointerLock), .connection .arm] ++
    List.replicate 7 (.connection .onMessage)

theorem someSystem_init : (machine Compositor.blankReadback).init someSystem :=
  ⟨rfl, rfl, rfl, rfl, someStart_started, rfl⟩

theorem page_comes_to_mirror_someWindow : ∃ s s' : System ℕ,
    s.cursor.image = some (.surface 1 ⟨2, 3⟩) ∧ s.SameClients s' ∧
      s'.Mirrored Compositor.blankReadback := by
  have hrun : ∃ s, (machine Compositor.blankReadback).exec someSystem someWindow = some s ∧
      s.control.conn.isSome ∧ s.cursor.image = some (.surface 1 ⟨2, 3⟩) := ⟨_, rfl, rfl, rfl⟩
  obtain ⟨s, hrun, hconn, himage⟩ := hrun
  obtain ⟨-, s', -, hsame, hmirrored⟩ :=
    page_comes_to_mirror (Machine.reach_of_exec someWindow (.start someSystem_init) hrun) hconn
  exact ⟨s, s', himage, hsame, hmirrored⟩

theorem page_mirrors_someWindow : ∃ s : System ℕ,
    s.cursor.image = some (.surface 1 ⟨2, 3⟩) ∧ s.locked = true ∧
      s.Mirrored Compositor.blankReadback := by
  have hrun : ∃ s, (machine Compositor.blankReadback).exec someSystem
      (someWindow ++ someForwarding) = some s ∧ s.Forwarded ∧ s.control.Settled ∧
      s.cursor.image = some (.surface 1 ⟨2, 3⟩) ∧ s.locked = true := by
    refine ⟨_, rfl, ⟨rfl, rfl, rfl⟩, ⟨_, rfl, rfl, rfl, fun ch => ?_⟩, rfl, rfl⟩
    cases ch <;> rfl
  obtain ⟨s, hrun, hforwarded, hsettled, himage, hlocked⟩ := hrun
  exact ⟨s, himage, hlocked, page_mirrors
    (Machine.reach_of_exec _ (.start someSystem_init) hrun) hforwarded hsettled⟩

end Steps

end System

end Control

end WaylandWebStream
