import WaylandWebStream.Compositor.Favicon
import WaylandWebStream.Lib.Machine
import Mathlib.Logic.Function.Basic
import Mathlib.Data.List.Induction

/-!
# The browser tab — title, app id and favicon of the topmost window

Title and app id are read off the topmost window whenever the focus may
have moved or a client set one. The favicon is not: it is extracted when
the surface `set_icon` last flagged commits, and only if that surface's
window is then topmost. So the tab always has the right title, and the
right icon until the topmost window changes to one with another icon.
-/

namespace WaylandWebStream

namespace Compositor

/-- What the browser tab shows. -/
structure AppMeta where
  title : String
  appId : String
  favicon : Option Image
  deriving DecidableEq

/-- What an `xdg_toplevel` is called by its client. -/
structure Attributes where
  title : String
  appId : String
  deriving DecidableEq

/-- The windows and what is known of them. -/
structure Desktop (ι : Type) where
  /-- The mapped windows by their surfaces, bottom to top. -/
  space : List ι
  attributes : ι → Attributes
  /-- The buffers of each surface's icon, as committed. -/
  icon : ι → List WlBuffer
  /-- The icon each surface has set since its last commit. -/
  pendingIcon : ι → Option (List WlBuffer)
  iconDirtySurface : Option ι
  currentTitle : String
  currentAppId : String
  currentFavicon : Option Image
  appMetaDirty : Bool
  /-- What `take_app_meta_pending` last returned. -/
  taken : AppMeta

/-- What clients and the main loop do. -/
inductive DesktopOp (ι : Type)
  /-- A new toplevel, and what it is called by then. -/
  | newToplevel (surface : ι) (attributes : Attributes)
  | toplevelDestroyed (surface : ι)
  | setTitle (surface : ι) (title : String)
  | setAppId (surface : ι) (appId : String)
  | setIcon (surface : ι) (icon : List WlBuffer)
  | commit (surface : ι)
  | takeAppMetaPending

namespace Desktop

variable {ι : Type} [DecidableEq ι]

/-- No window, and nothing shown. -/
def initial : Desktop ι where
  space := []
  attributes := fun _ => ⟨"", ""⟩
  icon := fun _ => []
  pendingIcon := fun _ => none
  iconDirtySurface := none
  currentTitle := ""
  currentAppId := ""
  currentFavicon := none
  appMetaDirty := false
  taken := ⟨"", "", none⟩

section Operations

variable (glReadback : Dmabuf → Option Image) (s : Desktop ι)

/-- `space.elements().last()`. -/
def topmost : Option ι := s.space.getLast?

/-- What the topmost window is called. -/
def topmostAttributes : Attributes := (s.topmost.map s.attributes).getD ⟨"", ""⟩

/-- Recomputes title and app id. -/
def refreshAppMeta : Desktop ι :=
  let attributes := s.topmostAttributes
  if attributes.title ≠ s.currentTitle ∨ attributes.appId ≠ s.currentAppId then
    { s with currentTitle := attributes.title, currentAppId := attributes.appId,
             appMetaDirty := true }
  else s

/-- Maps the window on top; the focus follows. -/
def newToplevel (surface : ι) (attributes : Attributes) : Desktop ι :=
  { s with space := s.space ++ [surface],
           attributes := Function.update s.attributes surface attributes }.refreshAppMeta

/-- Unmaps the window, if it is mapped; the focus follows. -/
def toplevelDestroyed (surface : ι) : Desktop ι :=
  if surface ∈ s.space then { s with space := s.space.erase surface }.refreshAppMeta else s

/-- A title takes effect at once. -/
def setTitle (surface : ι) (title : String) : Desktop ι :=
  { s with attributes := Function.update s.attributes surface
            { s.attributes surface with title := title } }.refreshAppMeta

def setAppId (surface : ι) (appId : String) : Desktop ι :=
  { s with attributes := Function.update s.attributes surface
            { s.attributes surface with appId := appId } }.refreshAppMeta

/-- An icon waits for its surface's next commit. -/
def setIcon (surface : ι) (icon : List WlBuffer) : Desktop ι :=
  { s with pendingIcon := Function.update s.pendingIcon surface (some icon),
           iconDirtySurface := some surface }

/-- The icon a surface has once it commits. -/
def nextIcon (surface : ι) : List WlBuffer := (s.pendingIcon surface).getD (s.icon surface)

/-- The pending icon becomes the surface's. -/
def applyPending (surface : ι) : Desktop ι :=
  { s with icon := Function.update s.icon surface (s.nextIcon surface),
           pendingIcon := Function.update s.pendingIcon surface none }

/-- A favicon, staged if it is another one. -/
def showFavicon (favicon : Option Image) : Desktop ι :=
  if favicon ≠ s.currentFavicon then { s with currentFavicon := favicon, appMetaDirty := true }
  else s

/-- Shows the surface's icon, if its window is topmost. -/
def extractToplevelIcon (surface : ι) : Except Panic (Desktop ι) :=
  if s.topmost = some surface then do
    let favicon ← favicon glReadback (s.icon surface)
    pure (s.showFavicon favicon)
  else pure s

/-- A commit, and the icon where `set_icon` last flagged the surface. -/
def commit (surface : ι) : Except Panic (Desktop ι) :=
  let s := s.applyPending surface
  if s.iconDirtySurface = some surface then
    { s with iconDirtySurface := none }.extractToplevelIcon glReadback surface
  else pure s

/-- What is shown, if it changed since the last call. -/
def takeAppMetaPending : Desktop ι :=
  if s.appMetaDirty then
    { s with appMetaDirty := false, taken := ⟨s.currentTitle, s.currentAppId, s.currentFavicon⟩ }
  else s

/-- One operation; a panic ends the run. -/
def step (s : Desktop ι) : DesktopOp ι → Option (Desktop ι)
  | .newToplevel surface attributes =>
    if surface ∈ s.space then none else some (s.newToplevel surface attributes)
  | .toplevelDestroyed surface => some (s.toplevelDestroyed surface)
  | .setTitle surface title => some (s.setTitle surface title)
  | .setAppId surface appId => some (s.setAppId surface appId)
  | .setIcon surface icon => some (s.setIcon surface icon)
  | .commit surface => (s.commit glReadback surface).toOption
  | .takeAppMetaPending => some s.takeAppMetaPending

/-- **The desktop**, from no window on. -/
def machine : Machine (Desktop ι) (DesktopOp ι) := ⟨fun s => s = initial, step glReadback⟩

/-- The favicon of an icon; none where reading it panics. -/
def faviconOf (icon : List WlBuffer) : Option Image :=
  match favicon glReadback icon with
  | .ok img => img
  | .error _ => none

/-- The favicon of a window, none where there is no window. -/
def windowFavicon (surface : Option ι) : Option Image :=
  surface.bind fun w => faviconOf glReadback (s.icon w)

/-- **What the tab should show**: the topmost window's. -/
def metadata : AppMeta :=
  ⟨s.topmostAttributes.title, s.topmostAttributes.appId, s.windowFavicon glReadback s.topmost⟩

/-- **The tab's icon need not move** on this step. The topmost window
changes to one with the icon shown, and it commits another icon only
flagged. -/
def Steady (s : Desktop ι) : DesktopOp ι → Prop
  | .newToplevel surface _ => s.windowFavicon glReadback (some surface) = s.currentFavicon
  | .toplevelDestroyed surface => s.topmost = some surface →
      s.windowFavicon glReadback (s.space.erase surface).getLast? = s.currentFavicon
  | .commit surface => s.topmost = some surface → s.iconDirtySurface ≠ some surface →
      faviconOf glReadback (s.nextIcon surface) = s.currentFavicon
  | _ => True

end Operations

/-! ## What each operation leaves -/

section Steps

variable {glReadback : Dmabuf → Option Image} {s s' : Desktop ι} {surface w : ι} {op : DesktopOp ι}

/-- Nothing taken is stale: what differs from what is shown is pending. -/
def Clean (s : Desktop ι) : Prop :=
  s.appMetaDirty = false → s.taken = ⟨s.currentTitle, s.currentAppId, s.currentFavicon⟩

/-- **Title and app id are the topmost window's**, as far as it is taken. -/
structure Refreshed (s : Desktop ι) : Prop where
  title : s.currentTitle = s.topmostAttributes.title
  appId : s.currentAppId = s.topmostAttributes.appId
  clean : s.Clean

omit [DecidableEq ι] in
/-- Recomputing touches title and app id only. -/
theorem refreshAppMeta_frame (s : Desktop ι) :
    s.refreshAppMeta.space = s.space ∧ s.refreshAppMeta.icon = s.icon ∧
      s.refreshAppMeta.currentFavicon = s.currentFavicon := by
  unfold refreshAppMeta
  dsimp only
  split <;> exact ⟨rfl, rfl, rfl⟩

omit [DecidableEq ι] in
/-- Recomputing makes title and app id right. -/
theorem refreshAppMeta_refreshed (h : s.Clean) : s.refreshAppMeta.Refreshed := by
  unfold refreshAppMeta
  dsimp only
  split
  · exact ⟨rfl, rfl, fun hdirty => by cases hdirty⟩
  · next heq =>
    rw [not_or, not_not, not_not] at heq
    exact ⟨heq.1.symm, heq.2.symm, h⟩

/-- Windows and names stand, whatever became of the icon. -/
structure SameNames (s s' : Desktop ι) : Prop where
  space : s'.space = s.space
  attributes : s'.attributes = s.attributes
  title : s'.currentTitle = s.currentTitle
  appId : s'.currentAppId = s.currentAppId
  clean : s.Clean → s'.Clean

omit [DecidableEq ι] in
theorem SameNames.refreshed (h : SameNames s s') (hs : s.Refreshed) : s'.Refreshed := by
  have hattributes : s'.topmostAttributes = s.topmostAttributes := by
    rw [topmostAttributes, topmostAttributes, topmost, topmost, h.space, h.attributes]
  refine ⟨?_, ?_, h.clean hs.clean⟩
  · rw [h.title, hattributes, hs.title]
  · rw [h.appId, hattributes, hs.appId]

omit [DecidableEq ι] in
theorem showFavicon_sameNames (s : Desktop ι) (img : Option Image) :
    SameNames s (s.showFavicon img) := by
  unfold showFavicon
  split
  · exact ⟨rfl, rfl, rfl, rfl, fun _ hdirty => by cases hdirty⟩
  · exact ⟨rfl, rfl, rfl, rfl, id⟩

omit [DecidableEq ι] in
theorem showFavicon_currentFavicon (s : Desktop ι) (img : Option Image) :
    (s.showFavicon img).currentFavicon = img ∧ (s.showFavicon img).icon = s.icon := by
  unfold showFavicon
  split
  · exact ⟨rfl, rfl⟩
  · next hne => exact ⟨(not_not.1 hne).symm, rfl⟩

/-- What an extraction leaves. -/
theorem extractToplevelIcon_ok (h : s.extractToplevelIcon glReadback surface = .ok s') :
    SameNames s s' ∧ s'.icon = s.icon ∧
      s'.currentFavicon = if s.topmost = some surface then faviconOf glReadback (s.icon surface)
        else s.currentFavicon := by
  rw [extractToplevelIcon] at h
  by_cases htop : s.topmost = some surface
  · rw [if_pos htop] at h ⊢
    rw [faviconOf]
    cases hf : favicon glReadback (s.icon surface) with
    | error e =>
      rw [hf] at h
      cases h
    | ok img =>
      rw [hf] at h
      cases h
      obtain ⟨hfavicon, hicon⟩ := s.showFavicon_currentFavicon img
      exact ⟨s.showFavicon_sameNames img, hicon, hfavicon⟩
  · rw [if_neg htop] at h ⊢
    cases h
    exact ⟨⟨rfl, rfl, rfl, rfl, id⟩, rfl, rfl⟩

/-- **What a commit leaves**: the pending icon is the surface's, and shown
where the surface is flagged and its window topmost. -/
theorem commit_ok (h : s.commit glReadback surface = .ok s') :
    SameNames s s' ∧ s'.icon = Function.update s.icon surface (s.nextIcon surface) ∧
      s'.currentFavicon =
        if s.iconDirtySurface = some surface ∧ s.topmost = some surface then
          faviconOf glReadback (s.nextIcon surface)
        else s.currentFavicon := by
  rw [commit] at h
  by_cases hflag : s.iconDirtySurface = some surface
  · have hflag' : (s.applyPending surface).iconDirtySurface = some surface := hflag
    rw [if_pos hflag'] at h
    obtain ⟨hnames, hicon, hfavicon⟩ := extractToplevelIcon_ok h
    refine ⟨⟨hnames.space, hnames.attributes, hnames.title, hnames.appId, hnames.clean⟩, hicon, ?_⟩
    have hshown : s'.currentFavicon = if s.topmost = some surface then
        faviconOf glReadback (Function.update s.icon surface (s.nextIcon surface) surface)
        else s.currentFavicon := hfavicon
    rw [hshown, Function.update_self]
    by_cases htop : s.topmost = some surface
    · rw [if_pos htop, if_pos ⟨hflag, htop⟩]
    · rw [if_neg htop, if_neg fun hboth => htop hboth.2]
  · have hflag' : (s.applyPending surface).iconDirtySurface ≠ some surface := hflag
    rw [if_neg hflag'] at h
    cases h
    exact ⟨⟨rfl, rfl, rfl, rfl, id⟩, rfl, (if_neg fun hboth => hflag hboth.1).symm⟩

/-! ## Title and app id -/

/-- Every operation leaves title and app id right. -/
theorem step_refreshed (hs : s.Refreshed) (h : step glReadback s op = some s') :
    s'.Refreshed := by
  cases op with
  | newToplevel surface attributes =>
    obtain ⟨-, heq⟩ := Option.ite_none_left_eq_some.1 h
    cases heq
    exact refreshAppMeta_refreshed hs.clean
  | toplevelDestroyed surface =>
    cases h
    rw [toplevelDestroyed]
    split
    · exact refreshAppMeta_refreshed hs.clean
    · exact hs
  | setTitle surface title =>
    cases h
    exact refreshAppMeta_refreshed hs.clean
  | setAppId surface appId =>
    cases h
    exact refreshAppMeta_refreshed hs.clean
  | setIcon surface icon =>
    cases h
    exact ⟨hs.title, hs.appId, hs.clean⟩
  | commit surface =>
    rw [step] at h
    cases hc : s.commit glReadback surface with
    | error e =>
      rw [hc] at h
      cases h
    | ok t =>
      rw [hc] at h
      cases h
      exact (commit_ok hc).1.refreshed hs
  | takeAppMetaPending =>
    cases h
    rw [takeAppMetaPending]
    split
    · exact ⟨hs.title, hs.appId, fun _ => rfl⟩
    · exact hs

/-- **Title and app id are the topmost window's** in every reachable state,
and taken once the pending change is. -/
theorem refreshed_of_reachable (h : (machine glReadback).Reachable s) : s.Refreshed :=
  h.invariant (fun _ hs => by rw [hs]; exact ⟨rfl, rfl, fun _ => rfl⟩)
    fun _ _ _ hstep hs => step_refreshed hs hstep

/-! ## The favicon -/

/-- Erasing another than the last leaves the last. -/
theorem getLast?_erase_of_ne {l : List ι} (h : l.getLast? ≠ some surface) :
    (l.erase surface).getLast? = l.getLast? := by
  induction l using List.reverseRecOn with
  | nil => rfl
  | append_singleton l w _ =>
    rw [List.getLast?_concat] at h ⊢
    rw [List.erase_append]
    split
    · exact List.getLast?_concat
    · have hne : surface ∉ [w] := fun hmem => h (by rw [List.mem_singleton.1 hmem])
      rw [List.erase_of_not_mem hne, List.getLast?_concat]

/-- The icon shown is the topmost window's. -/
def Shown (glReadback : Dmabuf → Option Image) (s : Desktop ι) : Prop :=
  s.currentFavicon = s.windowFavicon glReadback s.topmost

omit [DecidableEq ι] in
/-- Other attributes leave the icon right. -/
theorem refreshAppMeta_shown (hs : s.Shown glReadback) (attributes : ι → Attributes) :
    Shown glReadback ({ s with attributes := attributes } : Desktop ι).refreshAppMeta := by
  obtain ⟨hspace, hicon, hfavicon⟩ := refreshAppMeta_frame { s with attributes := attributes }
  rw [Shown, windowFavicon, topmost, hspace, hicon, hfavicon]
  exact hs

/-- **A step keeps the icon right exactly when it is steady.** -/
theorem step_shown_iff (hs : s.Shown glReadback) (h : step glReadback s op = some s') :
    s'.Shown glReadback ↔ Steady glReadback s op := by
  cases op with
  | newToplevel surface attributes =>
    obtain ⟨-, heq⟩ := Option.ite_none_left_eq_some.1 h
    cases heq
    obtain ⟨hspace, hicon, hfavicon⟩ := refreshAppMeta_frame
      { s with space := s.space ++ [surface],
               attributes := Function.update s.attributes surface attributes }
    rw [Shown, windowFavicon, topmost, newToplevel, hspace, hicon, hfavicon,
      List.getLast?_concat]
    exact eq_comm
  | toplevelDestroyed surface =>
    cases h
    rw [toplevelDestroyed, Steady]
    by_cases hmem : surface ∈ s.space
    · rw [if_pos hmem]
      obtain ⟨hspace, hicon, hfavicon⟩ := refreshAppMeta_frame
        { s with space := s.space.erase surface }
      rw [Shown, windowFavicon, topmost, hspace, hicon, hfavicon]
      -- only the topmost window uncovers another's icon when it goes
      by_cases htop : s.topmost = some surface
      · exact eq_comm.trans ⟨fun heq _ => heq, fun heq => heq htop⟩
      · refine iff_of_true ?_ fun heq => absurd heq htop
        rw [getLast?_erase_of_ne htop]
        exact hs
    · rw [if_neg hmem]
      exact iff_of_true hs fun htop => absurd (List.mem_of_getLast? htop) hmem
  | setTitle surface title =>
    cases h
    exact iff_of_true (refreshAppMeta_shown hs _) trivial
  | setAppId surface appId =>
    cases h
    exact iff_of_true (refreshAppMeta_shown hs _) trivial
  | setIcon surface icon =>
    cases h
    exact iff_of_true hs trivial
  | commit surface =>
    rw [step] at h
    cases hc : s.commit glReadback surface with
    | error e =>
      rw [hc] at h
      cases h
    | ok t =>
      rw [hc] at h
      cases h
      obtain ⟨hnames, hicon, hfavicon⟩ := commit_ok hc
      rw [Shown, Steady, windowFavicon, topmost, hnames.space, hicon, hfavicon]
      -- a commit of the topmost window renews the icon only if its icon is the last one set
      by_cases htop : s.topmost = some surface
      · have hnew : s.space.getLast?.bind (fun w => faviconOf glReadback
            (Function.update s.icon surface (s.nextIcon surface) w)) =
              faviconOf glReadback (s.nextIcon surface) := by
          have htop' : s.space.getLast? = some surface := htop
          rw [htop', Option.bind_some, Function.update_self]
        rw [hnew]
        by_cases hflag : s.iconDirtySurface = some surface
        · rw [if_pos ⟨hflag, htop⟩]
          exact iff_of_true rfl fun _ hne => absurd hflag hne
        · rw [if_neg fun hboth => hflag hboth.1]
          exact eq_comm.trans ⟨fun heq _ _ => heq, fun heq => heq htop hflag⟩
      · rw [if_neg fun hboth => htop hboth.2]
        refine iff_of_true ?_ fun heq => absurd heq htop
        rw [hs, windowFavicon]
        refine Option.bind_congr fun w hw => ?_
        rw [Function.update_of_ne]
        rintro rfl
        exact htop hw
  | takeAppMetaPending =>
    cases h
    refine iff_of_true ?_ trivial
    rw [takeAppMetaPending]
    split <;> exact hs

omit [DecidableEq ι] in
/-- What is taken, once taken, is what is shown. -/
theorem taken_takeAppMetaPending (hs : s.Refreshed) (hshown : s.Shown glReadback) :
    s.takeAppMetaPending.taken = s.metadata glReadback := by
  have hshow : (⟨s.currentTitle, s.currentAppId, s.currentFavicon⟩ : AppMeta) =
      s.metadata glReadback := by
    rw [metadata, hs.title, hs.appId, hshown]
  rw [takeAppMetaPending]
  split
  · exact hshow
  · next hdirty => exact (hs.clean (Bool.not_eq_true _ ▸ hdirty)).trans hshow

/-- **The tab shows the topmost window** in every state a steady run
reaches: its title, its app id and its icon. -/
theorem taken_eq_metadata (h : (machine glReadback).Reach (Steady glReadback) s) :
    s.takeAppMetaPending.taken = s.metadata glReadback := by
  refine taken_takeAppMetaPending (refreshed_of_reachable h.reachable) ?_
  exact h.invariant (fun _ hs => by rw [hs]; rfl)
    fun _ _ _ hok hstep hs => (step_shown_iff hs hstep).2 hok

/-- A window opens, and its client names it. -/
def opened (surface : ℕ) (title appId : String) : List (DesktopOp ℕ) :=
  [.newToplevel surface ⟨"", ""⟩, .setTitle surface title, .setAppId surface appId]

/-- A window that sets a title and an icon. -/
def windowAlone : List (DesktopOp ℕ) :=
  opened 0 "editor" "ed" ++ [.setIcon 0 [tiled 16], .commit 0]

/-- Its icon is in the tab. -/
theorem taken_eq_metadata_alone : ∃ s : Desktop ℕ,
    (machine blankReadback).exec initial windowAlone = some s ∧
      s.takeAppMetaPending.taken = s.metadata blankReadback ∧
        s.metadata blankReadback = ⟨"editor", "ed", some (blank 16)⟩ :=
  ⟨_, rfl, taken_eq_metadata (.next (.next (.next (.next (.next (.start rfl)
    (a := .newToplevel 0 ⟨"", ""⟩) rfl rfl) (a := .setTitle 0 "editor") trivial rfl)
    (a := .setAppId 0 "ed") trivial rfl) (a := .setIcon 0 [tiled 16]) trivial rfl)
    (a := .commit 0) (fun _ hne => absurd rfl hne) rfl), rfl⟩

/-- A window with an icon, and another opened over it. -/
def windowOver : List (DesktopOp ℕ) :=
  windowAlone ++ [.takeAppMetaPending] ++ opened 1 "terminal" "term"

/-- **The tab keeps the covered window's icon.** -/
theorem windowOver_keeps_icon : ∃ s : Desktop ℕ, (machine blankReadback).Reachable s ∧
    s.takeAppMetaPending.taken = ⟨"terminal", "term", some (blank 16)⟩ ∧
      s.metadata blankReadback = ⟨"terminal", "term", none⟩ := by
  refine ⟨_, Machine.reach_of_exec windowOver (.start rfl) rfl, ?_, ?_⟩
  · rfl
  · rfl

end Steps

end Desktop

end Compositor

end WaylandWebStream
