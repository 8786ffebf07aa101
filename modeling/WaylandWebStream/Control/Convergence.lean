import WaylandWebStream.Control.Follows

/-!
# Control state — the icon, and convergence

The burst leaves out an absent favicon, and the loop sends it only on a
difference from the one it takes for sent. So the icon follows where no
burst leaves one in the page, and then the page comes to agree with the
server in all; and where a burst does, they disagree until the next
change.
-/

namespace WaylandWebStream

namespace Control

open Wire

variable {s s' : State} {c : Conn} {ch : Channel}

/-! ## The favicon -/

namespace State

/-- **No favicon is sent before the burst comes to it**, and it comes to it
once. -/
structure Early (c : Conn) : Prop where
  nodup : c.stage.rest.Nodup
  toPage : .appMeta ∈ c.stage.rest → ∀ m ∈ c.toPage, ∀ favicon, m ≠ .control (.favicon favicon)

theorem early_opened : Early opened where
  nodup := by decide
  toPage _ m hm := absurd hm List.not_mem_nil

theorem early_of_none {c : Conn} (h : c.stage.rest = []) : Early c := by
  refine ⟨?_, fun hmem => ?_⟩
  · rw [h]
    exact List.nodup_nil
  · rw [h] at hmem
    exact absurd hmem List.not_mem_nil

theorem early_step {a : Action} (h : ∀ c, s.conn = some c → Early c)
    (hstep : s.step a = some s') : ∀ c, s'.conn = some c → Early c := by
  cases a with
  | change ch v =>
    cases hstep
    exact h
  | connect =>
    obtain ⟨-, rfl⟩ := step_connect hstep
    intro c hc
    cases hc
    exact early_opened
  | burst =>
    obtain ⟨c, hc, ⟨hstage, rfl⟩ | ⟨ch, rest, hstage, rfl⟩⟩ := step_burst hstep
    · intro c' hc'
      cases hc'
      exact early_of_none rfl
    · intro c' hc'
      cases hc'
      obtain ⟨hnodup, htoPage⟩ := h c hc
      rw [hstage] at hnodup htoPage
      obtain ⟨hnew, hrest⟩ := List.nodup_cons.1 hnodup
      refine ⟨hrest, fun hmem m hm => ?_⟩
      have hne : ch ≠ .appMeta := fun heq => hnew (heq ▸ hmem)
      rcases List.mem_append.1 hm with hm | hm
      · exact htoPage (List.mem_cons_of_mem _ hmem) m hm
      · exact ne_favicon_of_about (about_burstOf _ hm) hne
  | wake ch =>
    obtain ⟨c, hc, -, rfl⟩ := step_wake hstep
    intro c' hc'
    cases hc'
    exact early_of_none rfl
  | arm =>
    obtain ⟨c, ch, hc, -, rfl⟩ := step_arm hstep
    intro c' hc'
    cases hc'
    exact early_of_none rfl
  | onMessage =>
    obtain ⟨c, m, toPage, hc, htoPage, rfl⟩ := step_onMessage hstep
    intro c' hc'
    cases hc'
    refine ⟨(h c hc).nodup, fun hmem m' hm' => ?_⟩
    exact (h c hc).toPage hmem m' (htoPage ▸ List.mem_cons_of_mem _ hm')
  | closed =>
    obtain rfl := step_closed hstep
    exact nofun

/-- **The icon follows too**, where the burst did not leave one in the page:
the last one sent is shown, or about to be. -/
def Iconic (s : State) (c : Conn) : Prop :=
  .appMeta ∉ c.stage.rest → (s.eventual c).appFavicon = c.lastAppMeta.favicon

/-- The next piece of the burst. -/
theorem Iconic.burst (h : s.Iconic c) (he : Early c) {rest : List Channel}
    (hstage : c.stage = .burst (ch :: rest))
    (hclear : ch = .appMeta → (s.tx .appMeta).value.favicon = none → s.page.appFavicon = none) :
    s.Iconic { c with
      stage := .burst rest
      lastAppMeta := remember c.lastAppMeta ch (s.tx ch).value
      toPage := c.toPage ++ burstOf ch (s.tx ch).value } := by
  intro hnot
  show (s.page.onMessages (c.toPage ++ burstOf ch (s.tx ch).value)).appFavicon =
    (remember c.lastAppMeta ch (s.tx ch).value).favicon
  rw [Page.onMessages_append]
  by_cases hmeta : ch = .appMeta
  · subst hmeta
    have hbefore : (s.page.onMessages c.toPage).appFavicon = s.page.appFavicon :=
      Page.appFavicon_onMessages (he.toPage (by rw [hstage]; exact List.mem_cons_self))
    rw [appFavicon_burstOf, hbefore]
    show _ = (s.tx .appMeta).value.favicon
    cases hfavicon : (s.tx .appMeta).value.favicon with
    | none => exact hclear rfl hfavicon
    | some favicon => rfl
  · rw [remember_of_ne _ hmeta,
      Page.appFavicon_onMessages fun m hm => ne_favicon_of_about (about_burstOf _ hm) hmeta]
    refine h ?_
    rw [hstage]
    exact fun hmem => (List.mem_cons.1 hmem).elim (fun heq => hmeta heq.symm) hnot

/-- The change is sent. -/
theorem Iconic.arm (h : s.Iconic c) (hstage : c.stage = .woken ch) :
    s.Iconic { c with
      stage := .serving
      lastAppMeta := (handlerTurn c.lastAppMeta (changed ch (s.tx ch).value)).2
      toPage := c.toPage ++ (handlerTurn c.lastAppMeta (changed ch (s.tx ch).value)).1 } := by
  intro _
  have hlast : (s.page.onMessages c.toPage).appFavicon = c.lastAppMeta.favicon :=
    h (Stage.not_mem_rest (Or.inr (Or.inr ⟨ch, hstage⟩)) _)
  show (s.page.onMessages (c.toPage ++ _)).appFavicon = _
  rw [Page.onMessages_append]
  by_cases hmeta : ch = .appMeta
  · subst hmeta
    exact appFavicon_handlerTurn _ hlast
  · rw [handlerTurn_snd_of_ne _ hmeta, Page.appFavicon_onMessages fun m hm =>
      ne_favicon_of_about (about_handlerTurn _ hm) hmeta]
    exact hlast

/-- A message is handled. -/
theorem Iconic.onMessage (h : s.Iconic c) {toPage : List Emission}
    (htoPage : c.toPage = m :: toPage) {conn : Option Conn} :
    Iconic { s with page := s.page.onMessage m, conn } { c with toPage } := by
  intro hnot
  have hlate := h hnot
  rw [eventual, htoPage, Page.onMessages_cons] at hlate
  exact hlate

/-- **Every step keeps the icon following**, if the burst leaves out only
a favicon the page has not got. -/
theorem iconic_step {a : Action} (he : ∀ c, s.conn = some c → Early c)
    (h : ∀ c, s.conn = some c → s.Iconic c) (hclear : FaviconClear s a)
    (hstep : s.step a = some s') : ∀ c, s'.conn = some c → s'.Iconic c := by
  cases a with
  | change ch v =>
    cases hstep
    exact h
  | connect =>
    obtain ⟨-, rfl⟩ := step_connect hstep
    intro c hc
    cases hc
    exact fun hnot => absurd (by decide) hnot
  | burst =>
    obtain ⟨c, hc, ⟨hstage, rfl⟩ | ⟨ch, rest, hstage, rfl⟩⟩ := step_burst hstep
    · intro c' hc' _
      cases hc'
      exact h c hc (Stage.not_mem_rest (Or.inl hstage) _)
    · intro c' hc'
      cases hc'
      refine (h c hc).burst (he c hc) hstage fun hmeta => ?_
      subst hmeta
      exact hclear rfl c rest hc hstage
  | wake ch =>
    obtain ⟨c, hc, hstage, rfl⟩ := step_wake hstep
    intro c' hc' _
    cases hc'
    exact h c hc (Stage.not_mem_rest (Or.inr (Or.inl hstage)) _)
  | arm =>
    obtain ⟨c, ch, hc, hstage, rfl⟩ := step_arm hstep
    intro c' hc'
    cases hc'
    exact (h c hc).arm hstage
  | onMessage =>
    obtain ⟨c, m, toPage, hc, htoPage, rfl⟩ := step_onMessage hstep
    intro c' hc'
    cases hc'
    exact (h c hc).onMessage htoPage
  | closed =>
    obtain rfl := step_closed hstep
    exact nofun

/-- **A favicon left behind**: the page shows one, the server has none, and
the connection takes that for sent. -/
structure Left (s : State) (c : Conn) : Prop where
  value : (s.tx .appMeta).value.favicon = none
  last : c.lastAppMeta.favicon = none
  rest : .appMeta ∉ c.stage.rest
  toPage : ∀ m ∈ c.toPage, ∀ favicon, m ≠ .control (.favicon favicon)
  icon : s.page.appFavicon ≠ none

/-- The burst leaves the favicon out over an icon. -/
theorem left_of_burst (he : Early c) {rest : List Channel} {conn : Option Conn}
    (hstage : c.stage = .burst (.appMeta :: rest))
    (hvalue : (s.tx .appMeta).value.favicon = none) (hicon : s.page.appFavicon ≠ none) :
    Left { s with conn } { c with
      stage := .burst rest
      lastAppMeta := remember c.lastAppMeta .appMeta (s.tx .appMeta).value
      toPage := c.toPage ++ burstOf .appMeta (s.tx .appMeta).value } := by
  have hnodup := he.nodup
  rw [hstage] at hnodup
  refine ⟨hvalue, hvalue, (List.nodup_cons.1 hnodup).1, fun m hm favicon => ?_, hicon⟩
  rcases List.mem_append.1 hm with hm | hm
  · exact he.toPage (by rw [hstage]; exact List.mem_cons_self) m hm favicon
  · -- the burst is the title alone
    simp only [burstOf, hvalue] at hm
    rw [List.mem_singleton.1 hm]
    intro heq
    cases heq

/-- The loop sends no favicon where it takes none for sent. -/
theorem Left.turn (h : s.Left c) (ch : Channel) :
    (∀ m ∈ (handlerTurn c.lastAppMeta (changed ch (s.tx ch).value)).1,
      ∀ favicon, m ≠ .control (.favicon favicon)) ∧
    (handlerTurn c.lastAppMeta (changed ch (s.tx ch).value)).2.favicon = none := by
  by_cases hmeta : ch = .appMeta
  · subst hmeta
    refine ⟨fun m hm favicon => ?_, h.value⟩
    rcases List.mem_append.1 hm with hm | hm
    · split at hm
      · rw [List.mem_singleton.1 hm]
        nofun
      · cases hm
    · rw [if_neg (not_not.2 (h.value.trans h.last.symm))] at hm
      cases hm
  · refine ⟨fun m hm => ne_favicon_of_about (about_handlerTurn _ hm) hmeta, ?_⟩
    rw [handlerTurn_snd_of_ne _ hmeta]
    exact h.last

/-- **A favicon left behind stays** until the metadata change or the
connection ends. -/
theorem left_step {a : Action} (ha : a.isQuiet = true) (hc : s.conn = some c) (h : s.Left c)
    (hstep : s.step a = some s') : ∃ c', s'.conn = some c' ∧ s'.Left c' := by
  cases a with
  | change ch v => cases ha
  | closed => cases ha
  | connect =>
    obtain ⟨hnone, -⟩ := step_connect hstep
    rw [hc] at hnone
    cases hnone
  | burst =>
    obtain ⟨c₁, hc₁, ⟨hstage, rfl⟩ | ⟨ch, rest, hstage, rfl⟩⟩ := step_burst hstep
    · obtain rfl := Option.some.inj (hc.symm.trans hc₁)
      exact ⟨_, rfl, h.value, h.last, List.not_mem_nil, h.toPage, h.icon⟩
    · obtain rfl := Option.some.inj (hc.symm.trans hc₁)
      have hrest := h.rest
      rw [hstage] at hrest
      -- the burst is past the metadata, so no favicon is left in it
      have hne : ch ≠ .appMeta := fun heq => hrest (heq ▸ List.mem_cons_self)
      refine ⟨_, rfl, h.value, ?_, fun hmem => hrest (List.mem_cons_of_mem _ hmem),
        fun m hm => ?_, h.icon⟩
      · exact (congrArg AppMeta.favicon (remember_of_ne _ hne)).trans h.last
      · rcases List.mem_append.1 hm with hm | hm
        · exact h.toPage m hm
        · exact ne_favicon_of_about (about_burstOf _ hm) hne
  | wake ch =>
    obtain ⟨c₁, hc₁, -, rfl⟩ := step_wake hstep
    obtain rfl := Option.some.inj (hc.symm.trans hc₁)
    exact ⟨_, rfl, h.value, h.last, List.not_mem_nil, h.toPage, h.icon⟩
  | arm =>
    obtain ⟨c₁, ch, hc₁, -, rfl⟩ := step_arm hstep
    obtain rfl := Option.some.inj (hc.symm.trans hc₁)
    obtain ⟨hsent, hlast⟩ := h.turn ch
    refine ⟨_, rfl, h.value, hlast, List.not_mem_nil, fun m hm => ?_, h.icon⟩
    rcases List.mem_append.1 hm with hm | hm
    · exact h.toPage m hm
    · exact hsent m hm
  | onMessage =>
    obtain ⟨c₁, m, toPage, hc₁, htoPage, rfl⟩ := step_onMessage hstep
    obtain rfl := Option.some.inj (hc.symm.trans hc₁)
    have hmem : ∀ m' ∈ m :: toPage, m' ∈ c.toPage := fun m' hm' => htoPage ▸ hm'
    refine ⟨_, rfl, h.value, h.last, h.rest,
      fun m' hm' => h.toPage m' (hmem m' (List.mem_cons_of_mem _ hm')), ?_⟩
    show (s.page.onMessage m).appFavicon ≠ none
    rw [Page.appFavicon_onMessage (h.toPage m (hmem m List.mem_cons_self))]
    exact h.icon

end State

/-! ## Whole runs -/

theorem early_of_reachable (h : machine.Reachable s) : ∀ c, s.conn = some c → State.Early c := by
  refine Machine.Reachable.invariant (P := fun s => ∀ c, s.conn = some c → State.Early c)
    (fun s hs c hc => ?_) (fun s a s' hstep hs => State.early_step hs hstep) h
  rw [hs.conn] at hc
  cases hc

/-- **The page's control state converges** in every run in which no burst
leaves out a favicon over an icon the page still has. -/
theorem control_converges (h : machine.Reach FaviconClear s) (hs : s.Settled) : s.Agrees := by
  refine ⟨shows_of_settled h.reachable hs, ?_⟩
  have hiconic : ∀ c, s.conn = some c → s.Iconic c := by
    refine Machine.Reach.invariant_of (P := fun s => ∀ c, s.conn = some c → s.Iconic c)
      (fun s hs => early_of_reachable hs.reachable) (fun s hs c hc => ?_)
      (fun s a s' he _ hok hstep hs => State.iconic_step he hs hok hstep) h
    rw [hs.conn] at hc
    cases hc
  obtain ⟨c, hc, hstage, htoPage, hseen⟩ := hs
  have hnone := Stage.not_mem_rest (Or.inr (Or.inl hstage)) .appMeta
  have hlate := hiconic c hc hnone
  rw [State.eventual, htoPage] at hlate
  rcases ((follows_of_reachable h.reachable c hc).last hnone).2 with (hp | hp) | hlast
  · rw [hseen] at hp
    cases hp
  · rw [hstage] at hp
    cases hp
  · rw [← hlast]
    exact hlate

/-- **And else it does not**: after a burst that leaves a favicon out over an
icon the page still has, they disagree for as long as nothing changes. -/
theorem disagrees_of_left {s₁ : State} {acts : List Action} (h : machine.Reachable s)
    (hburst : ¬ FaviconClear s .burst) (hstep : machine.step s .burst = some s₁)
    (hrun : machine.Run (fun _ a => a.isQuiet = true) s₁ acts s') : ¬ s'.Agrees := by
  have hleft : ∃ c, s₁.conn = some c ∧ s₁.Left c := by
    simp only [FaviconClear, forall_true_left, not_forall] at hburst
    obtain ⟨c, rest, hc, hstage, hvalue, hicon⟩ := hburst
    obtain ⟨c₁, hc₁, ⟨hstage₁, -⟩ | ⟨ch, rest₁, hstage₁, rfl⟩⟩ := State.step_burst hstep
    · obtain rfl := Option.some.inj (hc.symm.trans hc₁)
      rw [hstage] at hstage₁
      cases hstage₁
    · obtain rfl := Option.some.inj (hc.symm.trans hc₁)
      rw [hstage] at hstage₁
      cases hstage₁
      exact ⟨_, rfl, State.left_of_burst (early_of_reachable h c hc) hstage hvalue hicon⟩
  have hstays : ∃ c, s'.conn = some c ∧ s'.Left c := by
    clear hstep
    induction acts generalizing s₁ with
    | nil =>
      cases hrun
      exact hleft
    | cons a acts ih =>
      obtain ⟨hquiet, s₂, hnext, hrun⟩ := hrun
      obtain ⟨c, hc, hl⟩ := hleft
      exact ih hrun (State.left_step hquiet hc hl hnext)
  obtain ⟨c, -, hl⟩ := hstays
  intro hagrees
  exact hl.icon (hagrees.2.trans hl.value)

/-! ## A page and a favicon -/

/-- Server and page as they start, for fixed runs. -/
def someStart : State where
  tx
    | .bitrate => Watch.channel 2000000
    | .codec => Watch.channel "avc1.42E01F"
    | .cursor => Watch.channel .default
    | .appMeta => Watch.channel ⟨"", "", none⟩
    | .clipboard => Watch.channel (.text "")
    | .pointerLock => Watch.channel false
  page := ⟨0, "avc1.42E01E", "", none, false, codeUnits "waylandwebstream", none, false⟩
  conn := none

theorem someStart_started : someStart.Started :=
  ⟨fun ch => by cases ch <;> rfl, rfl, rfl, rfl, rfl, rfl⟩

/-- A window with an icon. -/
def someMeta : AppMeta := ⟨"", "", some ⟨1, 1, "AAAAAA=="⟩⟩

/-- The icon of a window opened while the page is connected. -/
theorem control_converges_icon :
    ∃ s : State, (s.tx .appMeta).value = someMeta ∧ s.Settled ∧ s.Agrees := by
  have hrun : ∃ s : State, machine.Run FaviconClear someStart
      [.connect, .burst, .burst, .burst, .burst, .burst, .burst, .burst, .onMessage, .onMessage,
        .onMessage, .onMessage, .change .appMeta someMeta, .wake .appMeta, .arm, .onMessage] s ∧
      (s.tx .appMeta).value = someMeta ∧ s.Settled := by
    have hburst : ∀ s : State, s.page.appFavicon = none → FaviconClear s .burst :=
      fun s hs _ _ _ _ _ _ => hs
    refine ⟨_, ⟨nofun, _, rfl, hburst _ rfl, _, rfl, hburst _ rfl, _, rfl, hburst _ rfl, _, rfl,
      hburst _ rfl, _, rfl, hburst _ rfl, _, rfl, hburst _ rfl, _, rfl, hburst _ rfl, _, rfl,
      nofun, _, rfl, nofun, _, rfl, nofun, _, rfl, nofun, _, rfl, nofun, _, rfl, nofun, _, rfl,
      nofun, _, rfl, nofun, _, rfl, rfl⟩, rfl, _, rfl, rfl, rfl, fun ch => ?_⟩
    cases ch <;> rfl
  obtain ⟨s, hrun, hmeta, hsettled⟩ := hrun
  exact ⟨s, hmeta, hsettled,
    control_converges (Machine.Reach.run _ (.start someStart_started) hrun) hsettled⟩

/-- The window closes while the page is away: the icon stays in the tab. -/
theorem closed_window_icon_stays :
    ¬ ∀ s : State, machine.Reachable s → s.Settled → s.Agrees := by
  intro h
  have hrun : ∃ s : State, machine.exec someStart
      [.connect, .burst, .burst, .burst, .burst, .burst, .burst, .burst, .onMessage, .onMessage,
        .onMessage, .onMessage, .change .appMeta someMeta, .wake .appMeta, .arm, .onMessage,
        .closed, .change .appMeta ⟨"", "", none⟩, .connect, .burst, .burst, .burst, .burst, .burst,
        .burst, .burst, .onMessage, .onMessage, .onMessage, .onMessage, .wake .appMeta, .arm] =
        some s ∧ s.Settled ∧ s.page.appFavicon = someMeta.favicon ∧
      (s.tx .appMeta).value.favicon = none := by
    refine ⟨_, rfl, ⟨_, rfl, rfl, rfl, fun ch => ?_⟩, rfl, rfl⟩
    cases ch <;> rfl
  obtain ⟨s, hrun, hsettled, hicon, hnone⟩ := hrun
  have hr := Machine.reach_of_exec _ (Machine.Reachable.start someStart_started) hrun
  obtain ⟨-, hagrees⟩ := h s hr hsettled
  rw [hicon, hnone] at hagrees
  cases hagrees

end Control

end WaylandWebStream
