import WaylandWebStream.Control.State

/-!
# Control state — the page follows the watch channels

A value sent is shown, or about to be, or a change of it is still to be
sent: `Follows`, kept by every step of every run, connections that drop
and pages that stay included. The pointer lock alone is sent only when it
is engaged, so a page must not want one the server never engaged:
`Unlocked`. Everything sent and handled, the page shows every channel's
value, whatever its icon.
-/

namespace WaylandWebStream

namespace Control

open Wire

variable {s s' : State} {c : Conn} {ch ch' : Channel} {last : AppMeta}

/-! ## What a step keeps -/

namespace State

/-- The handler has a change of a channel to send. -/
def Pending (s : State) (c : Conn) (ch : Channel) : Prop :=
  (s.tx ch).hasChanged (c.receivers ch) = true ∨ c.stage = .woken ch

/-- What the page shows when all is handled. -/
def eventual (s : State) (c : Conn) : Page := s.page.onMessages c.toPage

/-- **The page follows the channels**: a value sent is shown, or about to
be, or a change of it is still to be sent. -/
structure Follows (s : State) (c : Conn) : Prop where
  seen : ∀ ch, (c.receivers ch).seen ≤ (s.tx ch).version
  unread : ∀ rest, c.stage = .burst rest → ∀ ch, c.receivers ch = ⟨0⟩
  shown : ∀ ch, ch ∉ c.stage.rest → s.Pending c ch ∨ (s.eventual c).Shows ch (s.tx ch).value
  last : .appMeta ∉ c.stage.rest → (s.eventual c).Shows .appMeta c.lastAppMeta ∧
    (s.Pending c .appMeta ∨ c.lastAppMeta = (s.tx .appMeta).value)

/-- **A lock never engaged is wished by nobody.** -/
structure Unlocked (s : State) : Prop where
  value : (s.tx .pointerLock).version = 0 → (s.tx .pointerLock).value = false
  page : (s.tx .pointerLock).version = 0 → s.page.pointerLockWanted = false
  toPage : (s.tx .pointerLock).version = 0 → ∀ c, s.conn = some c →
    ∀ m ∈ c.toPage, m ≠ .control (.pointerLock true)

/-- A change of a channel is one to send. -/
theorem pending_change (v : ch.Value) (h : (c.receivers ch).seen ≤ (s.tx ch).version) :
    (s.change ch v).Pending c ch := by
  left
  rw [change_self]
  exact Watch.hasChanged_send h v

/-- The other channels are as they were. -/
theorem pending_change_of_ne (v : ch.Value) (h : ch' ≠ ch) :
    (s.change ch v).Pending c ch' ↔ s.Pending c ch' := by
  rw [Pending, Pending, change_of_ne v h]

theorem Follows.change (h : s.Follows c) (v : ch.Value) : (s.change ch v).Follows c where
  seen ch' := by
    by_cases heq : ch' = ch
    · subst heq
      rw [change_self]
      exact (h.seen ch').trans (Nat.le_succ _)
    · rw [change_of_ne v heq]
      exact h.seen ch'
  unread := h.unread
  shown ch' hch' := by
    by_cases heq : ch' = ch
    · subst heq
      exact Or.inl (pending_change v (h.seen ch'))
    · rw [pending_change_of_ne v heq, change_of_ne v heq]
      exact h.shown ch' hch'
  last hch' := by
    refine ⟨(h.last hch').1, ?_⟩
    by_cases heq : Channel.appMeta = ch
    · subst heq
      exact Or.inl (pending_change v (h.seen _))
    · rw [pending_change_of_ne v heq, change_of_ne v heq]
      exact (h.last hch').2

/-- **A channel's messages are sent**: it is shown then, or pending still,
and nothing else changes. -/
theorem Follows.sent (ch : Channel) (h : s.Follows c) {sent : List Emission}
    (hreceivers : c'.receivers = c.receivers) (htoPage : c'.toPage = c.toPage ++ sent)
    (hunread : ∀ rest, c'.stage = .burst rest → ∃ rest', c.stage = .burst rest')
    (habout : ∀ m ∈ sent, about m = some ch)
    (hrest : ∀ ch' ∉ c'.stage.rest, ch' ≠ ch → ch' ∉ c.stage.rest)
    (hwoken : ∀ ch', ch' ≠ ch → c.stage ≠ .woken ch')
    (hshown : s.Pending c' ch ∨ (s.eventual c').Shows ch (s.tx ch).value)
    (hlast : ch ≠ .appMeta → c'.lastAppMeta = c.lastAppMeta)
    (hmeta : ch = .appMeta → (s.eventual c').Shows .appMeta c'.lastAppMeta ∧
      c'.lastAppMeta = (s.tx .appMeta).value) : s.Follows c' := by
  have heventual : s.eventual c' = (s.eventual c).onMessages sent := by
    rw [eventual, eventual, htoPage, Page.onMessages_append]
  -- what is sent is about one channel, and says nothing of the others
  have hother : ∀ ch', ch' ≠ ch → ∀ v : ch'.Value,
      ((s.eventual c').Shows ch' v ↔ (s.eventual c).Shows ch' v) := by
    intro ch' hne v
    rw [heventual]
    refine Page.shows_onMessages v fun m hm hch => hne ?_
    rw [habout m hm] at hch
    exact (Option.some.inj hch).symm
  have hpending : ∀ ch', ch' ≠ ch → s.Pending c ch' → s.Pending c' ch' := by
    intro ch' hne hp
    rcases hp with hp | hp
    · left
      rw [hreceivers]
      exact hp
    · exact absurd hp (hwoken ch' hne)
  refine ⟨fun ch' => ?_, fun rest hstage ch' => ?_, fun ch' hch' => ?_, fun hch' => ?_⟩
  · rw [hreceivers]
    exact h.seen ch'
  · obtain ⟨rest', hstage'⟩ := hunread rest hstage
    rw [hreceivers]
    exact h.unread rest' hstage' ch'
  · by_cases hne : ch' = ch
    · subst hne
      exact hshown
    · rcases h.shown ch' (hrest ch' hch' hne) with hp | hs
      · exact Or.inl (hpending ch' hne hp)
      · exact Or.inr ((hother ch' hne _).2 hs)
  · by_cases hne : ch = .appMeta
    · exact ⟨(hmeta hne).1, Or.inr (hmeta hne).2⟩
    · obtain ⟨hs, hv⟩ := h.last (hrest _ hch' fun heq => hne heq.symm)
      rw [hlast hne, hother _ fun heq => hne heq.symm]
      exact ⟨hs, hv.imp (hpending _ fun heq => hne heq.symm) id⟩

/-- A lock that is not engaged is not asked for. -/
theorem unlocked_burstOf (hv : (s.tx .pointerLock).value = false) :
    ∀ m ∈ burstOf ch (s.tx ch).value, m ≠ .control (.pointerLock true) := by
  rintro m hm rfl
  obtain rfl : Channel.pointerLock = ch := Option.some.inj (about_burstOf _ hm)
  rw [hv] at hm
  cases hm

theorem unlocked_handlerTurn (hv : (s.tx .pointerLock).value = false) :
    ∀ m ∈ (handlerTurn last (changed ch (s.tx ch).value)).1, m ≠ .control (.pointerLock true) := by
  rintro m hm rfl
  obtain rfl : Channel.pointerLock = ch := Option.some.inj (about_handlerTurn _ hm)
  rw [hv] at hm
  cases List.mem_singleton.1 hm

theorem Unlocked.eventual (h : s.Unlocked) (hc : s.conn = some c)
    (hv : (s.tx .pointerLock).version = 0) : (s.eventual c).pointerLockWanted = false :=
  Page.unwanted_onMessages (h.page hv) (h.toPage hv c hc)

/-- A step that sends on no channel: the page wants no lock after it
either, and none is under way. -/
theorem Unlocked.of_tx (h : s.Unlocked) (htx : s'.tx = s.tx)
    (hpage : (s.tx .pointerLock).version = 0 → s'.page.pointerLockWanted = false)
    (htoPage : (s.tx .pointerLock).version = 0 → ∀ c, s'.conn = some c →
      ∀ m ∈ c.toPage, m ≠ .control (.pointerLock true)) : s'.Unlocked := by
  refine ⟨?_, ?_, ?_⟩
  · rw [htx]
    exact h.value
  · rw [htx]
    exact hpage
  · rw [htx]
    exact htoPage

theorem Unlocked.step {a : Action} (h : s.Unlocked) (hstep : s.step a = some s') :
    s'.Unlocked := by
  cases a with
  | change ch v =>
    cases hstep
    by_cases heq : Channel.pointerLock = ch
    · subst heq
      have hnever : ((s.change .pointerLock v).tx .pointerLock).version ≠ 0 := by
        rw [change_self]
        exact Nat.succ_ne_zero _
      exact ⟨fun hv => absurd hv hnever, fun hv => absurd hv hnever, fun hv => absurd hv hnever⟩
    · refine ⟨?_, ?_, ?_⟩
      · rw [change_of_ne v heq]
        exact h.value
      · rw [change_of_ne v heq]
        exact h.page
      · rw [change_of_ne v heq]
        exact h.toPage
  | connect =>
    obtain ⟨-, rfl⟩ := step_connect hstep
    refine h.of_tx rfl h.page fun _ c hc => ?_
    cases hc
    exact fun m hm => absurd hm List.not_mem_nil
  | burst =>
    obtain ⟨c, hc, ⟨-, rfl⟩ | ⟨ch, rest, -, rfl⟩⟩ := step_burst hstep
    · refine h.of_tx rfl h.page fun hv c' hc' => ?_
      cases hc'
      exact h.toPage hv c hc
    · refine h.of_tx rfl h.page fun hv c' hc' m hm => ?_
      cases hc'
      rcases List.mem_append.1 hm with hm | hm
      · exact h.toPage hv c hc m hm
      · exact unlocked_burstOf (h.value hv) m hm
  | wake ch =>
    obtain ⟨c, hc, -, rfl⟩ := step_wake hstep
    refine h.of_tx rfl h.page fun hv c' hc' => ?_
    cases hc'
    exact h.toPage hv c hc
  | arm =>
    obtain ⟨c, ch, hc, -, rfl⟩ := step_arm hstep
    refine h.of_tx rfl h.page fun hv c' hc' m hm => ?_
    cases hc'
    rcases List.mem_append.1 hm with hm | hm
    · exact h.toPage hv c hc m hm
    · exact unlocked_handlerTurn (h.value hv) m hm
  | onMessage =>
    obtain ⟨c, m, toPage, hc, htoPage, rfl⟩ := step_onMessage hstep
    have hmem : ∀ m' ∈ m :: toPage, m' ∈ c.toPage := fun m' hm' => htoPage ▸ hm'
    refine h.of_tx rfl (fun hv => ?_) fun hv c' hc' m' hm' => ?_
    · exact Page.unwanted_onMessage (h.page hv) (h.toPage hv c hc m (hmem m List.mem_cons_self))
    · cases hc'
      exact h.toPage hv c hc m' (hmem m' (List.mem_cons_of_mem _ hm'))
  | closed =>
    obtain rfl := step_closed hstep
    exact h.of_tx rfl h.page fun _ => nofun

/-- A new connection has everything to send. -/
theorem follows_opened : s.Follows opened where
  seen ch := Nat.zero_le _
  unread rest hstage ch := rfl
  shown ch hch := by
    refine absurd ?_ hch
    cases ch <;> decide
  last hch := absurd (by decide) hch

/-- The next piece of the burst. A lock not engaged is left out: a page
that wants it was told so by a change, which the loop has yet to see. -/
theorem Follows.burst (h : s.Follows c) (hu : s.Unlocked) (hc : s.conn = some c)
    {rest : List Channel} (hstage : c.stage = .burst (ch :: rest)) :
    s.Follows { c with
      stage := .burst rest
      lastAppMeta := remember c.lastAppMeta ch (s.tx ch).value
      toPage := c.toPage ++ burstOf ch (s.tx ch).value } := by
  refine h.sent ch rfl rfl (fun _ _ => ⟨_, hstage⟩) (fun m hm => about_burstOf _ hm)
    (fun ch' hch' hne => ?_) (fun ch' _ => ?_) ?_ (fun hne => ?_) (fun heq => ?_)
  · rw [hstage]
    exact fun hmem => (List.mem_cons.1 hmem).elim hne hch'
  · rw [hstage]
    exact fun heq => by cases heq
  · by_cases hlock : ch = .pointerLock
    · subst hlock
      -- never changed, the lock is off and nothing engages it; changed, the loop has it to see
      by_cases hversion : (s.tx .pointerLock).version = 0
      · right
        have hvalue := hu.value hversion
        have hwanted := hu.eventual hc hversion
        show (s.page.onMessages (c.toPage ++ burstOf .pointerLock
          (s.tx .pointerLock).value)).pointerLockWanted = (s.tx .pointerLock).value
        rw [hvalue, Page.onMessages_append]
        exact hwanted
      · left
        left
        have hseen := h.unread _ hstage .pointerLock
        simp only [Watch.hasChanged, hseen, bne_iff_ne, ne_eq]
        exact fun heq => hversion heq.symm
    · right
      rw [State.eventual]
      dsimp only
      rw [Page.onMessages_append]
      exact shows_burstOf _ hlock
  · exact remember_of_ne _ hne
  · subst heq
    refine ⟨?_, rfl⟩
    rw [State.eventual]
    dsimp only
    rw [Page.onMessages_append]
    exact shows_burstOf (s.tx .appMeta).value (by decide)

/-- **Past the burst**, a turn that sends nothing and loses no change keeps
the page following. -/
theorem Follows.turn (h : s.Follows c) {stage : Stage} {receivers : Channel → Watch.Receiver}
    (hnone : ∀ ch, ch ∉ c.stage.rest) (hstage : ∀ rest, stage ≠ .burst rest)
    (hseen : ∀ ch, (receivers ch).seen ≤ (s.tx ch).version)
    (hpending : ∀ ch, s.Pending c ch → s.Pending { c with stage, receivers } ch) :
    s.Follows { c with stage, receivers } := by
  refine ⟨hseen, fun rest heq => absurd heq (hstage rest), fun ch _ => ?_, fun _ => ?_⟩
  · exact (h.shown ch (hnone ch)).imp (hpending ch) id
  · obtain ⟨hs, hv⟩ := h.last (hnone _)
    exact ⟨hs, hv.imp (hpending _) id⟩

/-- The burst is over. -/
theorem Follows.serve (h : s.Follows c) (hstage : c.stage = .burst []) :
    s.Follows { c with stage := .serving } := by
  refine h.turn (Stage.not_mem_rest (Or.inl hstage)) (fun rest => by simp) h.seen ?_
  rintro ch' (hp | hp)
  · exact Or.inl hp
  · rw [hstage] at hp
    cases hp

/-- The change is noticed. -/
theorem Follows.wake (h : s.Follows c) (hstage : c.stage = .serving) :
    s.Follows { c with
      stage := .woken ch
      receivers := Function.update c.receivers ch (s.tx ch).subscribe } := by
  refine h.turn (Stage.not_mem_rest (Or.inr (Or.inl hstage))) (fun rest => by simp)
    (fun ch' => ?_) fun ch' hp => ?_
  · by_cases heq : ch' = ch
    · subst heq
      rw [Function.update_self]
      exact le_rfl
    · rw [Function.update_of_ne heq]
      exact h.seen ch'
  · by_cases heq : ch' = ch
    · exact Or.inr (by rw [heq])
    · left
      dsimp only
      rw [Function.update_of_ne heq]
      rcases hp with hp | hp
      · exact hp
      · rw [hstage] at hp
        cases hp

/-- The change is sent. -/
theorem Follows.arm (h : s.Follows c) (hstage : c.stage = .woken ch) :
    s.Follows { c with
      stage := .serving
      lastAppMeta := (handlerTurn c.lastAppMeta (changed ch (s.tx ch).value)).2
      toPage := c.toPage ++ (handlerTurn c.lastAppMeta (changed ch (s.tx ch).value)).1 } := by
  have hnone : ∀ ch', ch' ∉ c.stage.rest := Stage.not_mem_rest (Or.inr (Or.inr ⟨ch, hstage⟩))
  have hshows : (s.page.onMessages (c.toPage ++
      (handlerTurn c.lastAppMeta (changed ch (s.tx ch).value)).1)).Shows ch (s.tx ch).value := by
    rw [Page.onMessages_append]
    exact shows_handlerTurn _ fun _ => (h.last (hnone _)).1
  refine h.sent ch rfl rfl nofun (fun m hm => about_handlerTurn _ hm)
    (fun ch' _ _ => hnone ch') (fun ch' hne => ?_) (Or.inr hshows) (fun hne => ?_) (fun heq => ?_)
  · rw [hstage]
    exact fun heq => hne (Stage.woken.inj heq).symm
  · exact handlerTurn_snd_of_ne _ hne
  · subst heq
    exact ⟨hshows, rfl⟩

/-- A message is handled. -/
theorem Follows.onMessage (h : s.Follows c) {toPage : List Emission}
    (htoPage : c.toPage = m :: toPage) {conn : Option Conn} :
    Follows { s with page := s.page.onMessage m, conn } { c with toPage } := by
  have heventual : s.eventual c = (s.page.onMessage m).onMessages toPage := by
    rw [eventual, htoPage, Page.onMessages_cons]
  refine ⟨h.seen, h.unread, fun ch hch => ?_, fun hch => ?_⟩
  · have hs := h.shown ch hch
    rw [heventual] at hs
    exact hs
  · have hl := h.last hch
    rw [heventual] at hl
    exact hl

/-- What is kept does not depend on what else the state says. -/
theorem Follows.of_conn (h : s.Follows c) {conn : Option Conn} : Follows { s with conn } c :=
  ⟨h.seen, h.unread, h.shown, h.last⟩

/-- **Every step keeps the page following.** -/
theorem follows_step {a : Action} (hu : s.Unlocked) (h : ∀ c, s.conn = some c → s.Follows c)
    (hstep : s.step a = some s') : ∀ c, s'.conn = some c → s'.Follows c := by
  cases a with
  | change ch v =>
    cases hstep
    exact fun c hc => (h c hc).change v
  | connect =>
    obtain ⟨-, rfl⟩ := step_connect hstep
    intro c hc
    cases hc
    exact follows_opened
  | burst =>
    obtain ⟨c, hc, ⟨hstage, rfl⟩ | ⟨ch, rest, hstage, rfl⟩⟩ := step_burst hstep
    · intro c' hc'
      cases hc'
      exact ((h c hc).serve hstage).of_conn
    · intro c' hc'
      cases hc'
      exact ((h c hc).burst hu hc hstage).of_conn
  | wake ch =>
    obtain ⟨c, hc, hstage, rfl⟩ := step_wake hstep
    intro c' hc'
    cases hc'
    exact ((h c hc).wake hstage).of_conn
  | arm =>
    obtain ⟨c, ch, hc, hstage, rfl⟩ := step_arm hstep
    intro c' hc'
    cases hc'
    exact ((h c hc).arm hstage).of_conn
  | onMessage =>
    obtain ⟨c, m, toPage, hc, htoPage, rfl⟩ := step_onMessage hstep
    intro c' hc'
    cases hc'
    exact (h c hc).onMessage htoPage
  | closed =>
    obtain rfl := step_closed hstep
    exact nofun

end State

/-! ## Whole runs -/

theorem unlocked_of_reachable (h : machine.Reachable s) : s.Unlocked := by
  refine Machine.Reachable.invariant (fun s hs => ?_) (fun s a s' hstep hs => hs.step hstep) h
  exact ⟨fun _ => hs.pointerLock, fun _ => hs.pointerLockWanted,
    fun _ c hc => by rw [hs.conn] at hc; cases hc⟩

theorem follows_of_reachable (h : machine.Reachable s) : ∀ c, s.conn = some c → s.Follows c := by
  refine Machine.Reach.invariant_of (fun s hs => unlocked_of_reachable hs) (fun s hs c hc => ?_)
    (fun s a s' hu _ _ hstep hs => State.follows_step hu hs hstep) h
  rw [hs.conn] at hc
  cases hc

/-- **But for the icon, the page follows in every run**: with everything
sent and handled it shows the value of every channel. -/
theorem shows_of_settled (h : machine.Reachable s) (hs : s.Settled) (ch : Channel) :
    s.page.Shows ch (s.tx ch).value := by
  obtain ⟨c, hc, hstage, htoPage, hseen⟩ := hs
  have hf := follows_of_reachable h c hc
  have hshown := hf.shown ch (Stage.not_mem_rest (Or.inr (Or.inl hstage)) ch)
  rw [State.eventual, htoPage] at hshown
  rcases hshown with (hp | hp) | hshows
  · rw [hseen ch] at hp
    cases hp
  · rw [hstage] at hp
    cases hp
  · exact hshows

end Control

end WaylandWebStream
