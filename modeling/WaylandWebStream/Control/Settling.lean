import WaylandWebStream.Control.State

/-!
# Control state — a connection comes to rest

While no value changes and the connection lasts, the handler gets
through its burst, through the changes it has not seen and through the
messages under way, in as many steps as there are of them. So from
wherever a connected server is, it settles without anyone's help.
-/

namespace WaylandWebStream

namespace Control

open Wire

variable {s s' : State} {c : Conn} {ch : Channel}

/-- **A quiet run**: the handler and the page go on, and nothing else
happens. -/
def Quietly (s s' : State) : Prop :=
  ∃ acts, machine.Run (fun _ a => a.isQuiet = true) s acts s'

theorem Quietly.refl (s : State) : Quietly s s := ⟨[], rfl⟩

theorem Quietly.trans {t : State} (h : Quietly s t) (h' : Quietly t s') : Quietly s s' := by
  obtain ⟨acts, hrun⟩ := h
  obtain ⟨acts', hrun'⟩ := h'
  exact ⟨acts ++ acts', hrun.append hrun'⟩

theorem Quietly.single {a : Action} (ha : a.isQuiet = true) (h : s.step a = some s') :
    Quietly s s' := ⟨[a], ha, s', h, rfl⟩

/-- **The burst ends.** -/
theorem quietly_serving_of_burst (rest : List Channel) (hc : s.conn = some c)
    (hstage : c.stage = .burst rest) :
    ∃ c', c'.stage = .serving ∧ Quietly s { s with conn := some c' } := by
  induction rest generalizing s c with
  | nil =>
    have hstep : s.step .burst = some { s with conn := some { c with stage := .serving } } := by
      simp only [State.step, hc, hstage, Option.bind_eq_bind, Option.bind_some]
    exact ⟨_, rfl, .single rfl hstep⟩
  | cons ch rest ih =>
    have hstep : s.step .burst = some { s with conn := some { c with
        stage := .burst rest
        lastAppMeta := remember c.lastAppMeta ch (s.tx ch).value
        toPage := c.toPage ++ burstOf ch (s.tx ch).value } } := by
      simp only [State.step, hc, hstage, Option.bind_eq_bind, Option.bind_some]
    obtain ⟨c', hserving, hrun⟩ := ih (s := { s with conn := some { c with
      stage := .burst rest
      lastAppMeta := remember c.lastAppMeta ch (s.tx ch).value
      toPage := c.toPage ++ burstOf ch (s.tx ch).value } }) rfl rfl
    exact ⟨c', hserving, (Quietly.single rfl hstep).trans hrun⟩

/-- A woken arm sends, and serves again. -/
theorem quietly_serving_of_woken (hc : s.conn = some c) (hstage : c.stage = .woken ch) :
    ∃ c', c'.stage = .serving ∧ c'.receivers = c.receivers ∧
      Quietly s { s with conn := some c' } := by
  have hstep : s.step .arm = some { s with conn := some { c with
      stage := .serving
      lastAppMeta := (handlerTurn c.lastAppMeta (changed ch (s.tx ch).value)).2
      toPage := c.toPage ++ (handlerTurn c.lastAppMeta (changed ch (s.tx ch).value)).1 } } := by
    simp only [State.step, hc, hstage, Option.bind_eq_bind, Option.bind_some]
  exact ⟨{ c with
    stage := .serving
    lastAppMeta := (handlerTurn c.lastAppMeta (changed ch (s.tx ch).value)).2
    toPage := c.toPage ++ (handlerTurn c.lastAppMeta (changed ch (s.tx ch).value)).1 },
    rfl, rfl, .single rfl hstep⟩

/-- **Whatever the handler is at, it comes to serve.** -/
theorem quietly_serving (hc : s.conn = some c) :
    ∃ c', c'.stage = .serving ∧ Quietly s { s with conn := some c' } := by
  cases hstage : c.stage with
  | burst rest => exact quietly_serving_of_burst rest hc hstage
  | serving =>
    have hself : s = { s with conn := some c } := by rw [← hc]
    exact ⟨c, hstage, hself ▸ .refl s⟩
  | woken ch =>
    obtain ⟨c', hserving, -, hrun⟩ := quietly_serving_of_woken hc hstage
    exact ⟨c', hserving, hrun⟩

/-- A change of one channel is seen, and the others are as they were. -/
theorem quietly_seen (ch : Channel) (hc : s.conn = some c) (hstage : c.stage = .serving) :
    ∃ c', c'.stage = .serving ∧ (s.tx ch).hasChanged (c'.receivers ch) = false ∧
      (∀ ch', (s.tx ch').hasChanged (c.receivers ch') = false →
        (s.tx ch').hasChanged (c'.receivers ch') = false) ∧
      Quietly s { s with conn := some c' } := by
  cases hchanged : (s.tx ch).hasChanged (c.receivers ch) with
  | false =>
    have hself : s = { s with conn := some c } := by rw [← hc]
    exact ⟨c, hstage, hchanged, fun _ h => h, hself ▸ .refl s⟩
  | true =>
    have hstep : s.step (.wake ch) = some { s with conn := some { c with
        stage := .woken ch
        receivers := Function.update c.receivers ch (s.tx ch).subscribe } } := by
      simp only [State.step, hc, hstage, hchanged, Option.bind_eq_bind, Option.bind_some, if_true]
    obtain ⟨c', hserving, hreceivers, hrun⟩ := quietly_serving_of_woken (s := { s with
      conn := some { c with
        stage := .woken ch
        receivers := Function.update c.receivers ch (s.tx ch).subscribe } }) rfl rfl
    refine ⟨c', hserving, ?_, fun ch' hseen => ?_, (Quietly.single rfl hstep).trans hrun⟩
    · rw [hreceivers]
      show (s.tx ch).hasChanged (Function.update c.receivers ch (s.tx ch).subscribe ch) = false
      rw [Function.update_self]
      exact Watch.hasChanged_subscribe _
    · rw [hreceivers]
      show (s.tx ch').hasChanged (Function.update c.receivers ch (s.tx ch).subscribe ch') = false
      by_cases heq : ch' = ch
      · subst heq
        rw [Function.update_self]
        exact Watch.hasChanged_subscribe _
      · rw [Function.update_of_ne heq]
        exact hseen

/-- The changes of any channels are seen, one after the other. -/
theorem quietly_all_seen (chs : List Channel) (hc : s.conn = some c) (hstage : c.stage = .serving) :
    ∃ c', c'.stage = .serving ∧ (∀ ch ∈ chs, (s.tx ch).hasChanged (c'.receivers ch) = false) ∧
      (∀ ch, (s.tx ch).hasChanged (c.receivers ch) = false →
        (s.tx ch).hasChanged (c'.receivers ch) = false) ∧
      Quietly s { s with conn := some c' } := by
  induction chs generalizing s c with
  | nil =>
    have hself : s = { s with conn := some c } := by rw [← hc]
    exact ⟨c, hstage, fun _ h => absurd h List.not_mem_nil, fun _ h => h, hself ▸ .refl s⟩
  | cons ch chs ih =>
    obtain ⟨c₁, hserving, hseen, hkept, hrun⟩ := quietly_seen ch hc hstage
    obtain ⟨c₂, hserving₂, hseen₂, hkept₂, hrun₂⟩ :=
      ih (s := { s with conn := some c₁ }) rfl hserving
    refine ⟨c₂, hserving₂, fun ch' hch' => ?_, fun ch' h => hkept₂ ch' (hkept ch' h),
      hrun.trans hrun₂⟩
    rcases List.mem_cons.1 hch' with rfl | hch'
    · exact hkept₂ ch' hseen
    · exact hseen₂ ch' hch'

/-- The messages under way are handled. -/
theorem quietly_handled (toPage : List Emission) (hc : s.conn = some c)
    (htoPage : c.toPage = toPage) :
    Quietly s { s with page := s.page.onMessages toPage, conn := some { c with toPage := [] } } := by
  induction toPage generalizing s c with
  | nil =>
    have hempty : { c with toPage := [] } = c := by rw [← htoPage]
    rw [hempty, ← hc]
    exact .refl s
  | cons m toPage ih =>
    have hstep : s.step .onMessage =
        some { s with page := s.page.onMessage m, conn := some { c with toPage } } := by
      simp only [State.step, hc, htoPage, Option.bind_eq_bind, Option.bind_some]
    have hrest := ih (s := { s with page := s.page.onMessage m, conn := some { c with toPage } })
      (c := { c with toPage }) rfl rfl
    exact (Quietly.single rfl hstep).trans hrest

/-- **A connected server settles by itself**, the channels as they are. -/
theorem exists_settled (hc : s.conn = some c) :
    ∃ s', Quietly s s' ∧ s'.Settled ∧ s'.tx = s.tx := by
  obtain ⟨c₁, hserving₁, hrun₁⟩ := quietly_serving hc
  obtain ⟨c₂, hserving₂, hseen, -, hrun₂⟩ :=
    quietly_all_seen (s := { s with conn := some c₁ }) Channel.order rfl hserving₁
  have hrun₃ := quietly_handled (s := { s with conn := some c₂ }) c₂.toPage rfl rfl
  refine ⟨_, (hrun₁.trans hrun₂).trans hrun₃, ⟨_, rfl, hserving₂, rfl, fun ch => ?_⟩, rfl⟩
  exact hseen ch (by cases ch <;> decide)

end Control

end WaylandWebStream
