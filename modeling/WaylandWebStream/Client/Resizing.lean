import WaylandWebStream.Client.Viewport

/-!
# Resizing — when the server ends up with what the window wants

Once the changes have stopped and the debounce has run on an open
connection, the last request the server received should be the one for the
window as it is. It is, as long as no request is lost on its way, none of
another client comes after it, and no update finds a new scale at the old
size (`right_of_settled`): the viewport remembers the size it handed over,
and asks for that size no more. Each step that breaks the condition can be
followed by a run that loses nothing more, and ends with a debounce on an
open connection and the server wrong.
-/

namespace WaylandWebStream

namespace Viewport

open Clipboard (Phase)

variable (round : ℚ → ℚ)

/-- No update is due, and the connection is open with nothing under way. -/
def Settled (s : State) : Prop :=
  s.debounceTimer = false ∧ s.phase = .open ∧ s.link = true ∧ s.toServer = []

/-- **The server was last asked for what the window wants.** -/
def Right (s : State) : Prop := s.received.getLast? = some (s.desired round)

/-- A request made now gets to the server, if its connection lasts. -/
def State.Carries (s : State) : Prop := s.phase ≠ .closed ∧ (s.phase = .open → s.link = true)

/-- An update that finds a new size can hand over its request; one that finds
the old size, with no other update due, finds the old scale as well. -/
def UpdateOk (s : State) : Prop :=
  if s.lastSent = some (s.render round) then
    s.debounceTimer = false → s.handed = some (s.desired round)
  else s.Carries

/-- Updates find what they can ask for; a connection ends when the server has
last received the last request; another client's request is followed by one
of this client's, or is the same. -/
def ResizeOk (s : State) : Action → Prop
  | .visualViewportChange viewport devicePixelRatio =>
    UpdateOk round { s with viewport, devicePixelRatio }
  | .toggleNative => UpdateOk round { s with useNative := !s.useNative }
  | .debounce => UpdateOk round { s with debounceTimer := false }
  | .drops | .closes => s.received.getLast? = s.handed
  | .other r => s.sendQueue ≠ [] ∨ s.handed = some r
  | _ => True

instance (s : State) : Decidable s.Carries := inferInstanceAs (Decidable (_ ∧ _))

instance (s : State) : Decidable (UpdateOk round s) :=
  inferInstanceAs (Decidable (if s.lastSent = some (s.render round) then
    s.debounceTimer = false → s.handed = some (s.desired round) else s.Carries))

instance (s : State) (a : Action) : Decidable (ResizeOk round s a) :=
  match a with
  | .visualViewportChange _ _ | .toggleNative | .debounce =>
    inferInstanceAs (Decidable (UpdateOk _ _))
  | .drops | .closes => inferInstanceAs (Decidable (_ = _))
  | .other _ => inferInstanceAs (Decidable (_ ∨ _))
  | .windowResize _ _ | .connect | .reconnect | .opens | .receives => .isTrue trivial

instance (s : State) : Decidable (Settled s) := inferInstanceAs (Decidable (_ ∧ _))

instance (s : State) : Decidable (Right round s) := inferInstanceAs (Decidable (_ = _))

variable {round} {s s' : State} {r : Resize} {a : Action}

/-! ## Bookkeeping -/

/-- Requests, in the order the server receives them. -/
def State.requests (s : State) : List Resize := s.received ++ (s.toServer ++ s.sendQueue)

/-- What the channel holds in each phase. -/
structure Linked (s : State) : Prop where
  online : s.phase = .open → s.sendQueue = []
  offline : s.phase ≠ .open → s.link = false
  dead : s.link = false → s.toServer = []
  closed : s.phase = .closed → s.sendQueue = []

/-- What holds whenever something happens. -/
structure Base (round : ℚ → ℚ) (s : State) : Prop extends Linked s where
  sent : s.lastSent = s.handed.map Resize.size
  canvas : s.canvasStyle = s.lastCssSize
  /-- A request was for some window. -/
  once : ∀ r, s.handed = some r → ∃ w : State, r = w.desired round

/-- What the last update saw is what there is. -/
def Noticed (round : ℚ → ℚ) (s : State) : Prop :=
  s.lastSent = some (s.render round) ∧ s.canvasStyle = some s.viewport

/-- What every run keeps. -/
structure Kept (round : ℚ → ℚ) (s : State) : Prop extends Base round s where
  started : s.lastSent ≠ none
  noticed : s.debounceTimer = false → Noticed round s

/-- **The last request on its way is the last one handed over**, and it is for
the window as it is, unless an update is due. -/
structure Agreed (round : ℚ → ℚ) (s : State) : Prop where
  last : s.requests.getLast? = s.handed
  wanted : s.debounceTimer = false → s.handed = some (s.desired round)

/-! ## Updates -/

theorem fitCanvas_eq (h : s.canvasStyle = s.lastCssSize) : s.fitCanvas =
    { s with canvasStyle := some s.viewport, lastCssSize := some s.viewport } := by
  unfold State.fitCanvas
  split
  · rename_i hsame
    rw [hsame] at h
    cases s
    simp_all
  · rfl

/-- What `send` does with a request: it is queued behind the others, or is
nowhere. -/
theorem send_spec (h : Linked s) (r : Resize) : ∃ toServer sendQueue,
    s.send r = { s with handed := some r, toServer, sendQueue } ∧
      (s.phase = .open → sendQueue = []) ∧ (s.link = false → toServer = []) ∧
      (s.phase = .closed → sendQueue = []) ∧
      (s.Carries → toServer ++ sendQueue = s.toServer ++ s.sendQueue ++ [r]) ∧
      (¬ s.Carries → toServer ++ sendQueue = s.toServer ++ s.sendQueue) := by
  unfold State.send
  rcases hphase : s.phase with _ | _ | _ | _
  · refine ⟨s.toServer, s.sendQueue ++ [r], rfl, by simp, h.dead, by simp, fun _ => ?_, fun hnot => ?_⟩
    · exact (List.append_assoc _ _ _).symm
    · exact absurd ⟨by simp [hphase], by simp [hphase]⟩ hnot
  · refine ⟨s.toServer, s.sendQueue ++ [r], rfl, by simp, h.dead, by simp, fun _ => ?_, fun hnot => ?_⟩
    · exact (List.append_assoc _ _ _).symm
    · exact absurd ⟨by simp [hphase], by simp [hphase]⟩ hnot
  · have hqueue := h.online hphase
    dsimp only
    split
    · rename_i hlink
      refine ⟨s.toServer ++ [r], s.sendQueue, rfl, fun _ => hqueue, by simp [hlink], by simp,
        fun _ => by simp [hqueue], fun hnot => ?_⟩
      exact absurd ⟨by simp [hphase], fun _ => hlink⟩ hnot
    · rename_i hlink
      refine ⟨s.toServer, s.sendQueue, rfl, fun _ => hqueue, h.dead, by simp,
        fun hcarries => absurd (hcarries.2 hphase) hlink, fun _ => rfl⟩
  · refine ⟨s.toServer, s.sendQueue, rfl, by simp, h.dead, fun _ => h.closed hphase,
      fun hcarries => absurd hphase hcarries.1, fun _ => rfl⟩

/-- **An update** leaves the window as it is, notices it, and keeps the
requests in agreement exactly when it finds what it can ask for. -/
theorem update_spec (h : Base round s) : Base round (s.update round) ∧ Noticed round (s.update round) ∧
    (s.update round).debounceTimer = s.debounceTimer ∧
    (s.requests.getLast? = s.handed → (Agreed round (s.update round) ↔ UpdateOk round s)) := by
  unfold State.update UpdateOk
  rw [fitCanvas_eq h.canvas]
  dsimp only
  split
  · -- the size was asked for: the requests stay as they are, whatever the scale
    rename_i hsame
    refine ⟨⟨⟨h.online, h.offline, h.dead, h.closed⟩, h.sent, rfl, h.once⟩, ⟨hsame, rfl⟩, rfl,
      fun hlast => ?_⟩
    exact ⟨fun h' => h'.wanted, fun hok => ⟨hlast, hok⟩⟩
  · rename_i hnew
    have hlinked : Linked { s with
        canvasStyle := some s.viewport, lastCssSize := some s.viewport
        lastSent := some (s.render round) } := ⟨h.online, h.offline, h.dead, h.closed⟩
    obtain ⟨toServer, sendQueue, hsend, honline, hdead, hclosed, hcarried, hlost⟩ :=
      send_spec hlinked (s.desired round)
    rw [hsend]
    refine ⟨⟨⟨honline, h.offline, hdead, hclosed⟩, rfl, rfl, fun r hr => ?_⟩, ⟨rfl, rfl⟩, rfl,
      fun hlast => ?_⟩
    · exact ⟨s, (Option.some.inj hr).symm⟩
    constructor
    · -- a request that goes nowhere leaves the last one, which is for another size
      intro h'
      by_contra hnot
      have hsame : s.handed = some (s.desired round) := by
        have hlast' := h'.last
        rw [State.requests, hlost hnot] at hlast'
        exact hlast.symm.trans hlast'
      exact hnew (by rw [h.sent, hsame]; rfl)
    · intro hcarries
      refine ⟨?_, fun _ => rfl⟩
      rw [State.requests, hcarried hcarries, ← List.append_assoc, List.getLast?_concat]

/-! ## Steps -/

/-- The window changes under the viewport. -/
theorem Base.window (h : Base round s) (viewport : CssSize) (devicePixelRatio : ℚ)
    (useNative debounceTimer : Bool) :
    Base round { s with viewport, devicePixelRatio, useNative, debounceTimer } :=
  ⟨⟨h.online, h.offline, h.dead, h.closed⟩, h.sent, h.canvas, h.once⟩

/-- An update as a step. -/
theorem update_step (h : Base round s) : Kept round (s.update round) ∧
    (s.requests.getLast? = s.handed → (Agreed round (s.update round) ↔ UpdateOk round s)) := by
  obtain ⟨hbase, hnoticed, -, hagreed⟩ := update_spec h
  refine ⟨⟨hbase, ?_, fun _ => hnoticed⟩, hagreed⟩
  rw [hnoticed.1]
  exact Option.some_ne_none _

/-- **What happens to the channel or the server** leaves the agreement to what
is last on its way. -/
theorem moved_spec (h : Kept round s) (phase : Phase) (link : Bool)
    (toServer sendQueue received : List Resize)
    (hlinked : Linked { s with phase, link, toServer, sendQueue, received }) :
    Kept round { s with phase, link, toServer, sendQueue, received } ∧
      (Agreed round s → (Agreed round { s with phase, link, toServer, sendQueue, received } ↔
        (received ++ (toServer ++ sendQueue)).getLast? = s.handed)) := by
  refine ⟨⟨⟨hlinked, h.sent, h.canvas, h.once⟩, h.started, h.noticed⟩, fun hagreed => ?_⟩
  exact ⟨fun h' => h'.last, fun hlast => ⟨hlast, hagreed.wanted⟩⟩

/-- Behind a queue, another client's request is not the last. -/
theorem getLast?_other (received : List Resize) {queue : List Resize} (r : Resize)
    (hlast : (received ++ queue).getLast? = s.handed) :
    (received ++ [r] ++ queue).getLast? = s.handed ↔ queue ≠ [] ∨ s.handed = some r := by
  by_cases hqueue : queue = []
  · rw [hqueue, List.append_nil, List.getLast?_concat]
    simp [eq_comm]
  · obtain ⟨last, hlast'⟩ := Option.isSome_iff_exists.1 (List.getLast?_isSome.2 hqueue)
    rw [List.getLast?_append, hlast'] at hlast
    rw [List.getLast?_append, hlast']
    exact iff_of_true hlast (.inl hqueue)

/-- **One step** keeps the bookkeeping, and keeps the requests in agreement
exactly when it is admitted. -/
theorem step_spec (h : Kept round s) (hstep : step round s a = some s') : Kept round s' ∧
    (Agreed round s → (Agreed round s' ↔ ResizeOk round s a)) := by
  cases a with
  | windowResize viewport devicePixelRatio =>
    obtain rfl := Option.some.inj hstep
    refine ⟨⟨h.toBase.window _ _ _ _, h.started, fun ht => (by cases ht)⟩, fun hagreed => ?_⟩
    exact iff_of_true ⟨hagreed.last, fun ht => (by cases ht)⟩ trivial
  | visualViewportChange viewport devicePixelRatio =>
    obtain rfl := Option.some.inj hstep
    obtain ⟨hkept, hiff⟩ := update_step (h.toBase.window viewport devicePixelRatio s.useNative
      s.debounceTimer)
    exact ⟨hkept, fun hagreed => hiff hagreed.last⟩
  | toggleNative =>
    obtain rfl := Option.some.inj hstep
    obtain ⟨hkept, hiff⟩ := update_step (h.toBase.window s.viewport s.devicePixelRatio
      (!s.useNative) s.debounceTimer)
    exact ⟨hkept, fun hagreed => hiff hagreed.last⟩
  | debounce =>
    simp only [step] at hstep
    split at hstep
    · obtain rfl := Option.some.inj hstep
      obtain ⟨hkept, hiff⟩ := update_step (h.toBase.window s.viewport s.devicePixelRatio
        s.useNative false)
      exact ⟨hkept, fun hagreed => hiff hagreed.last⟩
    · cases hstep
  | connect =>
    simp only [step] at hstep
    split at hstep
    · rename_i hidle
      obtain rfl := Option.some.inj hstep
      obtain ⟨hkept, hiff⟩ := moved_spec h .connecting s.link s.toServer s.sendQueue s.received
        ⟨fun ho => (by cases ho), fun _ => h.offline (by simp [hidle]), h.dead,
          fun hc => (by cases hc)⟩
      exact ⟨hkept, fun hagreed => (hiff hagreed).trans (iff_of_true hagreed.last trivial)⟩
    · cases hstep
  | reconnect =>
    simp only [step] at hstep
    split at hstep
    · rename_i hclosed
      obtain rfl := Option.some.inj hstep
      obtain ⟨hkept, hiff⟩ := moved_spec h .connecting s.link s.toServer s.sendQueue s.received
        ⟨fun ho => (by cases ho), fun _ => h.offline (by simp [hclosed]), h.dead,
          fun hc => (by cases hc)⟩
      exact ⟨hkept, fun hagreed => (hiff hagreed).trans (iff_of_true hagreed.last trivial)⟩
    · obtain rfl := Option.some.inj hstep
      exact ⟨h, fun hagreed => iff_of_true hagreed trivial⟩
  | opens =>
    simp only [step] at hstep
    split at hstep
    · rename_i hconnecting
      obtain rfl := Option.some.inj hstep
      -- nothing was on the link, so the queue is all that is on its way
      have hserver : s.toServer = [] := h.dead (h.offline (by simp [hconnecting]))
      obtain ⟨hkept, hiff⟩ := moved_spec h .open true s.sendQueue [] s.received
        ⟨fun _ => rfl, fun hne => absurd rfl hne, fun hl => (by cases hl), fun hc => (by cases hc)⟩
      refine ⟨hkept, fun hagreed => (hiff hagreed).trans (iff_of_true ?_ trivial)⟩
      have hlast := hagreed.last
      rwa [State.requests, hserver, List.nil_append, ← List.append_nil s.sendQueue] at hlast
    · cases hstep
  | drops =>
    simp only [step] at hstep
    split at hstep
    · rename_i hopen
      obtain rfl := Option.some.inj hstep
      -- what was on its way is lost, and an open channel has queued nothing
      have hqueue := h.online hopen.1
      obtain ⟨hkept, hiff⟩ := moved_spec h s.phase false [] s.sendQueue s.received
        ⟨h.online, fun _ => rfl, fun _ => rfl, h.closed⟩
      refine ⟨hkept, fun hagreed => ?_⟩
      rw [hiff hagreed, hqueue, List.append_nil, List.append_nil]
      rfl
    · cases hstep
  | closes =>
    simp only [step] at hstep
    split at hstep
    · obtain rfl := Option.some.inj hstep
      obtain ⟨hkept, hiff⟩ := moved_spec h .closed false [] [] s.received
        ⟨fun _ => rfl, fun _ => rfl, fun _ => rfl, fun _ => rfl⟩
      refine ⟨hkept, fun hagreed => ?_⟩
      rw [hiff hagreed, List.append_nil, List.append_nil]
      rfl
    · cases hstep
  | receives =>
    simp only [step] at hstep
    split at hstep
    · rename_i r rest hserver
      split at hstep
      · rename_i hlink
        obtain rfl := Option.some.inj hstep
        obtain ⟨hkept, hiff⟩ := moved_spec h s.phase s.link rest s.sendQueue (s.received ++ [r])
          ⟨h.online, h.offline, fun hl => absurd (hlink.symm.trans hl) (by simp), h.closed⟩
        refine ⟨hkept, fun hagreed => (hiff hagreed).trans (iff_of_true ?_ trivial)⟩
        have hlast := hagreed.last
        rw [State.requests, hserver] at hlast
        simpa using hlast
      · cases hstep
    · cases hstep
  | other r =>
    simp only [step] at hstep
    split at hstep
    · cases hstep
    · rename_i hlink
      obtain rfl := Option.some.inj hstep
      -- another client has the server only while this one's link is down
      have hserver : s.toServer = [] := h.dead (by simpa using hlink)
      obtain ⟨hkept, hiff⟩ := moved_spec h s.phase s.link s.toServer s.sendQueue
        (s.received ++ [r])
        ⟨h.online, h.offline, h.dead, h.closed⟩
      refine ⟨hkept, fun hagreed => ?_⟩
      have hlast := hagreed.last
      rw [State.requests, hserver, List.nil_append] at hlast
      rw [hiff hagreed, hserver, List.nil_append]
      exact getLast?_other s.received r hlast

theorem kept_step (h : Kept round s) (hstep : step round s a = some s') : Kept round s' :=
  (step_spec h hstep).1

/-! ## What a broken condition leads to -/

variable (round) in
/-- An update hands over its request, if it has one. -/
def Hands (s : State) : Prop := s.lastSent = some (s.render round) ∨ s.Carries

variable (round) in
/-- No request is lost, and none is another client's. -/
def Lossless (s : State) : Action → Prop
  | .visualViewportChange viewport devicePixelRatio =>
    Hands round { s with viewport, devicePixelRatio }
  | .toggleNative => Hands round { s with useNative := !s.useNative }
  | .debounce => Hands round { s with debounceTimer := false }
  | .drops | .closes => s.toServer = [] ∧ s.sendQueue = []
  | .other _ => False
  | _ => True

/-- An update of a size already asked for does nothing to the requests. -/
theorem update_same (hcanvas : s.canvasStyle = s.lastCssSize)
    (hsame : s.lastSent = some (s.render round)) : s.update round =
      { s with canvasStyle := some s.viewport, lastCssSize := some s.viewport } := by
  unfold State.update
  rw [fitCanvas_eq hcanvas]
  exact if_pos hsame

theorem kept_run {ok : State → Action → Prop} {acts : List Action} {t : State}
    (hkept : Kept round s) (hrun : (machine round).Run ok s acts t) : Kept round t := by
  induction acts generalizing s with
  | nil =>
    obtain rfl : s = t := hrun
    exact hkept
  | cons a acts ih =>
    obtain ⟨-, u, hstep, hrun⟩ := hrun
    exact ih (kept_step hkept hstep) hrun

/-- Two states with the same window, the same requests, and an update due. -/
structure Alike (s t : State) : Prop where
  viewport : t.viewport = s.viewport
  devicePixelRatio : t.devicePixelRatio = s.devicePixelRatio
  useNative : t.useNative = s.useNative
  lastSent : t.lastSent = s.lastSent
  debounceTimer : t.debounceTimer = s.debounceTimer
  requests : t.requests = s.requests

variable {t u : State}

theorem Alike.refl (s : State) : Alike s s := ⟨rfl, rfl, rfl, rfl, rfl, rfl⟩

theorem Alike.after (h' : Alike t u) (h : Alike s t) : Alike s u :=
  ⟨h'.viewport.trans h.viewport, h'.devicePixelRatio.trans h.devicePixelRatio,
    h'.useNative.trans h.useNative, h'.lastSent.trans h.lastSent,
    h'.debounceTimer.trans h.debounceTimer, h'.requests.trans h.requests⟩

theorem Alike.desired (round : ℚ → ℚ) (h : Alike s t) : t.desired round = s.desired round := by
  unfold State.desired State.render State.pixelRatio
  rw [h.viewport, h.devicePixelRatio, h.useNative]

theorem Alike.render (h : Alike s t) : t.render round = s.render round := by
  unfold State.render State.pixelRatio
  rw [h.viewport, h.devicePixelRatio, h.useNative]

/-- A connecting socket opens. -/
theorem run_opens (hkept : Kept round s) (h : s.phase = .connecting) : ∃ t,
    (machine round).Run (Lossless round) s [.opens] t ∧ Alike s t ∧ t.phase = .open ∧
      t.link = true := by
  have hserver : s.toServer = [] := hkept.dead (hkept.offline (by simp [h]))
  refine ⟨_, ⟨trivial, _, if_pos h, rfl⟩, ⟨rfl, rfl, rfl, rfl, rfl, ?_⟩, rfl, rfl⟩
  simp [State.requests, hserver]

/-- A closed channel reconnects. -/
theorem run_reconnect (hkept : Kept round s) (h : s.phase = .closed) : ∃ t,
    (machine round).Run (Lossless round) s [.reconnect, .opens] t ∧ Alike s t ∧ t.phase = .open ∧
      t.link = true := by
  have hstep : step round s .reconnect = some { s with phase := .connecting } := if_pos h
  obtain ⟨t, hrun, halike, hopen, hlink⟩ := run_opens (kept_step hkept hstep) rfl
  exact ⟨t, ⟨trivial, _, hstep, hrun⟩, halike.after ⟨rfl, rfl, rfl, rfl, rfl, rfl⟩, hopen, hlink⟩

/-- **The connection can be brought up** with nothing lost. -/
theorem exists_open (hkept : Kept round s) : ∃ acts t,
    (machine round).Run (Lossless round) s acts t ∧ Alike s t ∧ t.phase = .open ∧
      t.link = true := by
  rcases hphase : s.phase with _ | _ | _ | _
  · have hstep : step round s .connect = some { s with phase := .connecting } := if_pos hphase
    obtain ⟨t, hrun, halike, hopen, hlink⟩ := run_opens (kept_step hkept hstep) rfl
    exact ⟨[.connect, .opens], t, ⟨trivial, _, hstep, hrun⟩,
      halike.after ⟨rfl, rfl, rfl, rfl, rfl, rfl⟩, hopen, hlink⟩
  · obtain ⟨t, h⟩ := run_opens hkept hphase
    exact ⟨_, t, h⟩
  · rcases hlink : s.link with _ | _
    · -- open, with the server gone: there is nothing left to lose
      have hserver := hkept.dead hlink
      have hqueue := hkept.online hphase
      have hstep : step round s .closes = some { s with
          phase := .closed, link := false, toServer := [], sendQueue := [] } :=
        if_pos (.inr hphase)
      obtain ⟨t, hrun, halike, hopen, hlink⟩ := run_reconnect (kept_step hkept hstep) rfl
      refine ⟨[.closes, .reconnect, .opens], t, ⟨⟨hserver, hqueue⟩, _, hstep, hrun⟩,
        halike.after ⟨rfl, rfl, rfl, rfl, rfl, ?_⟩, hopen, hlink⟩
      simp [State.requests, hserver, hqueue]
    · exact ⟨[], s, rfl, .refl s, hphase, hlink⟩
  · obtain ⟨t, h⟩ := run_reconnect hkept hphase
    exact ⟨_, t, h⟩

/-- **And the server takes what is on it.** -/
theorem exists_received (hkept : Kept round s) (hopen : s.phase = .open) (hlink : s.link = true) :
    ∃ acts t, (machine round).Run (Lossless round) s acts t ∧ Alike s t ∧ t.phase = .open ∧
      t.link = true ∧ t.toServer = [] := by
  induction hserver : s.toServer generalizing s with
  | nil => exact ⟨[], s, rfl, .refl s, hopen, hlink, hserver⟩
  | cons r rest ih =>
    have hstep : step round s .receives = some { s with
        toServer := rest, received := s.received ++ [r] } := by
      simp only [step, hserver]
      exact if_pos hlink
    obtain ⟨acts, t, hrun, halike, h⟩ := ih (kept_step hkept hstep) hopen hlink rfl
    refine ⟨.receives :: acts, t, ⟨trivial, _, hstep, hrun⟩,
      halike.after ⟨rfl, rfl, rfl, rfl, rfl, ?_⟩, h⟩
    simp [State.requests, hserver]

/-- A window whose size was last asked for, and that the last request on its
way is not for. -/
theorem exists_unmet (hkept : Kept round s) (hnot : ¬ Agreed round s) :
    ∃ w : State, s.lastSent = some (w.render round) ∧
      s.requests.getLast? ≠ some (w.desired round) := by
  rcases hhanded : s.handed with _ | r
  · have hsent := hkept.sent
    rw [hhanded] at hsent
    exact absurd hsent hkept.started
  · obtain ⟨w, rfl⟩ := hkept.once r hhanded
    by_cases hlast : s.requests.getLast? = s.handed
    · -- only the scale differs, and the window as it is will do
      have hdue : ¬ (s.debounceTimer = false → s.handed = some (s.desired round)) :=
        fun hwanted => hnot ⟨hlast, hwanted⟩
      obtain ⟨htimer, hdiffers⟩ := Classical.not_imp.1 hdue
      refine ⟨s, (hkept.noticed htimer).1, ?_⟩
      rw [hlast]
      exact hdiffers
    · -- the window the last request was handed over for
      refine ⟨w, ?_, ?_⟩
      · rw [hkept.sent, hhanded]
        rfl
      · rw [← hhanded]
        exact hlast

/-- **The window can be made one whose size was last asked for**, with the
requests as they are and an update due. -/
theorem exists_window (hkept : Kept round s) (w : State)
    (hsize : s.lastSent = some (w.render round)) : ∃ acts t,
      (machine round).Run (Lossless round) s acts t ∧ Kept round t ∧
        t.lastSent = some (t.render round) ∧ t.desired round = w.desired round ∧
        t.requests = s.requests ∧ t.debounceTimer = true := by
  have hstep : step round s (.windowResize w.viewport w.devicePixelRatio) = some { s with
    viewport := w.viewport, devicePixelRatio := w.devicePixelRatio, debounceTimer := true } := rfl
  have hkept' := kept_step hkept hstep
  by_cases hnative : s.useNative = w.useNative
  · refine ⟨[.windowResize w.viewport w.devicePixelRatio], _, ⟨trivial, _, hstep, rfl⟩, hkept',
      ?_, ?_, rfl, rfl⟩
    · rw [hsize]
      simp [State.render, State.pixelRatio, hnative]
    · simp [State.desired, State.render, State.pixelRatio, hnative]
  · -- resized first, the window is toggled with its size asked for already
    have hnative' : (!s.useNative) = w.useNative := by
      rcases hs : s.useNative <;> rcases hw : w.useNative <;> simp_all
    have hsame : s.lastSent = some (State.render round { s with
        viewport := w.viewport, devicePixelRatio := w.devicePixelRatio, debounceTimer := true
        useNative := !s.useNative }) := by
      rw [hsize]
      simp [State.render, State.pixelRatio, hnative']
    have htoggle : step round { s with
        viewport := w.viewport, devicePixelRatio := w.devicePixelRatio, debounceTimer := true }
          .toggleNative = some { s with
            viewport := w.viewport, devicePixelRatio := w.devicePixelRatio, debounceTimer := true
            useNative := !s.useNative
            canvasStyle := some w.viewport, lastCssSize := some w.viewport } := by
      refine congrArg some ?_
      exact update_same (s := { s with
        viewport := w.viewport, devicePixelRatio := w.devicePixelRatio, debounceTimer := true
        useNative := !s.useNative }) hkept.canvas hsame
    refine ⟨[.windowResize w.viewport w.devicePixelRatio, .toggleNative], _,
      ⟨trivial, _, hstep, .inl hsame, _, htoggle, rfl⟩, kept_step hkept' htoggle, hsame, ?_, rfl,
      rfl⟩
    simp [State.desired, State.render, State.pixelRatio, hnative']

/-- **Out of agreement, the server can be left wrong**: with nothing more lost,
the debounce runs on an open connection, and the last request the server has
received is not for the window as it is. -/
theorem exists_wrong (hkept : Kept round s) (hnot : ¬ Agreed round s) : ∃ acts t t',
    (machine round).Run (Lossless round) s acts t ∧ t.phase = .open ∧ t.link = true ∧
      step round t .debounce = some t' ∧ Settled t' ∧ ¬ Right round t' := by
  obtain ⟨w, hsize, hunmet⟩ := exists_unmet hkept hnot
  obtain ⟨acts₁, s₁, hrun₁, hkept₁, hsame, hdesired, hrequests, htimer⟩ :=
    exists_window hkept w hsize
  obtain ⟨acts₂, s₂, hrun₂, halike₂, hopen₂, hlink₂⟩ := exists_open hkept₁
  have hkept₂ := kept_run hkept₁ hrun₂
  obtain ⟨acts₃, s₃, hrun₃, halike₃, hopen₃, hlink₃, hserver₃⟩ :=
    exists_received hkept₂ hopen₂ hlink₂
  have hkept₃ := kept_run hkept₂ hrun₃
  have halike := halike₃.after halike₂
  have hdue : s₃.debounceTimer = true := halike.debounceTimer.trans htimer
  have hstep : step round s₃ .debounce = some { s₃ with
      debounceTimer := false, canvasStyle := some s₃.viewport
      lastCssSize := some s₃.viewport } := by
    refine (if_pos hdue).trans (congrArg some ?_)
    refine update_same (s := { s₃ with debounceTimer := false }) hkept₃.canvas ?_
    exact halike.lastSent.trans (hsame.trans (congrArg some halike.render.symm))
  refine ⟨acts₁ ++ (acts₂ ++ acts₃), s₃, _, hrun₁.append (hrun₂.append hrun₃), hopen₃, hlink₃,
    hstep, ⟨rfl, hopen₃, hlink₃, hserver₃⟩, fun hright => hunmet ?_⟩
  have hreceived : s₃.requests = s₃.received := by
    simp [State.requests, hserver₃, hkept₃.online hopen₃]
  rw [← hrequests, ← halike.requests, hreceived, ← hdesired, ← halike.desired round]
  exact hright

/-! ## Runs -/

/-- A viewport that starts asks once, for the window as it is. -/
theorem start_eq (hsent : s.lastSent = none) (hcanvas : s.canvasStyle = s.lastCssSize)
    (hidle : s.phase = .idle) : s.start round = { s with
      canvasStyle := some s.viewport, lastCssSize := some s.viewport
      lastSent := some (s.render round), handed := some (s.desired round)
      sendQueue := s.sendQueue ++ [s.desired round] } := by
  have hfirst : s.update round = { s with
      canvasStyle := some s.viewport, lastCssSize := some s.viewport
      lastSent := some (s.render round), handed := some (s.desired round)
      sendQueue := s.sendQueue ++ [s.desired round] } := by
    unfold State.update
    rw [fitCanvas_eq hcanvas]
    refine (if_neg ?_).trans ?_
    · simp [hsent]
    · simp only [State.send, hidle]
  rw [State.start, hfirst]
  exact update_same (s := { s with
    canvasStyle := some s.viewport, lastCssSize := some s.viewport
    lastSent := some (s.render round), handed := some (s.desired round)
    sendQueue := s.sendQueue ++ [s.desired round] }) rfl rfl

theorem init_spec (h : (machine round).init s) : Kept round s ∧ Agreed round s := by
  obtain ⟨viewport, devicePixelRatio, useNative, received, rfl⟩ := h
  rw [start_eq rfl rfl rfl]
  refine ⟨⟨⟨⟨fun ho => (by cases ho), fun _ => rfl, fun _ => rfl, fun hc => (by cases hc)⟩, rfl, rfl,
    fun r hr => ⟨_, (Option.some.inj hr).symm⟩⟩, Option.some_ne_none _, fun _ => ⟨rfl, rfl⟩⟩,
    ⟨?_, fun _ => rfl⟩⟩
  simp [State.requests]

/-- What every admitted run keeps. -/
theorem agreed_of_reach (h : (machine round).Reach (ResizeOk round) s) :
    Kept round s ∧ Agreed round s := by
  refine h.invariant (P := fun s => Kept round s ∧ Agreed round s) (fun _ => init_spec)
    fun s a s' hok hstep ⟨hkept, hagreed⟩ => ?_
  obtain ⟨hkept', hiff⟩ := step_spec hkept hstep
  exact ⟨hkept', (hiff hagreed).2 hok⟩

/-- Nothing under way, the last request is the last one received. -/
theorem Agreed.right (h : Agreed round s) (hkept : Kept round s) (hsettled : Settled s) :
    Right round s := by
  obtain ⟨htimer, hopen, -, hserver⟩ := hsettled
  have hlast := h.last
  rw [State.requests, hserver, hkept.online hopen, List.append_nil, List.append_nil] at hlast
  exact hlast.trans (h.wanted htimer)

/-- **The server ends up with what the window wants** in every run whose steps
are admitted; and each step that is not leads to a server left wrong, by a
run that loses nothing more and ends with a debounce on an open connection. -/
theorem right_of_reach (h : (machine round).Reach (ResizeOk round) s) :
    (Settled s → Right round s) ∧
    ∀ a s', step round s a = some s' → ¬ ResizeOk round s a → ∃ acts t t',
      (machine round).Run (Lossless round) s' acts t ∧ t.phase = .open ∧ t.link = true ∧
        step round t .debounce = some t' ∧ Settled t' ∧ ¬ Right round t' := by
  obtain ⟨hkept, hagreed⟩ := agreed_of_reach h
  refine ⟨hagreed.right hkept, fun a s' hstep hnot => ?_⟩
  obtain ⟨hkept', hiff⟩ := step_spec hkept hstep
  exact exists_wrong hkept' fun hagreed' => hnot ((hiff hagreed).1 hagreed')

/-- A window of 1280 by 720 at the native resolution, its viewport started. -/
def State.started : State :=
  State.start id { viewport := ⟨1280, 720⟩, devicePixelRatio := 1, useNative := true, received := [] }

/-- Connected; resized on the open connection; disconnected and back. -/
def roundTrip : List Action :=
  [.connect, .opens, .receives, .windowResize ⟨800, 600⟩ 2, .debounce, .receives, .closes,
    .reconnect, .opens]

/-- Where that leads: 1600 by 1200 at scale 2 were asked for. -/
def State.back : State :=
  { viewport := ⟨800, 600⟩, devicePixelRatio := 2, useNative := true
    lastSent := some ⟨1600, 1200⟩, lastCssSize := some ⟨800, 600⟩, canvasStyle := some ⟨800, 600⟩
    phase := .open, link := true
    received := [⟨1280, 720, 1⟩, ⟨1600, 1200, 2⟩], handed := some ⟨1600, 1200, 2⟩ }

theorem right_of_reach_roundTrip :
    (machine id).Run (ResizeOk id) .started roundTrip .back ∧ Right id .back := by
  have hrun : (machine id).Run (ResizeOk id) .started roundTrip .back := by decide +kernel
  have hinit : (machine id).init .started := ⟨_, _, _, _, rfl⟩
  have hreach := Machine.Reach.run roundTrip (.start hinit) hrun
  exact ⟨hrun, (right_of_reach hreach).1 (by decide)⟩

/-- The first window, connected and zoomed to twice the ratio. -/
def State.zoomed : State :=
  { viewport := ⟨640, 360⟩, devicePixelRatio := 2, useNative := true
    lastSent := some ⟨1280, 720⟩, lastCssSize := some ⟨1280, 720⟩, canvasStyle := some ⟨1280, 720⟩
    debounceTimer := true, phase := .open, link := true
    received := [⟨1280, 720, 1⟩], handed := some ⟨1280, 720, 1⟩ }

/-- **Not every run ends up right**: the window wants the size it had, at
another scale, and the debounce asks for nothing. -/
theorem not_right : ¬ ∀ s s', (machine id).Reachable s → s.phase = .open → s.link = true →
    step id s .debounce = some s' → Settled s' → Right id s' := by
  intro h
  have hinit : (machine id).init .started := ⟨_, _, _, _, rfl⟩
  have hreach := machine id |>.reach_of_exec
    [.connect, .opens, .receives, .windowResize ⟨640, 360⟩ 2] (.start hinit)
    (show _ = some State.zoomed by decide +kernel)
  have hright := h .zoomed
    { State.zoomed with
      debounceTimer := false, lastCssSize := some ⟨640, 360⟩, canvasStyle := some ⟨640, 360⟩ }
    hreach rfl rfl (by decide +kernel) (by decide)
  revert hright
  decide +kernel

end Viewport

end WaylandWebStream
