import WaylandWebStream.Control.Page
import WaylandWebStream.Lib.Machine
import WaylandWebStream.Lib.Watch

/-!
# Control state — the handler, the page and its connection

A connection's handler sends the page each channel's value, in the order
of its burst, and then every change it sees. Its receivers are clones of
receivers that never saw a change, so a value changed before the
connection is sent once more by the loop. The page may be dropped at any
time, keeps what it shows, and connects again.
-/

namespace WaylandWebStream

namespace Control

open Wire

/-! ## The handler -/

/-- The order of the burst. -/
def Channel.order : List Channel := [.bitrate, .codec, .cursor, .appMeta, .clipboard, .pointerLock]

/-- What the burst sends for a channel. -/
def burstOf : (ch : Channel) → ch.Value → List Emission
  | .bitrate, bps => [.control (.bitrate bps)]
  | .codec, codec => [.control (.codec codec)]
  | .cursor, cursor => [.control (.cursor cursor)]
  | .appMeta, appMeta => .control (.title appMeta.title appMeta.appId) ::
      if appMeta.favicon.isSome then [.control (.favicon appMeta.favicon)] else []
  | .clipboard, data => sendClipboard data
  | .pointerLock, locked => if locked then [.control (.pointerLock locked)] else []

/-- The arm of the loop for a change of a channel. -/
def changed : (ch : Channel) → ch.Value → HandlerEvent
  | .bitrate, bps => .bitrateChanged bps
  | .codec, codec => .codecChanged codec
  | .cursor, cursor => .cursorChanged cursor
  | .appMeta, appMeta => .appMetaChanged appMeta
  | .clipboard, data => .clipboardChanged data
  | .pointerLock, locked => .pointerLockChanged locked

/-- Of the burst, only the window's metadata is remembered. -/
def remember (last : AppMeta) : (ch : Channel) → ch.Value → AppMeta
  | .appMeta, appMeta => appMeta
  | .bitrate, _ | .codec, _ | .cursor, _ | .clipboard, _ | .pointerLock, _ => last

/-- A channel's value among those a client finds. -/
def valueOf (now : Current) : (ch : Channel) → ch.Value
  | .bitrate => now.bitrate
  | .codec => now.codec
  | .cursor => now.cursor
  | .appMeta => now.appMeta
  | .clipboard => now.clipboard
  | .pointerLock => now.pointerLock

/-- While no value changes, piece after piece makes the burst. -/
theorem connectBurst_eq (now : Current) :
    connectBurst now = Channel.order.flatMap fun ch => burstOf ch (valueOf now ch) := by
  simp [connectBurst, Channel.order, burstOf, valueOf]

/-- Where the handler of the page's connection stands. -/
inductive Stage
  /-- Sends the values of these channels first. -/
  | burst (rest : List Channel)
  | serving
  /-- `changed()` of this channel has resolved. -/
  | woken (ch : Channel)

/-- The channels the burst has not come to. -/
def Stage.rest : Stage → List Channel
  | burst rest => rest
  | serving | woken _ => []

/-- Past the burst no channel is left. -/
theorem Stage.not_mem_rest {stage : Stage} (h : stage = .burst [] ∨ stage = .serving ∨
    ∃ ch, stage = .woken ch) (ch : Channel) : ch ∉ stage.rest := by
  rcases h with rfl | rfl | ⟨ch', rfl⟩
  · exact List.not_mem_nil
  · exact List.not_mem_nil
  · exact List.not_mem_nil

/-- The page's connection. -/
structure Conn where
  stage : Stage
  receivers : Channel → Watch.Receiver
  lastAppMeta : AppMeta
  toPage : List Emission

/-- The watch channels, the page, and its connection, if there is one. -/
structure State where
  tx : (ch : Channel) → Watch ch.Value
  page : Page
  conn : Option Conn

/-- What can happen next. -/
inductive Action
  | change (ch : Channel) (v : ch.Value)
  | connect
  /-- The handler sends the next piece of its burst. -/
  | burst
  | wake (ch : Channel)
  /-- The arm that was woken reads the value and sends. -/
  | arm
  | onMessage
  /-- The page's connection is dropped, or kicked. -/
  | closed

namespace State

variable (s : State)

/-- A new connection: its receivers are clones that never saw a change. -/
def opened : Conn where
  stage := .burst Channel.order
  receivers _ := ⟨0⟩
  lastAppMeta := ⟨"", "", none⟩
  toPage := []

/-- A value is sent on its channel. -/
def change (ch : Channel) (v : ch.Value) : State :=
  { s with tx := Function.update s.tx ch ((s.tx ch).send v) }

/-- One step. -/
def step : Action → Option State
  | .change ch v => some (s.change ch v)
  | .connect =>
    match s.conn with
    | none => some { s with conn := some opened }
    | some _ => none
  | .burst => do
    let c ← s.conn
    match c.stage with
    | .burst [] => some { s with conn := some { c with stage := .serving } }
    | .burst (ch :: rest) =>
      some { s with conn := some { c with
        stage := .burst rest
        lastAppMeta := remember c.lastAppMeta ch (s.tx ch).value
        toPage := c.toPage ++ burstOf ch (s.tx ch).value } }
    | .serving | .woken _ => none
  | .wake ch => do
    let c ← s.conn
    match c.stage with
    | .serving =>
      if (s.tx ch).hasChanged (c.receivers ch) then
        some { s with conn := some { c with
          stage := .woken ch
          receivers := Function.update c.receivers ch (s.tx ch).subscribe } }
      else none
    | .burst _ | .woken _ => none
  | .arm => do
    let c ← s.conn
    match c.stage with
    | .woken ch =>
      let (sent, lastAppMeta) := handlerTurn c.lastAppMeta (changed ch (s.tx ch).value)
      some { s with conn := some { c with
        stage := .serving
        lastAppMeta
        toPage := c.toPage ++ sent } }
    | .burst _ | .serving => none
  | .onMessage => do
    let c ← s.conn
    match c.toPage with
    | [] => none
    | m :: toPage =>
      some { s with page := s.page.onMessage m, conn := some { c with toPage } }
  | .closed =>
    match s.conn with
    | none => none
    | some _ => some { s with conn := none }

/-- The server as it starts, and a page it has not met. -/
structure Started : Prop where
  version : ∀ ch, (s.tx ch).version = 0
  appMeta : (s.tx .appMeta).value = ⟨"", "", none⟩
  pointerLock : (s.tx .pointerLock).value = false
  favicon : s.page.appFavicon = none
  pointerLockWanted : s.page.pointerLockWanted = false
  conn : s.conn = none

/-- **Everything is sent and handled**: the connection serves, no change
is unseen, no message under way. -/
def Settled : Prop :=
  ∃ c, s.conn = some c ∧ c.stage = .serving ∧ c.toPage = [] ∧
    ∀ ch, (s.tx ch).hasChanged (c.receivers ch) = false

/-- **The page agrees with the server.** -/
def Agrees : Prop :=
  (∀ ch, s.page.Shows ch (s.tx ch).value) ∧
    s.page.appFavicon = (s.tx .appMeta).value.favicon

end State

/-- Server and page, over all changes and connections. -/
def machine : Machine State Action where
  init := State.Started
  step := State.step

/-- Nothing changes, and the connection lasts. -/
def Action.isQuiet : Action → Bool
  | change _ _ | closed => false
  | connect | burst | wake _ | arm | onMessage => true

/-- **Where a burst leaves the favicon out, the page has none.** -/
def FaviconClear (s : State) (a : Action) : Prop :=
  a = .burst → ∀ c rest, s.conn = some c → c.stage = .burst (.appMeta :: rest) →
    (s.tx .appMeta).value.favicon = none → s.page.appFavicon = none

variable {s s' : State} {ch : Channel} {p : Page} {last : AppMeta} {m : Emission}

/-! ## What the handler sends -/

theorem about_burstOf (v : ch.Value) (h : m ∈ burstOf ch v) : about m = some ch := by
  cases ch with
  | appMeta =>
    obtain ⟨title, appId, favicon⟩ := v
    rcases List.mem_cons.1 h with rfl | h
    · rfl
    · split at h
      · rw [List.mem_singleton.1 h]
        rfl
      · cases h
  | clipboard =>
    cases v with
    | text text =>
      simp only [burstOf, sendClipboard] at h
      split at h
      · cases h
      · rw [List.mem_singleton.1 h]
        rfl
    | image mime bytes =>
      rw [List.mem_singleton.1 h]
      rfl
  | pointerLock =>
    simp only [burstOf] at h
    split at h
    · rw [List.mem_singleton.1 h]
      rfl
    · cases h
  | _ =>
    rw [List.mem_singleton.1 h]
    rfl

theorem about_handlerTurn (v : ch.Value) (h : m ∈ (handlerTurn last (changed ch v)).1) :
    about m = some ch := by
  cases ch with
  | appMeta =>
    rcases List.mem_append.1 h with h | h
    · split at h
      · rw [List.mem_singleton.1 h]
        rfl
      · cases h
    · split at h
      · rw [List.mem_singleton.1 h]
        rfl
      · cases h
  | clipboard => exact about_burstOf (v : Channel.clipboard.Value) h
  | _ =>
    rw [List.mem_singleton.1 h]
    rfl

/-- The burst has the page show a channel's value, a lock that is not
engaged apart. -/
theorem shows_burstOf (v : ch.Value) (h : ch ≠ .pointerLock) :
    (p.onMessages (burstOf ch v)).Shows ch v := by
  cases ch with
  | bitrate => exact Page.shows_bitrate v
  | codec => exact Page.shows_codec v
  | cursor => exact Page.shows_cursor v
  | clipboard => trivial
  | pointerLock => exact absurd rfl h
  | appMeta =>
    obtain ⟨title, appId, favicon⟩ := v
    cases favicon with
    | none => rfl
    | some favicon => rfl

/-- **The loop has the page show a channel's value**, a title that is the
one sent before included. -/
theorem shows_handlerTurn (v : ch.Value) (hlast : ch = .appMeta → p.Shows .appMeta last) :
    (p.onMessages (handlerTurn last (changed ch v)).1).Shows ch v := by
  cases ch with
  | bitrate => exact Page.shows_bitrate v
  | codec => exact Page.shows_codec v
  | cursor => exact Page.shows_cursor v
  | clipboard => trivial
  | pointerLock => rfl
  | appMeta =>
    have hfavicon : ∀ q : Page, (q.onMessages (if v.favicon ≠ last.favicon then
        [.control (.favicon v.favicon)] else [])).documentTitle = q.documentTitle := by
      intro q
      split
      · rfl
      · rfl
    show (p.onMessages _).documentTitle = tabTitle v.title v.appId
    simp only [changed, handlerTurn]
    rw [Page.onMessages_append, hfavicon]
    split
    · rfl
    · rename_i hsame
      rw [not_or, not_not, not_not] at hsame
      rw [hsame.1, hsame.2]
      exact hlast rfl

/-- The burst leaves an absent favicon out. -/
theorem appFavicon_burstOf (appMeta : AppMeta) :
    (p.onMessages (burstOf .appMeta appMeta)).appFavicon =
      if appMeta.favicon.isSome then appMeta.favicon else p.appFavicon := by
  obtain ⟨title, appId, favicon⟩ := appMeta
  cases favicon with
  | none => rfl
  | some favicon => rfl

/-- A channel's messages are about a favicon if it is the metadata's. -/
theorem ne_favicon_of_about (h : about m = some ch) (hne : ch ≠ .appMeta)
    (favicon : Option Favicon) : m ≠ .control (.favicon favicon) := by
  rintro rfl
  exact hne (Option.some.inj h).symm

theorem remember_of_ne (v : ch.Value) (h : ch ≠ .appMeta) : remember last ch v = last := by
  cases ch with
  | appMeta => exact absurd rfl h
  | _ => rfl

theorem handlerTurn_snd_of_ne (v : ch.Value) (h : ch ≠ .appMeta) :
    (handlerTurn last (changed ch v)).2 = last := by
  cases ch with
  | appMeta => exact absurd rfl h
  | _ => rfl

/-- The loop leaves the page with a channel's favicon, if the one it takes
for sent is there. -/
theorem appFavicon_handlerTurn (appMeta : AppMeta) (hlast : p.appFavicon = last.favicon) :
    (p.onMessages (handlerTurn last (changed .appMeta appMeta)).1).appFavicon =
      appMeta.favicon := by
  have htitle : (p.onMessages (if appMeta.title ≠ last.title ∨ appMeta.appId ≠ last.appId then
      [.control (.title appMeta.title appMeta.appId)] else [])).appFavicon = p.appFavicon := by
    split
    · rfl
    · rfl
  have hfavicon : ∀ q : Page, q.appFavicon = last.favicon →
      (q.onMessages (if appMeta.favicon ≠ last.favicon then
        [.control (.favicon appMeta.favicon)] else [])).appFavicon = appMeta.favicon := by
    intro q hq
    split
    · rfl
    · rename_i hsame
      rw [not_not] at hsame
      rw [hsame]
      exact hq
  simp only [changed, handlerTurn]
  rw [Page.onMessages_append]
  exact hfavicon _ (htitle.trans hlast)

/-! ## What a step does -/

namespace State

theorem step_connect (h : s.step .connect = some s') :
    s.conn = none ∧ s' = { s with conn := some opened } := by
  simp only [State.step] at h
  split at h
  · rename_i hnone
    cases h
    exact ⟨hnone, rfl⟩
  · cases h

theorem step_closed (h : s.step .closed = some s') : s' = { s with conn := none } := by
  simp only [State.step] at h
  split at h
  · cases h
  · cases h
    rfl

theorem step_burst (h : s.step .burst = some s') : ∃ c, s.conn = some c ∧
    (c.stage = .burst [] ∧ s' = { s with conn := some { c with stage := .serving } } ∨
      ∃ ch rest, c.stage = .burst (ch :: rest) ∧ s' = { s with conn := some { c with
        stage := .burst rest
        lastAppMeta := remember c.lastAppMeta ch (s.tx ch).value
        toPage := c.toPage ++ burstOf ch (s.tx ch).value } }) := by
  obtain ⟨c, hc, h⟩ := Option.bind_eq_some_iff.1 h
  refine ⟨c, hc, ?_⟩
  split at h
  · rename_i hstage
    cases h
    exact Or.inl ⟨hstage, rfl⟩
  · rename_i ch rest hstage
    cases h
    exact Or.inr ⟨ch, rest, hstage, rfl⟩
  · cases h
  · cases h

theorem step_wake (h : s.step (.wake ch) = some s') : ∃ c, s.conn = some c ∧ c.stage = .serving ∧
    s' = { s with conn := some { c with
      stage := .woken ch
      receivers := Function.update c.receivers ch (s.tx ch).subscribe } } := by
  obtain ⟨c, hc, h⟩ := Option.bind_eq_some_iff.1 h
  refine ⟨c, hc, ?_⟩
  split at h
  · rename_i hstage
    split at h
    · cases h
      exact ⟨hstage, rfl⟩
    · cases h
  · cases h
  · cases h

theorem step_arm (h : s.step .arm = some s') : ∃ c ch, s.conn = some c ∧ c.stage = .woken ch ∧
    s' = { s with conn := some { c with
      stage := .serving
      lastAppMeta := (handlerTurn c.lastAppMeta (changed ch (s.tx ch).value)).2
      toPage := c.toPage ++ (handlerTurn c.lastAppMeta (changed ch (s.tx ch).value)).1 } } := by
  obtain ⟨c, hc, h⟩ := Option.bind_eq_some_iff.1 h
  split at h
  · rename_i ch hstage
    cases h
    exact ⟨c, ch, hc, hstage, rfl⟩
  · cases h
  · cases h

theorem step_onMessage (h : s.step .onMessage = some s') : ∃ c m toPage, s.conn = some c ∧
    c.toPage = m :: toPage ∧
    s' = { s with page := s.page.onMessage m, conn := some { c with toPage } } := by
  obtain ⟨c, hc, h⟩ := Option.bind_eq_some_iff.1 h
  split at h
  · cases h
  · rename_i m toPage htoPage
    cases h
    exact ⟨c, m, toPage, hc, htoPage, rfl⟩

@[simp] theorem change_self (v : ch.Value) : (s.change ch v).tx ch = (s.tx ch).send v :=
  Function.update_self ..

theorem change_of_ne (v : ch.Value) (h : ch' ≠ ch) : (s.change ch v).tx ch' = s.tx ch' :=
  Function.update_of_ne h ..

end State

end Control

end WaylandWebStream
