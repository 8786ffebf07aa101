import WaylandWebStream.Clipboard.Sync

/-!
# Clipboard — the line between the two sides

Each side passes a copy on as it sees it, and neither can tell whether
what reaches it is newer than what it has. So copies that cross, a value
replayed to a new connection after the device has copied, a deferred
write flushed over a newer copy, or a payload dropped on the way leave
the two clipboards apart. `Admits` excludes these steps and no others;
under it the values on the way form one line in one direction at a time,
and `Inv` says where each place along the line stands. This module has
the steps of the users, the bridge, the nest, the server and the
connection; the page's follow.
-/

namespace WaylandWebStream

namespace Clipboard

open Wire (ClipboardData maxClipboardBytes)
open Fifo

variable {s s' : State} {a : Step} {clip : DeviceClip} {p : ClipboardData}
variable {e : Event} {events : List Event} {delivered : Option Bytes} {rest : List ClipboardData}

namespace State

/-! ## The steps that do no harm -/

section Condition

variable (s : State)

/-- A payload within every limit on its way to the nest. -/
def Fits (p : ClipboardData) : Prop := (bytesOf p).length ≤ maxClipboardBytes ∧ Parsed p

/-- The copy was made after all that were passed on. -/
def Newer (t : ℕ) : Prop := ∀ e ∈ s.sends, ∀ t', e.copy = some t' → t' < t

/-- The page has seen the payload last: its key is the one kept, and is
not another payload's. -/
def Current (p : ClipboardData) : Prop :=
  s.page.lastKey = some (keyOf p) ∧ s.seen.map bytesOf = some (bytesOf p)

/-- What a read gave is not out of date: the device still holds it, or by
now a later copy that is still to be read; and it is newer than what was
passed on before it. -/
def Timely (clip : DeviceClip) : Prop :=
  (s.device = some clip ∨ s.Unread clip ∧
    ∃ later, s.device = some later ∧ s.Unread later ∧ later.copy ≠ clip.copy) ∧
  (s.Unread clip → ∀ t, clip.copy = some t → s.Newer t)

/-- **The end of a read.** With the key already kept, the payload is the
one it is of; with another, the connection is there, nothing is on its
way to the device, and the payload fits and is not out of date. -/
def ForwardAdmits (clip : DeviceClip) : Prop :=
  Taken clip.data →
    (s.page.lastKey = some (keyOf clip.data) → s.Current clip.data) ∧
    (s.page.lastKey ≠ some (keyOf clip.data) →
      s.phase ≠ .closed ∧ s.DownstreamIdle ∧ Fits clip.data ∧ s.Timely clip)

/-- **A deferred write is flushed** while no later one is being written. -/
def FlushAdmits : Prop := s.page.pendingWrite ≠ none → s.writes = []

/-- **The bridge reads a copy**: the read delivers it, it is neither empty
nor changed by the decoding, and if it is new, nothing is on its way from
the device and no later copy was passed on before it. -/
def ReadAdmits (delivered : Option Bytes) (e : Event) : Prop :=
  s.world.Delivers delivered e ∧
  ∀ off c value, s.world.reading e = some off → off.origin = .foreign c → c.value = some value →
    c.content = some (bytesOf value) ∧ value ≠ .text "" ∧
    (s.world.bridge.lastValue ≠ some (bytesOf value) → s.upstream = [] ∧ s.Newer c.stamp)

/-- **A connection opens** before anything was pushed, or with the value
it is sent the last one the bridge saw and none on its way to it. -/
def OpenAdmits : Prop :=
  s.watch.version = 0 ∨
    s.world.bridge.lastValue = some (bytesOf s.watch.value) ∧ s.upstream = []

/-- **The steps admitted.** -/
def Admits : Step → Prop
  | .dispatch delivered =>
    ∀ e events, s.world.events = e :: events → s.ReadAdmits delivered e
  | .paste => ∀ clip text, s.device = some clip → clip.data = .text text → s.ForwardAdmits clip
  | .gesture fromTouch => (s.page.onUserGesture fromTouch).2 = false → s.FlushAdmits
  | .readFails i => ∀ r, s.reads[i]? = some r → r.thenFlush = true → s.FlushAdmits
  | .finishRead i => ∀ r clip, s.reads[i]? = some r → r.snapshot = some clip →
    s.ForwardAdmits clip ∧ (r.thenFlush = true → s.FlushAdmits)
  | .finishWrite i _ => i = 0
  | .opened => s.OpenAdmits
  | .closed => s.sendQueue = [] ∧ s.toServer = []
  | .receive => s.inbox.length < inboxCapacity
  | .onMessage => ∀ p rest, s.toBrowser = p :: rest →
    s.page.lastKey = some (keyOf p) → s.Current p
  | _ => True

end Condition

/-! ## The invariant -/

/-- The bytes passed on last. -/
def latestBytes (s : State) : Option Bytes := s.sends.getLast?.map fun e => bytesOf e.data

/-- What a read took and what the device holds are one if they are the
same copy. -/
def Consistent (s : State) (clip : DeviceClip) : Prop :=
  (∀ t, clip.copy = some t → t < s.clock) ∧
  ∀ held t, s.device = some held → held.copy = some t → clip.copy = some t → held = clip

/-- **Where each place along the way stands.** -/
structure Inv (s : State) : Prop where
  world : World.machine.Reachable s.world
  holds : Holds s.world
  fits : ∀ p ∈ s.upstream, Fits p
  /-- What is on its way to the bridge ends with the payload passed on
  last, and with none on its way the bridge has seen it. -/
  up : final s.world.bridge.lastValue (s.upstream.map bytesOf) = s.latestBytes
  /-- The same for the page, of an open connection. -/
  down : s.phase = .open →
    final (s.seen.map bytesOf) ((s.toBrowser ++ s.unpushed).map bytesOf) = s.latestBytes
  /-- Payloads are on their way in one direction at a time. -/
  oneWay : s.upstream ≠ [] → s.DownstreamIdle
  enabled : s.page.enabled = true
  key : s.page.lastKey = s.seen.map keyOf
  /-- The last payload to be written is the one seen last, -/
  last_unwritten : ∀ p, s.unwritten.getLast? = some p → s.Current p
  /-- and with none to be written the device holds it, or a copy that is
  still to be read. -/
  device : s.unwritten = [] → ∀ clip, s.device = some clip → s.Unread clip ∨ s.Current clip.data
  no_device : s.unwritten = [] → s.device = none → s.seen = none
  /-- Before the first push nothing came from the nest. -/
  fresh : s.watch.version = 0 → s.watch.value = .text "" ∧ s.toBrowser = [] ∧ s.unwritten = [] ∧
    s.seen.map bytesOf = s.latestBytes
  pushed : s.watch.version ≠ 0 → sent s.watch.value = [s.watch.value]
  receiver : s.receiver.seen ≤ s.watch.version
  offline : s.phase ≠ .open → s.toServer = [] ∧ s.toBrowser = []
  online : s.phase = .open → s.sendQueue = []
  /-- What was passed on are copies, each later than the one before. -/
  copies : ∀ e ∈ s.sends, ∃ t, e.copy = some t
  ordered : s.sends.Pairwise fun a b => ∀ i j, a.copy = some i → b.copy = some j → i < j
  read_lt : ∀ t ∈ s.readCopies, t < s.clock
  device_lt : ∀ clip t, s.device = some clip → clip.copy = some t → t < s.clock
  snapshots : ∀ r ∈ s.reads, ∀ clip, r.snapshot = some clip → s.Consistent clip

/-! ## What the server sends of a value -/

theorem sent_eq (p : ClipboardData) : sent p = if p = .text "" then [] else [p] := by
  cases p with
  | text text => by_cases h : text = "" <;> simp [sent, Wire.sendClipboard, clipboardOf, h]
  | image mime bytes => simp [sent, Wire.sendClipboard, clipboardOf]

theorem sent_of_ne (hp : p ≠ .text "") : sent p = [p] := by rw [sent_eq, if_neg hp]

theorem unpushed_of_phase_ne (h : s.phase ≠ .open) : s.unpushed = [] := if_neg fun hc => h hc.1

namespace Inv

theorem start : Inv {} where
  world := .start ⟨none, rfl⟩
  holds := Holds.start
  fits := by simp [upstream]
  up := rfl
  down := nofun
  oneWay := fun h => (h rfl).elim
  enabled := rfl
  key := rfl
  last_unwritten := fun _ hp => by cases hp
  device := fun _ _ hclip => by cases hclip
  no_device := fun _ _ => rfl
  fresh := fun _ => ⟨rfl, rfl, rfl, rfl⟩
  pushed := fun h => (h rfl).elim
  receiver := le_rfl
  offline := fun _ => ⟨rfl, rfl⟩
  online := nofun
  copies := nofun
  ordered := .nil
  read_lt := nofun
  device_lt := fun _ _ hclip => by cases hclip
  snapshots := nofun

/-! ## Steps of the users, the bridge and the nest -/

theorem consistent_device (h : Inv s) (hclip : s.device = some clip) : s.Consistent clip := by
  refine ⟨fun t ht => h.device_lt clip t hclip ht, fun held t hheld _ _ => ?_⟩
  rw [hclip] at hheld
  exact (Option.some.inj hheld).symm

theorem copyDevice (h : Inv s) (data : ClipboardData) :
    Inv { s with device := some ⟨data, some s.clock⟩, clock := s.clock + 1 } where
  __ := h
  device := by
    rintro - clip ⟨⟩
    exact .inl ⟨s.clock, rfl, fun hmem => absurd (h.read_lt _ hmem) (lt_irrefl _)⟩
  no_device := nofun
  read_lt := fun t ht => (h.read_lt t ht).trans (Nat.lt_succ_self _)
  device_lt := by
    rintro clip t ⟨⟩ ⟨⟩
    exact Nat.lt_succ_self _
  snapshots := fun r hr clip hclip => by
    obtain ⟨hlt, -⟩ := h.snapshots r hr clip hclip
    refine ⟨fun t ht => (hlt t ht).trans (Nat.lt_succ_self _), ?_⟩
    rintro held t ⟨⟩ ⟨⟩ hcopy
    exact absurd (hlt _ hcopy) (lt_irrefl _)

/-- The bridge and the nest go on, the watch channel as it was; what the
bridge has taken off its channel is no longer on its way. -/
theorem of_bridge (h : Inv s) {w : World} {toRemote : List ClipboardData}
    (hw : World.machine.Reachable w) (hholds : Holds w)
    (hremote : w.bridge.fromRemote = s.world.bridge.fromRemote) (hsub : toRemote ⊆ s.toRemote)
    (hup : final w.bridge.lastValue
      (({ s with world := w, toRemote := toRemote } : State).upstream.map bytesOf) =
        s.latestBytes) :
    Inv { s with world := w, toRemote := toRemote } := by
  -- the watch channel did not change, so the connection has seen as much of it as before
  have hwatch : ({ s with world := w, toRemote := toRemote } : State).watch = s.watch := hremote
  have hunpushed : ({ s with world := w, toRemote := toRemote } : State).unpushed =
      s.unpushed := by
    simp only [unpushed, hwatch]
  have hupstream : ({ s with world := w, toRemote := toRemote } : State).upstream ⊆
      s.upstream := by
    simp only [upstream, List.append_assoc]
    exact List.append_subset.2
      ⟨fun p hp => List.mem_append_left _ (hsub hp), List.subset_append_right _ _⟩
  exact
    { h with
      world := hw
      holds := hholds
      fits := fun p hp => h.fits p (hupstream hp)
      up := hup
      down := fun hopen => by
        rw [hunpushed]
        exact h.down hopen
      oneWay := fun hne => by
        obtain ⟨p, hp⟩ := List.exists_mem_of_ne_nil _ hne
        obtain ⟨hb, hu, hw⟩ := h.oneWay (List.ne_nil_of_mem (hupstream hp))
        exact ⟨hb, hunpushed.trans hu, hw⟩
      fresh := fun hv => by
        rw [hwatch] at hv ⊢
        exact h.fresh hv
      pushed := fun hv => by
        rw [hwatch] at hv ⊢
        exact h.pushed hv
      receiver := by
        rw [hwatch]
        exact h.receiver }

/-- Bridge and nest go on without a value passing. -/
theorem of_world (h : Inv s) {w : World} (hw : World.machine.Reachable w) (hholds : Holds w)
    (hlast : w.bridge.lastValue = s.world.bridge.lastValue)
    (hremote : w.bridge.fromRemote = s.world.bridge.fromRemote) :
    Inv { s with world := w } :=
  h.of_bridge hw hholds hremote (List.Subset.refl _) (by rw [hlast]; exact h.up)

theorem copyRemote (h : Inv s) (formats : List (String × Bytes)) :
    Inv { s with
      world := s.world.select (some (.foreign ⟨s.clock, formats⟩))
      clock := s.clock + 1 } := by
  have hw := h.of_world (World.reachable_step (a := .copy ⟨s.clock, formats⟩) h.world rfl)
    (h.holds.select s.world.requests _) rfl rfl
  exact
    { hw with
      read_lt := fun t ht => (h.read_lt t ht).trans (Nat.lt_succ_self _)
      device_lt := fun clip t hclip ht => (h.device_lt clip t hclip ht).trans (Nat.lt_succ_self _)
      snapshots := fun r hr clip hclip => by
        obtain ⟨hlt, heq⟩ := h.snapshots r hr clip hclip
        exact ⟨fun t ht => (hlt t ht).trans (Nat.lt_succ_self _), heq⟩ }

theorem pasteRemote (h : Inv s) {w : World} (hstep : s.world.step .paste = some w) :
    Inv { s with world := w } := by
  refine h.of_world (World.reachable_step h.world hstep) (h.holds.paste hstep) ?_ ?_ <;>
  · obtain ⟨k, -, rfl⟩ := Option.map_eq_some_iff.1 hstep
    rfl

theorem process (h : Inv s) {w : World} (hstep : s.world.step .process = some w) :
    Inv { s with world := w } := by
  have hnext := World.reachable_step h.world hstep
  simp only [World.step] at hstep
  split at hstep
  · cases hstep
  · obtain rfl := Option.some.inj hstep
    exact h.of_world hnext (h.holds.select _ _) rfl rfl

/-- The bridge pushes a copy, nothing being on its way to it. -/
theorem pushes (h : Inv s) {w : World} {t : ℕ} (hup : s.upstream = [])
    (hw : World.machine.Reachable w) (hholds : Holds w)
    (hlast : w.bridge.lastValue = some (bytesOf p))
    (hremote : w.bridge.fromRemote = s.world.bridge.fromRemote.send p) (hne : p ≠ .text "")
    (hnewer : s.Newer t) : Inv { s with world := w, sends := s.sends ++ [⟨some t, p⟩] } := by
  have hwatch : w.bridge.fromRemote = s.watch.send p := hremote
  refine
    { h with
      world := hw
      holds := hholds
      up := ?_
      down := fun hopen => ?_
      oneWay := fun hne => (hne hup).elim
      fresh := fun hv => ?_
      pushed := fun _ => ?_
      receiver := ?_
      copies := fun e he => ?_
      ordered := ?_ }
  · have hup' : ({ s with world := w, sends := s.sends ++ [⟨some t, p⟩] } : State).upstream = [] :=
      hup
    simp [hup', latestBytes, hlast]
  · -- whatever the connection had not seen, the channel now holds this payload only
    have hunpushed : ({ s with world := w, sends := s.sends ++ [⟨some t, p⟩] } : State).unpushed =
        [p] := by
      simp only [unpushed, watch, hwatch, Watch.send_value, sent_of_ne hne]
      exact if_pos ⟨hopen, Watch.hasChanged_send h.receiver p⟩
    rw [hunpushed]
    simp [latestBytes]
  · simp [watch, hwatch] at hv
  · simp only [watch, hwatch, Watch.send_value]
    exact sent_of_ne hne
  · simp only [watch, hwatch, Watch.send_version]
    exact h.receiver.trans (Nat.le_succ _)
  · rcases List.mem_append.1 he with he | he
    · exact h.copies e he
    · obtain rfl := List.mem_singleton.1 he
      exact ⟨t, rfl⟩
  · refine List.pairwise_append.2 ⟨h.ordered, List.pairwise_singleton _ _, ?_⟩
    rintro a ha b hb i j hi hj
    obtain rfl := List.mem_singleton.1 hb
    obtain rfl := Option.some.inj hj
    exact hnewer a ha i hi

/-- **An event is dispatched.** A copy that is read and new goes into the
watch channel, where nothing on its way the other way can meet it. -/
theorem dispatch (h : Inv s) (he : s.world.events = e :: events)
    (hadm : s.ReadAdmits delivered e) : Inv (s.dispatch delivered e events) := by
  obtain ⟨hdel, hadm⟩ := hadm
  have hstep : s.world.step (.dispatch delivered) = some (s.world.dispatch delivered e events) := by
    simp only [World.step, he]
  have hworld := World.reachable_step h.world hstep
  have hholds := h.holds.dispatch h.world he hdel
  -- nothing passes unless the dispatch reads what is new
  have hquiet : (handle s.world.bridge delivered e).1.lastValue = s.world.bridge.lastValue →
      (handle s.world.bridge delivered e).1.fromRemote = s.world.bridge.fromRemote →
      Inv (s.dispatch delivered e events) := by
    intro hlast hremote
    have heq : s.dispatch delivered e events =
        { s with world := s.world.dispatch delivered e events } := by
      simp [State.dispatch, World.dispatch, watch, hremote]
    rw [heq]
    exact h.of_world hworld hholds hlast hremote
  cases hreading : s.world.reading e with
  | none =>
    obtain ⟨hlast, hremote⟩ := handle_of_not_reading delivered hreading
    exact hquiet hlast hremote
  | some off =>
    obtain ⟨hforeign, -, -⟩ := (owned_of_reachable h.world).reading he hreading
    cases horigin : off.origin with
    | own k mimes => rw [horigin] at hforeign; cases hforeign
    | foreign c =>
      obtain ⟨content, value, hcontent, hvalue, hlast, hremote⟩ :=
        handle_of_reading h.world he hreading horigin hdel
      obtain ⟨hbytes, hne, hnew⟩ := hadm off c value hreading horigin hvalue
      obtain rfl : content = bytesOf value := by simpa [hcontent] using hbytes
      -- bytes the bridge has seen are not pushed again
      by_cases hsame : s.world.bridge.lastValue = some (bytesOf value)
      · rw [if_pos hsame] at hremote
        exact hquiet (hlast.trans hsame.symm) hremote
      · rw [if_neg hsame] at hremote
        obtain ⟨hup, hnewer⟩ := hnew hsame
        have heq : s.dispatch delivered e events =
            { s with
              world := s.world.dispatch delivered e events
              sends := s.sends ++ [⟨some c.stamp, value⟩] } := by
          simp [State.dispatch, World.dispatch, watch, hremote, hreading, copyOf, horigin]
        rw [heq]
        exact h.pushes hup hworld hholds hlast hremote hne hnewer

/-! ## Steps on the way to the nest -/

/-- A payload moves on from one queue to the next. -/
theorem of_upstream (h : Inv s) {toRemote inbox toServer : List ClipboardData}
    (hup : toRemote ++ inbox ++ toServer ++ s.sendQueue = s.upstream)
    (hoff : s.toServer = [] → toServer = []) :
    Inv { s with toRemote := toRemote, inbox := inbox, toServer := toServer } := by
  have hup : ({ s with toRemote := toRemote, inbox := inbox, toServer := toServer } :
      State).upstream = s.upstream := hup
  exact
    { h with
      fits := hup ▸ h.fits
      up := by rw [hup]; exact h.up
      oneWay := fun hne => h.oneWay (hup ▸ hne)
      offline := fun hphase => (h.offline hphase).imp_left hoff }

theorem relay (h : Inv s) (hinbox : s.inbox = p :: rest) :
    Inv { s with inbox := rest, toRemote := s.toRemote ++ [p] } :=
  h.of_upstream (by simp [upstream, hinbox]) id

theorem receive (h : Inv s) (hserver : s.toServer = p :: rest)
    (hroom : s.inbox.length < inboxCapacity) : Inv (s.receive p rest) := by
  have hfits : Fits p := h.fits p (by simp [upstream, hserver])
  simp only [State.receive, if_pos (And.intro hfits.2 hroom)]
  exact h.of_upstream (by simp [upstream, hserver]) fun hnil => by simp [hserver] at hnil

/-- A payload that fits is the last value the bridge saw once it has it,
whether that made a new selection or not. -/
theorem setSelection_lastValue {b : ClipState} (hp : (bytesOf p).length ≤ maxClipboardBytes) :
    (setSelection b p).1.lastValue = some (bytesOf p) ∧
    (setSelection b p).1.fromRemote = b.fromRemote := by
  rw [setSelection, if_neg (Nat.not_lt.2 hp)]
  split_ifs with hlast
  · exact ⟨hlast, rfl⟩
  · exact ⟨rfl, rfl⟩

theorem deliver (h : Inv s) (hremote : s.toRemote = p :: rest) :
    Inv { s with toRemote := rest, world := s.world.payload p } := by
  have hfits : Fits p := h.fits p (by simp [upstream, hremote])
  obtain ⟨hlast, hwatch⟩ := setSelection_lastValue (b := s.world.bridge) hfits.1
  refine h.of_bridge (World.reachable_step (a := .payload p) h.world rfl) (h.holds.payload p) hwatch
    (hremote ▸ List.subset_cons_self _ _) ?_
  have hup := h.up
  simp only [upstream, hremote, List.cons_append, List.map_cons, final_cons] at hup
  simpa [World.payload, hlast, upstream] using hup

/-! ## Steps on the way to the device -/

theorem push (h : Inv s) (hopen : s.phase = .open) (hchanged : s.watch.hasChanged s.receiver) :
    Inv s.push := by
  have hsent : s.unpushed = sent s.watch.value := if_pos ⟨hopen, hchanged⟩
  have hunpushed : s.push.unpushed = [] :=
    if_neg fun hc => by
      have hseen : s.watch.hasChanged s.watch.subscribe = true := hc.2
      simp at hseen
  refine
    { h with
      down := fun _ => ?_
      oneWay := fun hne => ?_
      fresh := fun hv => ?_
      receiver := le_rfl
      offline := fun hphase => (hphase hopen).elim }
  · have := h.down hopen
    rw [hsent] at this
    rw [hunpushed, List.append_nil]
    exact this
  · obtain ⟨hb, hu, hw⟩ := h.oneWay hne
    refine ⟨?_, hunpushed, hw⟩
    simp [State.push, hb, ← hsent, hu]
  · obtain ⟨hvalue, hb, hw, hseen⟩ := h.fresh hv
    refine ⟨hvalue, ?_, hw, hseen⟩
    simp [State.push, hb, hvalue, sent_eq]

/-- **The page handles a message.** -/
theorem onMessage (h : Inv s) (hb : s.toBrowser = p :: rest)
    (hadm : s.page.lastKey = some (keyOf p) → s.Current p) : Inv (s.onMessage p rest) := by
  have hopen : s.phase = .open := by
    by_contra hphase
    rw [(h.offline hphase).2] at hb
    cases hb
  -- values pass one way at a time: while one is on its way down none is on its way up
  have hup : s.upstream = [] := by
    by_contra hne
    rw [(h.oneWay hne).1] at hb
    cases hb
  have hversion : s.watch.version ≠ 0 := fun hv => by
    rw [(h.fresh hv).2.1] at hb
    cases hb
  have hdown := h.down hopen
  rw [hb, List.cons_append, List.map_cons, final_cons] at hdown
  by_cases hkey : s.page.lastKey = some (keyOf p)
  · -- the payload is the one seen last and goes no further
    have heq : s.onMessage p rest = { s with toBrowser := rest } := by
      simp [State.onMessage, ClipboardBridge.onRemote, hkey]
    rw [heq]
    exact
      { h with
        down := fun _ => (hadm hkey).2 ▸ hdown
        oneWay := fun hne => (hne hup).elim
        fresh := fun hv => (hversion hv).elim
        offline := fun hphase => (hphase hopen).elim }
  · -- a new payload is written behind those under way, or waits if the write fails
    have heq : s.onMessage p rest =
        { s with
          toBrowser := rest
          page := { s.page with lastKey := some (keyOf p) }
          seen := some p
          writes := s.writes ++ [p] } := by
      simp [State.onMessage, ClipboardBridge.onRemote, hkey, h.enabled]
    have hunwritten : (s.onMessage p rest).unwritten = s.unwritten ++ [p] := by
      simp [heq, unwritten]
    rw [heq] at hunwritten ⊢
    refine
      { h with
        down := fun _ => hdown
        oneWay := fun hne => (hne hup).elim
        key := rfl
        last_unwritten := fun q hq => ?_
        device := fun hnil => ?_
        no_device := fun hnil => ?_
        fresh := fun hv => (hversion hv).elim
        offline := fun hphase => (hphase hopen).elim }
    · rw [hunwritten, List.getLast?_concat] at hq
      obtain rfl := Option.some.inj hq
      exact ⟨rfl, rfl⟩
    · simp [hunwritten] at hnil
    · simp [hunwritten] at hnil

/-! ## The connection -/

theorem connect (h : Inv s) (hphase : s.phase ≠ .open) :
    Inv { s with phase := .connecting } :=
  { h with
    down := nofun
    oneWay := fun hne =>
      ⟨(h.oneWay hne).1, unpushed_of_phase_ne (by simp), (h.oneWay hne).2.2⟩
    offline := fun _ => h.offline hphase
    online := nofun }

theorem closed (h : Inv s) (hqueue : s.sendQueue = []) (hserver : s.toServer = []) :
    Inv s.closed := by
  have hup : s.closed.upstream = s.upstream := by simp [upstream, State.closed, hqueue, hserver]
  exact
    { h with
      fits := hup ▸ h.fits
      up := by rw [hup]; exact h.up
      down := nofun
      oneWay := fun hne =>
        ⟨rfl, unpushed_of_phase_ne (by simp [State.closed]), (h.oneWay (hup ▸ hne)).2.2⟩
      fresh := fun hv => ⟨(h.fresh hv).1, rfl, (h.fresh hv).2.2⟩
      offline := fun _ => ⟨rfl, rfl⟩
      online := nofun }

/-- **A connection opens.** What it is sent is the last payload passed
on, or nothing. -/
theorem opened (h : Inv s) (hphase : s.phase = .connecting) (hadm : s.OpenAdmits) :
    Inv s.opened := by
  have hserver : s.toServer = [] := (h.offline (by simp [hphase])).1
  have hup : s.opened.upstream = s.upstream := by simp [upstream, State.opened, hserver]
  have hwatch : s.opened.watch = s.watch := rfl
  -- before the first push there is nothing to send
  have hfresh : s.watch.version = 0 → sent s.watch.value = [] ∧ s.opened.unpushed = [] := by
    intro hv
    have hsent : sent s.watch.value = [] := by rw [(h.fresh hv).1, sent_eq, if_pos rfl]
    exact ⟨hsent, by simp [unpushed, hwatch, hsent]⟩
  have hbrowser : s.opened.toBrowser = sent s.watch.value := rfl
  refine
    { h with
      fits := hup ▸ h.fits
      up := by rw [hup]; exact h.up
      down := fun _ => ?_
      oneWay := fun hne => ?_
      fresh := fun hv => ?_
      receiver := Nat.zero_le _
      offline := fun hne => (hne rfl).elim
      online := fun _ => rfl }
  · rw [hbrowser]
    by_cases hv : s.watch.version = 0
    · rw [(hfresh hv).1, (hfresh hv).2]
      exact (h.fresh hv).2.2.2
    · obtain ⟨hlast, hnil⟩ := hadm.resolve_left hv
      have hlatest : s.latestBytes = some (bytesOf s.watch.value) := by
        rw [← h.up, hnil, hlast]
        rfl
      have hunpushed : s.opened.unpushed = [s.watch.value] := by
        rw [← h.pushed hv]
        have hchanged : s.watch.hasChanged ⟨0⟩ = true := by
          simp [Watch.hasChanged, Ne.symm hv]
        exact if_pos ⟨rfl, hchanged⟩
      rw [hunpushed, List.map_append, List.map_singleton, final_concat]
      exact hlatest.symm
  · rw [hup] at hne
    have hv : s.watch.version = 0 := by
      by_contra hv
      exact hne (hadm.resolve_left hv).2
    exact ⟨hbrowser.trans (hfresh hv).1, (hfresh hv).2, (h.oneWay hne).2.2⟩
  · obtain ⟨hvalue, -, hw, hseen⟩ := h.fresh hv
    exact ⟨hvalue, hbrowser.trans (hfresh hv).1, hw, hseen⟩

end Inv

end State

end Clipboard

end WaylandWebStream
