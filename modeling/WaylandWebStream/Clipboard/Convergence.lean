import WaylandWebStream.Clipboard.Line

/-!
# Clipboard — when the two sides converge

The page is where the two directions meet: it reads what the device
holds, its own writes included, and writes what the server sends. With
its steps every admitted step keeps the invariant, and once everything
is done the invariant puts the last copy passed on at both ends. Without
the condition a value replayed to a new connection parts them for good.
-/

namespace WaylandWebStream

namespace Clipboard

open Wire (ClipboardData maxClipboardBytes)
open Fifo

variable {s s' : State} {a : Step} {clip : DeviceClip} {p : ClipboardData}
variable {e : Event} {events : List Event} {delivered : Option Bytes} {rest : List ClipboardData}

namespace State

namespace Inv

/-! ## The page -/

/-- A deferred write tried again is still the first to be written. -/
theorem unwritten_flush (hadm : s.FlushAdmits) : s.flush.unwritten = s.unwritten := by
  cases hp : s.page.pendingWrite with
  | none => simp [unwritten, State.flush, ClipboardBridge.flush, hp]
  | some p =>
    have hwrites : s.writes = [] := hadm (by simp [hp])
    simp [unwritten, State.flush, ClipboardBridge.flush, hp, hwrites]

theorem flush (h : Inv s) (hadm : s.FlushAdmits) : Inv s.flush := by
  have hunwritten := unwritten_flush hadm
  exact
    { h with
      oneWay := fun hne => by
        obtain ⟨hb, hu, hw⟩ := h.oneWay hne
        exact ⟨hb, hu, hunwritten.trans hw⟩
      last_unwritten := fun p hp => h.last_unwritten p (hunwritten ▸ hp)
      device := fun hnil => h.device (hunwritten ▸ hnil)
      no_device := fun hnil => h.no_device (hunwritten ▸ hnil)
      fresh := fun hv => by
        obtain ⟨hvalue, hb, hw, hseen⟩ := h.fresh hv
        exact ⟨hvalue, hb, hunwritten.trans hw, hseen⟩ }

/-- The browser is done with the first of the writes. -/
theorem finishWrite (h : Inv s) {ok : Bool} (hp : s.writes[0]? = some p) :
    Inv (s.finishWrite 0 p ok) := by
  obtain ⟨rest, hwrites⟩ : ∃ rest, s.writes = p :: rest := by
    cases hw : s.writes with
    | nil => simp [hw] at hp
    | cons q rest => exact ⟨rest, by simpa [hw] using hp⟩
  have hne : s.unwritten ≠ [] := by simp [unwritten, hwrites]
  have hup : s.upstream = [] := by
    by_contra hcon
    exact hne (h.oneWay hcon).2.2
  -- whatever becomes of the write, the last payload of the line stays the one seen last
  have hlast : ∀ q, (p :: rest).getLast? = some q → s.Current q := fun q hq =>
    h.last_unwritten q (by rw [unwritten, hwrites, List.getLast?_append, hq]; rfl)
  have hfresh : s.watch.version ≠ 0 := fun hv => hne (h.fresh hv).2.2.1
  cases ok with
  | true =>
    have hunwritten : (s.finishWrite 0 p true).unwritten = rest := by
      simp [unwritten, State.finishWrite, ClipboardBridge.wrote, hwrites]
    refine
      { h with
        oneWay := fun hne => (hne hup).elim
        last_unwritten := fun q hq => ?_
        device := ?_
        no_device := fun _ hnone => by cases hnone
        fresh := fun hv => (hfresh hv).elim
        device_lt := ?_
        snapshots := fun r hr clip hclip => ⟨(h.snapshots r hr clip hclip).1, ?_⟩ }
    · rw [hunwritten] at hq
      exact hlast q (by rw [List.getLast?_cons, hq]; rfl)
    · rintro hnil clip ⟨⟩
      rw [hunwritten] at hnil
      exact .inr (hlast p (by rw [hnil]; rfl))
    · rintro clip t ⟨⟩ ⟨⟩
    · rintro held t ⟨⟩ ⟨⟩
  | false =>
    have hunwritten : (s.finishWrite 0 p false).unwritten = p :: rest := by
      simp [unwritten, State.finishWrite, ClipboardBridge.wrote, hwrites]
    exact
      { h with
        oneWay := fun hne => (hne hup).elim
        last_unwritten := fun q hq => hlast q (hunwritten ▸ hq)
        device := fun hnil => by simp [hunwritten] at hnil
        no_device := fun hnil => by simp [hunwritten] at hnil
        fresh := fun hv => (hfresh hv).elim }

/-- A message of the page joins the others on their way. -/
theorem send_eq (hoff : s.phase ≠ .open → s.toServer = []) (hon : s.phase = .open → s.sendQueue = [])
    (hphase : s.phase ≠ .closed) (p : ClipboardData) :
    ∃ toServer sendQueue,
      s.send p = { s with toServer := toServer, sendQueue := sendQueue } ∧
      s.toRemote ++ s.inbox ++ toServer ++ sendQueue = s.upstream ++ [p] ∧
      (s.phase ≠ .open → toServer = []) ∧ (s.phase = .open → sendQueue = []) := by
  cases hp : s.phase with
  | closed => exact (hphase hp).elim
  | «open» =>
    have hqueue := hon hp
    refine ⟨s.toServer ++ [p], s.sendQueue, ?_, ?_, fun hne => (hne rfl).elim, fun _ => hqueue⟩
    · simp [State.send, hp]
    · simp [upstream, hqueue]
  | idle =>
    have hserver := hoff (by simp [hp])
    refine ⟨s.toServer, s.sendQueue ++ [p], ?_, ?_, fun _ => hserver, fun ho => by cases ho⟩
    · simp [State.send, hp]
    · simp [upstream]
  | connecting =>
    have hserver := hoff (by simp [hp])
    refine ⟨s.toServer, s.sendQueue ++ [p], ?_, ?_, fun _ => hserver, fun ho => by cases ho⟩
    · simp [State.send, hp]
    · simp [upstream]

/-- A finished read changes nothing but what counts as read, unless what
it gave is new. -/
theorem read (h : Inv s) (hclip : s.Consistent clip) (hcurrent : s.Current clip.data) :
    Inv { s with readCopies := s.readCopies ++ clip.copy.toList } := by
  refine
    { h with
      device := fun hnil held hheld => ?_
      read_lt := fun t ht => ?_ }
  · rcases h.device hnil held hheld with ⟨t, ht, hunread⟩ | hcur
    · by_cases hcopy : clip.copy = some t
      · obtain rfl := hclip.2 held t hheld ht hcopy
        exact .inr hcurrent
      · refine .inl ⟨t, ht, fun hmem => ?_⟩
        rcases List.mem_append.1 hmem with hmem | hmem
        · exact hunread hmem
        · exact hcopy (Option.mem_toList.1 hmem)
    · exact .inr hcur
  · rcases List.mem_append.1 ht with ht | ht
    · exact h.read_lt t ht
    · exact hclip.1 t (Option.mem_toList.1 ht)

/-- What the page forwards is a copy still to be read: what it wrote
itself, or has read, has the key it keeps. -/
theorem unread_of_new (h : Inv s) (hidle : s.DownstreamIdle) (htimely : s.Timely clip)
    (hkey : s.page.lastKey ≠ some (keyOf clip.data)) : s.Unread clip := by
  rcases htimely.1 with hheld | ⟨hunread, -⟩
  · exact (h.device hidle.2.2 clip hheld).resolve_right fun hcur => hkey hcur.1
  · exact hunread

/-- The page forwards a copy, nothing being on its way to the device. -/
theorem forwards (h : Inv s) (hclip : s.Consistent clip) (hphase : s.phase ≠ .closed)
    (hidle : s.DownstreamIdle) (hfits : Fits clip.data) (htimely : s.Timely clip)
    (hkey : s.page.lastKey ≠ some (keyOf clip.data)) :
    Inv (({ s with
      page := { s.page with lastKey := some (keyOf clip.data) }
      readCopies := s.readCopies ++ clip.copy.toList
      seen := some clip.data
      sends := s.sends ++ [⟨clip.copy, clip.data⟩] } : State).send clip.data) := by
  -- a key other than the last is of a copy of the user: the page keeps the key of its writes
  obtain ⟨t, ht, hunread⟩ := h.unread_of_new hidle htimely hkey
  have hnewer := htimely.2 ⟨t, ht, hunread⟩ t ht
  obtain ⟨toServer, sendQueue, heq, hup, hoff, hon⟩ :=
    send_eq (s := { s with
      page := { s.page with lastKey := some (keyOf clip.data) }
      readCopies := s.readCopies ++ clip.copy.toList
      seen := some clip.data
      sends := s.sends ++ [⟨clip.copy, clip.data⟩] })
      (fun ho => (h.offline ho).1) h.online hphase clip.data
  rw [heq]
  -- nothing is on its way down, so the page and the device change with nothing between them
  refine
    { h with
      fits := fun p hp => ?_
      up := ?_
      down := fun _ => ?_
      oneWay := fun _ => hidle
      key := rfl
      last_unwritten := fun p hp => ?_
      device := fun _ held hheld => ?_
      no_device := fun _ hnone => ?_
      fresh := fun hv => ?_
      offline := fun ho => ⟨hoff ho, (h.offline ho).2⟩
      online := hon
      copies := fun e he => ?_
      ordered := ?_
      read_lt := fun t ht => ?_ }
  · rcases List.mem_append.1 (hup ▸ hp : p ∈ s.upstream ++ [clip.data]) with hp | hp
    · exact h.fits p hp
    · obtain rfl := List.mem_singleton.1 hp
      exact hfits
  · show final s.world.bridge.lastValue
      ((s.toRemote ++ s.inbox ++ toServer ++ sendQueue).map bytesOf) = _
    rw [hup]
    simp [latestBytes]
  · obtain ⟨hb, hu, -⟩ := hidle
    show final (some (bytesOf clip.data)) ((s.toBrowser ++ s.unpushed).map bytesOf) = _
    rw [hb, hu]
    simp [latestBytes]
  · have hnil : s.unwritten.getLast? = none := by rw [hidle.2.2]; rfl
    cases hnil.symm.trans hp
  · -- the device holds what was forwarded, or a later copy that is still to be read
    rcases htimely.1 with hsame | ⟨-, later, hlater, ⟨t', ht', hunread'⟩, hne⟩
    · obtain rfl : clip = held := Option.some.inj (hsame.symm.trans hheld)
      exact .inr ⟨rfl, rfl⟩
    · obtain rfl : later = held := Option.some.inj (hlater.symm.trans hheld)
      refine .inl ⟨t', ht', fun hmem => ?_⟩
      rcases List.mem_append.1 hmem with hmem | hmem
      · exact hunread' hmem
      · exact hne (ht'.trans (Option.mem_toList.1 hmem).symm)
  · rcases htimely.1 with hsame | ⟨-, later, hlater, -⟩
    · cases hsame.symm.trans hnone
    · cases hlater.symm.trans hnone
  · obtain ⟨hvalue, hb, hw, -⟩ := h.fresh hv
    exact ⟨hvalue, hb, hw, by simp [latestBytes]⟩
  · rcases List.mem_append.1 he with he | he
    · exact h.copies e he
    · obtain rfl := List.mem_singleton.1 he
      exact ⟨t, ht⟩
  · -- `Timely` makes this copy newer than all that were passed on
    refine List.pairwise_append.2 ⟨h.ordered, List.pairwise_singleton _ _, ?_⟩
    rintro a ha b hb i j hi hj
    obtain rfl := List.mem_singleton.1 hb
    obtain rfl := Option.some.inj (ht.symm.trans hj)
    exact hnewer a ha i hi
  · rcases List.mem_append.1 ht with ht | ht
    · exact h.read_lt t ht
    · exact hclip.1 t (Option.mem_toList.1 ht)

/-- **A read ends.** What it gave is forwarded only if the user copied
it: what the page wrote itself has the key it keeps. -/
theorem forward (h : Inv s) (hclip : s.Consistent clip) (hadm : s.ForwardAdmits clip) :
    Inv (s.forward clip) := by
  have hforward := forward_eq s.page clip.data
  by_cases htaken : Taken clip.data
  · obtain ⟨hsame, hnew⟩ := hadm htaken
    by_cases hkey : s.page.lastKey = some (keyOf clip.data)
    · rw [if_neg fun hc => hc.2 hkey] at hforward
      have heq : s.forward clip = { s with readCopies := s.readCopies ++ clip.copy.toList } := by
        simp [State.forward, hforward, htaken]
      rw [heq]
      exact h.read hclip (hsame hkey)
    · rw [if_pos ⟨htaken, hkey⟩] at hforward
      obtain ⟨hphase, hidle, hfits, htimely⟩ := hnew hkey
      simp only [State.forward, hforward, if_pos htaken]
      exact h.forwards hclip hphase hidle hfits htimely hkey
  · rw [if_neg fun hc => htaken hc.1] at hforward
    have heq : s.forward clip = s := by simp [State.forward, hforward, htaken]
    rw [heq]
    exact h

/-- Reads are started, answered and dropped. -/
theorem of_reads (h : Inv s) {reads : List Read} (armed : Bool)
    (hreads : ∀ r ∈ reads, ∀ clip, r.snapshot = some clip → s.Consistent clip) :
    Inv { s with page := { s.page with armed := armed }, reads := reads } :=
  { h with
    last_unwritten := h.last_unwritten
    device := h.device
    snapshots := hreads }

/-- A read is started, with what it gave if that is there at once. -/
theorem start_read (h : Inv s) (armed flush : Bool) (snapshot : Option DeviceClip)
    (hclip : ∀ clip, snapshot = some clip → s.Consistent clip) :
    Inv { s with
      page := { s.page with armed := armed }
      reads := s.reads ++ [⟨snapshot, flush⟩] } := by
  refine h.of_reads armed fun r hr clip hr' => ?_
  rcases List.mem_append.1 hr with hr | hr
  · exact h.snapshots r hr clip hr'
  · obtain rfl := List.mem_singleton.1 hr
    exact hclip clip hr'

theorem drop_read (h : Inv s) (i : ℕ) : Inv { s with reads := s.reads.eraseIdx i } :=
  h.of_reads s.page.armed fun r hr => h.snapshots r (List.mem_of_mem_eraseIdx hr)

/-- Forwarding does not touch the writes. -/
theorem forward_writes (s : State) (clip : DeviceClip) :
    (s.forward clip).page.pendingWrite = s.page.pendingWrite ∧
    (s.forward clip).writes = s.writes := by
  simp only [State.forward, forward_eq]
  by_cases hnew : Taken clip.data ∧ s.page.lastKey ≠ some (keyOf clip.data)
  · simp only [if_pos hnew, State.send]
    split <;> exact ⟨rfl, rfl⟩
  · simp only [if_neg hnew, and_self]

theorem thenFlush (h : Inv s) {flush : Bool} (hadm : flush = true → s.FlushAdmits) :
    Inv (s.thenFlush flush) := by
  cases flush with
  | false => exact h
  | true => exact h.flush (hadm rfl)

theorem paste (h : Inv s) (hclip : s.device = some clip)
    (hadm : ∀ text, clip.data = .text text → s.ForwardAdmits clip) : Inv (s.paste clip) := by
  have hcons := h.consistent_device hclip
  rw [State.paste, if_neg (by simp [h.enabled])]
  cases hdata : clip.data with
  | text text => exact h.forward hcons (hadm text hdata)
  | image mime bytes =>
    simp only
    split_ifs
    · refine h.start_read s.page.armed false (some clip) ?_
      rintro clip' ⟨⟩
      exact hcons
    · exact h

theorem gesture (h : Inv s) {fromTouch : Bool}
    (hadm : (s.page.onUserGesture fromTouch).2 = false → s.FlushAdmits) :
    Inv (s.gesture fromTouch) := by
  rw [State.gesture, if_neg (by simp [h.enabled])]
  by_cases harmed : (fromTouch && s.page.armed) = true
  · simp only [ClipboardBridge.onUserGesture, if_pos harmed]
    exact h.start_read false true none nofun
  · have hflush := h.flush (hadm (by simp only [ClipboardBridge.onUserGesture, if_neg harmed]))
    simpa [ClipboardBridge.onUserGesture, harmed] using hflush

theorem focus (h : Inv s) (granted : Bool) : Inv (s.focus granted) := by
  simp only [State.focus]
  split_ifs
  · exact h.start_read true false none nofun
  · exact h.of_reads true h.snapshots

/-! ## Every step -/

/-- **An admitted step keeps the invariant.** -/
theorem step (h : Inv s) (hadm : s.Admits a) (hstep : s.step a = some s') : Inv s' := by
  cases a with
  | copyDevice data =>
    obtain rfl := Option.some.inj hstep
    exact h.copyDevice data
  | copyRemote formats =>
    obtain rfl := Option.some.inj hstep
    exact h.copyRemote formats
  | pasteRemote =>
    obtain ⟨w, hw, rfl⟩ := Option.map_eq_some_iff.1 hstep
    exact h.pasteRemote hw
  | process =>
    obtain ⟨w, hw, rfl⟩ := Option.map_eq_some_iff.1 hstep
    exact h.process hw
  | dispatch delivered =>
    simp only [State.step] at hstep
    split at hstep
    · cases hstep
    · rename_i e events he
      obtain rfl := Option.some.inj hstep
      exact h.dispatch he (hadm e events he)
  | deliver =>
    simp only [State.step] at hstep
    split at hstep
    · cases hstep
    · rename_i p rest hp
      obtain rfl := Option.some.inj hstep
      exact h.deliver hp
  | relay =>
    simp only [State.step] at hstep
    split at hstep
    · cases hstep
    · rename_i p rest hp
      obtain rfl := Option.some.inj hstep
      exact h.relay hp
  | paste =>
    obtain ⟨clip, hclip, rfl⟩ := Option.map_eq_some_iff.1 hstep
    exact h.paste hclip fun text => hadm clip text hclip
  | focus granted =>
    obtain rfl := Option.some.inj hstep
    exact h.focus granted
  | gesture fromTouch =>
    obtain rfl := Option.some.inj hstep
    exact h.gesture hadm
  -- what a read will see is fixed here; until it ends the device may change
  | snapshot i =>
    simp only [State.step] at hstep
    split at hstep
    · rename_i flush clip hr hclip
      obtain rfl := Option.some.inj hstep
      refine h.of_reads s.page.armed fun r hr clip' hr' => ?_
      rcases List.mem_or_eq_of_mem_set hr with hr | rfl
      · exact h.snapshots r hr clip' hr'
      · obtain rfl := Option.some.inj hr'
        exact h.consistent_device hclip
    · cases hstep
  | readFails i =>
    simp only [State.step] at hstep
    split at hstep
    · rename_i flush hr
      obtain rfl := Option.some.inj hstep
      exact (h.drop_read i).thenFlush fun hflush => hadm _ hr hflush
    · cases hstep
  | finishRead i =>
    simp only [State.step] at hstep
    split at hstep
    · rename_i clip flush hr
      obtain rfl := Option.some.inj hstep
      -- `.then(flush)`: the deferred write is tried only after what was read is forwarded
      obtain ⟨hforward, hflush⟩ := hadm _ clip hr rfl
      have hcons := h.snapshots _ (List.mem_of_getElem? hr) clip rfl
      refine ((h.drop_read i).forward hcons hforward).thenFlush fun hf => ?_
      obtain ⟨hpending, hwrites⟩ := forward_writes { s with reads := s.reads.eraseIdx i } clip
      rw [FlushAdmits, hpending, hwrites]
      exact hflush hf
    · cases hstep
  | finishWrite i ok =>
    obtain ⟨p, hp, rfl⟩ := Option.map_eq_some_iff.1 hstep
    obtain rfl : i = 0 := hadm
    exact h.finishWrite hp
  | connect =>
    simp only [State.step] at hstep
    split_ifs at hstep with hphase
    obtain rfl := Option.some.inj hstep
    exact h.connect fun ho => by simp [ho] at hphase
  | opened =>
    simp only [State.step] at hstep
    split_ifs at hstep with hphase
    obtain rfl := Option.some.inj hstep
    exact h.opened hphase hadm
  | closed =>
    simp only [State.step] at hstep
    split_ifs at hstep
    obtain rfl := Option.some.inj hstep
    exact h.closed hadm.1 hadm.2
  | receive =>
    simp only [State.step] at hstep
    split at hstep
    · cases hstep
    · rename_i p rest hp
      obtain rfl := Option.some.inj hstep
      exact h.receive hp hadm
  | push =>
    simp only [State.step] at hstep
    split_ifs at hstep with hc
    obtain rfl := Option.some.inj hstep
    exact h.push hc.1 hc.2
  | onMessage =>
    simp only [State.step] at hstep
    split at hstep
    · cases hstep
    · rename_i p rest hp
      obtain rfl := Option.some.inj hstep
      exact h.onMessage hp (hadm p rest hp)

/-! ## What the invariant says once everything is done -/

/-- The most recent copy is the one passed on last. -/
theorem latest_of_mostRecent (h : Inv s) {e : Sent} (he : s.MostRecent e) :
    s.latestBytes = some (bytesOf e.data) := by
  obtain ⟨hmem, t, ht, hmax⟩ := he
  obtain ⟨before, last, hsends⟩ := (List.eq_nil_or_concat' s.sends).resolve_left
    (List.ne_nil_of_mem hmem)
  have hordered := h.ordered
  rw [hsends] at hmem hordered
  have hlast : last ∈ s.sends := by simp [hsends]
  obtain ⟨t', ht'⟩ := h.copies last hlast
  rcases List.mem_append.1 hmem with hbefore | hlast'
  · have hlt := (List.pairwise_append.1 hordered).2.2 e hbefore last List.mem_cons_self t t' ht ht'
    have hle := hmax last hlast t' ht'
    omega
  · obtain rfl := List.mem_singleton.1 hlast'
    simp [latestBytes, hsends]

theorem converged (h : Inv s) : s.Converged := by
  rintro ⟨hopen, hup, ⟨hb, hu, hw⟩, -, hq, hread⟩ e he
  have hlatest := h.latest_of_mostRecent he
  have hseen := h.down hopen
  rw [hb, hu, List.append_nil, List.map_nil, final_nil, hlatest] at hseen
  have hlast := h.up
  rw [hup, List.map_nil, final_nil, hlatest] at hlast
  -- both ends of the line hold the payload passed on last
  refine ⟨?_, (h.holds.clipboard_eq h.world hq).trans hlast⟩
  cases hdevice : s.device with
  | none => rw [h.no_device hw hdevice] at hseen; cases hseen
  | some clip =>
    rcases h.device hw clip hdevice with hunread | hcurrent
    · exact (hread clip hdevice hunread).elim
    · rw [← hseen, hcurrent.2]
      rfl

theorem noEcho (h : Inv s) : s.NoEcho := by
  refine ⟨h.copies, List.pairwise_map.2 ?_⟩
  refine h.ordered.imp_of_mem fun {a b} ha hb hlt heq => ?_
  obtain ⟨i, hi⟩ := h.copies a ha
  exact absurd (hlt i i hi (heq ▸ hi)) (lt_irrefl i)

end Inv

/-! ## The two clipboards -/

theorem inv_of_reach (h : machine.Reach Admits s) : Inv s := by
  refine h.invariant ?_ fun s a s' hadm hstep hs => hs.step hadm hstep
  rintro s rfl
  exact Inv.start

/-- **The clipboards converge**, and nothing is sent back, in every run
whose steps are admitted. -/
theorem clipboards_converge (h : machine.Reach Admits s) : s.Converged ∧ s.NoEcho :=
  ⟨(inv_of_reach h).converged, (inv_of_reach h).noEcho⟩

/-- While the bridge owns the selection no dispatch reads. -/
theorem readAdmits_of_owning (h : s.world.bridge.owning = true) : s.ReadAdmits delivered e := by
  have hreading : s.world.reading e = none := by
    cases e with
    | selection sel =>
      cases sel with
      | none => rfl
      | some off => rw [reading_selection, if_pos h]
    | _ => rfl
  exact ⟨fun off c hoff => by simp [hreading] at hoff, fun off c value hoff => by
    simp [hreading] at hoff⟩

/-- A text copied and pasted into the page reaches the nest. -/
theorem clipboards_converge_paste : ∃ s : State, s.Settled ∧
    (s.device.map fun clip => bytesOf clip.data) = some (bytesOf (.text "a")) ∧
    s.world.clipboard = some (bytesOf (.text "a")) ∧ s.NoEcho := by
  have hrun : ∃ s : State, machine.Run Admits {}
      [.copyDevice (.text "a"), .connect, .opened, .paste, .receive, .relay, .deliver, .process,
        .dispatch none, .dispatch none, .dispatch none, .dispatch none, .dispatch none,
        .dispatch none, .dispatch none, .dispatch none] s ∧ s.Settled ∧
      s.sends = [⟨some 0, .text "a"⟩] := by
    refine ⟨_, ⟨trivial, _, rfl, trivial, _, rfl, .inl rfl, _, rfl, ?_, _, rfl,
      Nat.zero_lt_succ _, _, rfl, trivial, _, rfl, trivial, _, rfl, trivial, _, rfl,
      fun _ _ _ => readAdmits_of_owning rfl, _, rfl, fun _ _ _ => readAdmits_of_owning rfl, _, rfl,
      fun _ _ _ => readAdmits_of_owning rfl, _, rfl, fun _ _ _ => readAdmits_of_owning rfl, _, rfl,
      fun _ _ _ => readAdmits_of_owning rfl, _, rfl, fun _ _ _ => readAdmits_of_owning rfl, _, rfl,
      fun _ _ _ => readAdmits_of_owning rfl, _, rfl, fun _ _ _ => readAdmits_of_owning rfl, _, rfl,
      rfl⟩, ⟨rfl, rfl, ⟨rfl, rfl, rfl⟩, rfl, ⟨rfl, rfl⟩, ?_⟩, rfl⟩
    · rintro _ _ ⟨⟩ ⟨⟩ -
      exact ⟨nofun, fun _ => ⟨nofun, ⟨rfl, rfl, rfl⟩, ⟨by decide, trivial⟩, .inl rfl, nofun⟩⟩
    · rintro _ ⟨⟩ ⟨t, ⟨⟩, hmem⟩
      exact hmem List.mem_cons_self
  obtain ⟨s, hrun, hs, hsends⟩ := hrun
  obtain ⟨hconv, hecho⟩ := clipboards_converge (Machine.Reach.run _ (.start rfl) hrun)
  obtain ⟨hdevice, hclipboard⟩ := hconv hs ⟨some 0, .text "a"⟩
    ⟨by simp [hsends], 0, rfl, fun e he t ht => by simp_all⟩
  exact ⟨s, hs, hdevice, hclipboard, hecho⟩

/-- A copy in the nest reaches the device; a later copy of the device
reaches the nest; then the connection is lost and opened again. -/
def replay : List Step :=
  [.copyRemote [("text/plain", [104])], .dispatch none, .dispatch none, .dispatch none,
    .dispatch (some [104]), .connect, .opened, .onMessage, .finishWrite 0 true, .push, .onMessage,
    .copyDevice (.text "a"), .paste, .receive, .relay, .deliver, .process, .dispatch none,
    .dispatch none, .dispatch none, .dispatch none, .dispatch none, .dispatch none,
    .dispatch none, .closed, .connect, .opened, .onMessage, .finishWrite 0 true, .push, .onMessage]

theorem replay_isSome : (machine.exec {} replay).isSome = true := by
  decide +kernel

/-- **The value replayed overwrites the newer copy.** Everything is done,
the device's copy was passed on last and is what the nest holds, and the
device holds the nest's older one. -/
theorem clipboards_parted : ¬ ∀ s, machine.Reachable s → s.Converged ∧ s.NoEcho := by
  intro h
  have hs : machine.Reachable (Option.get _ replay_isSome) :=
    Machine.reach_of_exec replay (.start rfl) (Option.some_get replay_isSome).symm
  have hdevice : (Option.get _ replay_isSome).device = some ⟨.text "h", none⟩ := by decide +kernel
  have hsends : (Option.get _ replay_isSome).sends =
      [⟨some 0, .text "h"⟩, ⟨some 1, .text "a"⟩] := by decide +kernel
  have hsettled : (Option.get _ replay_isSome).Settled := by
    refine ⟨by decide +kernel, by decide +kernel, ⟨by decide +kernel, by decide +kernel,
      by decide +kernel⟩, by decide +kernel, by decide +kernel, ?_⟩
    rintro clip hclip ⟨t, ht, -⟩
    obtain rfl := Option.some.inj (hdevice.symm.trans hclip)
    cases ht
  have hrecent : (Option.get _ replay_isSome).MostRecent ⟨some 1, .text "a"⟩ := by
    rw [MostRecent, hsends]
    refine ⟨by simp, 1, rfl, fun e he t ht => ?_⟩
    simp only [List.mem_cons, List.not_mem_nil, or_false] at he
    rcases he with rfl | rfl <;> · cases ht; decide
  have heq := ((h _ hs).1 hsettled _ hrecent).1
  rw [hdevice] at heq
  revert heq
  decide

end State

end Clipboard

end WaylandWebStream
