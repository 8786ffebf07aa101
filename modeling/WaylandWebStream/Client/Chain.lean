import WaylandWebStream.Client.Resync

/-!
# The reference chain, end to end

The encoder numbers its packets; a handler passes them on in order, but
skips some where it lags; the page sees them in the order they were sent,
one connection after another; and the stream feeds a delta only right
after the frame received before it. Together: a delta fed carries the
next frame id, but where a lag, a failed submit or a reconnection lies
between it and the frame before.
-/

namespace WaylandWebStream

namespace Client

open Encoder (EncodedPacket EncoderControl drainPackets)

variable {pipeline : VideoPipeline} {s s' : State} {a : Action} {i : ℕ} {c : Conn}

/-! ## Numbering -/

theorem length_drainPackets (id : UInt32) (l : List (Bytes × Bool)) :
    (drainPackets id l).length = l.length := by
  induction l generalizing id with
  | nil => rfl
  | cons x rest ih => exact congrArg (· + 1) (ih (id + 1))

/-- Packets drained at once are numbered one after the other. -/
theorem getElem?_drainPackets {id : UInt32} {l : List (Bytes × Bool)} {k : ℕ} {p : EncodedPacket}
    (h : (drainPackets id l)[k]? = some p) : p.frameId = id + UInt32.ofNat k := by
  induction l generalizing id k with
  | nil => cases h
  | cons x rest ih =>
    cases k with
    | zero =>
      cases h
      simp
    | succ k =>
      rw [ih (k := k) h, UInt32.ofNat_add, UInt32.add_assoc, UInt32.add_comm 1]
      rfl

/-- Every packet returned so far, in order. -/
def State.encoded (s : State) : List EncodedPacket := s.videoTx.sent ++ s.packets

/-- **The packets' numbering.** A packet carries the id after that of the
packet before, unless packets were lost between them; and so will the
next one. -/
structure Numbered (s : State) : Prop where
  next : ∀ n p q, s.encoded[n]? = some p → s.encoded[n + 1]? = some q →
    q.frameId = p.frameId + 1 ∨ n + 1 ∈ s.lost
  last : ∀ n p, s.encoded[n]? = some p → n + 1 = s.encoded.length →
    s.nextFrameId = p.frameId + 1 ∨ n + 1 ∈ s.lost

namespace Numbered

/-- Only the packets, the next id and the losses matter. -/
theorem congr (h : Numbered s) (hencoded : s'.encoded = s.encoded)
    (hid : s'.nextFrameId = s.nextFrameId) (hlost : s'.lost = s.lost) : Numbered s' := by
  refine ⟨fun n p q => ?_, fun n p => ?_⟩
  · rw [hencoded, hlost]
    exact h.next n p q
  · rw [hencoded, hlost, hid]
    exact h.last n p

theorem submitted {outcome : Submit} {nextFrameId : UInt32} {packets : List EncodedPacket}
    (h : Numbered s)
    (hrun : outcome.run s.nextFrameId s.forceKeyframe = (nextFrameId, some packets)) :
    Numbered { s with nextFrameId, packets := s.packets ++ packets, forceKeyframe := false } := by
  rcases outcome with ⟨first, more⟩ | drained
  swap
  · cases hrun
  simp only [Submit.run, Prod.mk.injEq, Option.some.injEq] at hrun
  obtain ⟨rfl, rfl⟩ := hrun
  generalize hl : (first.1, s.forceKeyframe || first.2) :: more = l
  have hlen := length_drainPackets s.nextFrameId l
  have hpos : 0 < l.length := by rw [← hl]; exact Nat.succ_pos _
  have hencoded : State.encoded { s with
      nextFrameId := s.nextFrameId + UInt32.ofNat (drainPackets s.nextFrameId l).length
      packets := s.packets ++ drainPackets s.nextFrameId l
      forceKeyframe := false } = s.encoded ++ drainPackets s.nextFrameId l :=
    (List.append_assoc _ _ _).symm
  refine ⟨fun n p q hp hq => ?_, fun n p hp hn => ?_⟩
  · rw [hencoded] at hp hq
    by_cases hnew : s.encoded.length ≤ n
    · -- Both are new.
      rw [List.getElem?_append_right hnew] at hp
      rw [List.getElem?_append_right (by omega)] at hq
      refine Or.inl ?_
      rw [getElem?_drainPackets hp, getElem?_drainPackets hq,
        show n + 1 - s.encoded.length = n - s.encoded.length + 1 by omega, UInt32.ofNat_add,
        UInt32.add_assoc]
      rfl
    · rw [List.getElem?_append_left (by omega)] at hp
      by_cases hlast : n + 1 = s.encoded.length
      · -- The last packet there was, and the first new one.
        rw [List.getElem?_append_right (by omega), hlast, Nat.sub_self] at hq
        refine (h.last n p hp hlast).imp_left fun hid => ?_
        rw [getElem?_drainPackets hq, ← hid]
        simp
      · rw [List.getElem?_append_left (by omega)] at hq
        exact h.next n p q hp hq
  · rw [hencoded] at hp hn
    rw [List.length_append, hlen] at hn
    rw [List.getElem?_append_right (by omega)] at hp
    refine Or.inl ?_
    rw [getElem?_drainPackets hp, hlen, show l.length = n - s.encoded.length + 1 by omega,
      UInt32.ofNat_add, UInt32.add_assoc]
    rfl

theorem failed {nextFrameId : UInt32} (h : Numbered s) :
    Numbered { s with
      nextFrameId
      lost := if nextFrameId = s.nextFrameId then s.lost
        else (s.videoTx.sent ++ s.packets).length :: s.lost
      forceKeyframe := false } := by
  by_cases hid : nextFrameId = s.nextFrameId
  · subst hid
    simp only [if_true]
    exact ⟨h.next, h.last⟩
  · simp only [hid, if_false]
    refine ⟨fun n p q hp hq => (h.next n p q hp hq).imp_right (List.mem_cons_of_mem _),
      fun n p _ hn => Or.inr ?_⟩
    rw [hn]
    exact List.mem_cons_self

theorem step (h : Numbered s) (hstep : Trans pipeline s a s') : Numbered s' := by
  cases hstep with
  | submitted hrun => exact h.submitted hrun
  | failed hrun => exact h.failed
  | forward hpackets =>
    refine h.congr ?_ rfl rfl
    simp only [State.encoded, Broadcast.send, hpackets, List.append_assoc, List.singleton_append]
  | message =>
    obtain ⟨_, _, _, heq, -⟩ := State.after_eq pipeline _ _
    rw [heq]
    exact h.congr rfl rfl rfl
  | work =>
    obtain ⟨_, _, _, heq, -⟩ := State.after_eq .worker _ _
    rw [heq]
    exact h.congr rfl rfl rfl
  | error =>
    obtain ⟨_, _, _, heq, -⟩ := State.after_eq pipeline s s.stream.recoverDecoder
    rw [heq]
    exact h.congr rfl rfl rfl
  | post =>
    obtain ⟨_, _, heq, -⟩ := State.send_eq { s with workerOut := s.workerOut - 1 }
    rw [heq]
    exact h.congr rfl rfl rfl
  | _ => exact h.congr rfl rfl rfl

end Numbered

/-! ## What the page sees -/

/-- The receiver of connection `i` lagged somewhere between places `m` and `n`. -/
def LagBetween (lagged : List (ℕ × ℕ × ℕ)) (i m n : ℕ) : Prop :=
  ∃ a b, (i, a, b) ∈ lagged ∧ m < a ∧ b ≤ n

/-- On connection `i` place `n` comes after place `m`, at once or by a lag. -/
def Reaches (lagged : List (ℕ × ℕ × ℕ)) (i m n : ℕ) : Prop :=
  m < n ∧ (n = m + 1 ∨ LagBetween lagged i m n)

theorem LagBetween.mono {lagged : List (ℕ × ℕ × ℕ)} {m n : ℕ} (h : LagBetween lagged i m n)
    (x : ℕ × ℕ × ℕ) : LagBetween (x :: lagged) i m n := by
  obtain ⟨a, b, hmem, hlt, hle⟩ := h
  exact ⟨a, b, List.mem_cons_of_mem _ hmem, hlt, hle⟩

theorem Reaches.mono {lagged : List (ℕ × ℕ × ℕ)} {m n : ℕ} (h : Reaches lagged i m n)
    (x : ℕ × ℕ × ℕ) : Reaches (x :: lagged) i m n :=
  h.imp_right (Or.imp_right fun hl => hl.mono x)

/-- Two frames the page sees one after the other. -/
def Next (lagged : List (ℕ × ℕ × ℕ)) (p q : Frame) : Prop :=
  p.connection = q.connection → Reaches lagged p.connection p.position q.position

/-- The frames of messages. -/
def frames (messages : List Message) : List Frame := messages.filterMap Message.frame?

@[simp] theorem frames_append (l l' : List Message) : frames (l ++ l') = frames l ++ frames l' :=
  List.filterMap_append

/-- What the page's stream was given and will be given, as far as it has
left the handler. -/
def State.path (s : State) : List Frame :=
  s.stream.received ++ frames s.workerIn ++ frames (s.conn s.current).downlink

/-- **The frames on the page's path** are in the order they were sent, and
its handler's receiver comes after the last of them. -/
structure Ordered (s : State) : Prop where
  chain : s.path.IsChain (Next s.lagged)
  placed : ∀ f ∈ s.path, s.videoTx.sent[f.position]? = some f.packet
  opened : ∀ f ∈ s.path, f.connection ≤ s.current ∧
    (f.connection = s.current → (s.conn s.current).handler ≠ .absent)
  last : ∀ f ∈ s.path.getLast?, f.connection = s.current →
    Reaches s.lagged s.current f.position (s.conn s.current).videoRx

namespace Ordered

/-- What the order depends on. -/
theorem congr (h : Ordered s) (hpath : s'.path = s.path) (hlagged : s'.lagged = s.lagged)
    (hsent : ∀ (n : ℕ) (p : EncodedPacket), s.videoTx.sent[n]? = some p → s'.videoTx.sent[n]? = some p)
    (hcurrent : s'.current = s.current)
    (hconn : (s.conn s.current).handler ≠ .absent → (s'.conn s.current).handler ≠ .absent ∧
      (s'.conn s.current).videoRx = (s.conn s.current).videoRx) : Ordered s' := by
  refine ⟨?_, fun f hf => ?_, fun f hf => ?_, fun f hf => ?_⟩
  · rw [hpath, hlagged]
    exact h.chain
  · rw [hpath] at hf
    exact hsent _ _ (h.placed f hf)
  · rw [hpath] at hf
    rw [hcurrent]
    exact ⟨(h.opened f hf).1, fun hi => (hconn ((h.opened f hf).2 hi)).1⟩
  · rw [hpath] at hf
    rw [hcurrent, hlagged]
    intro hi
    rw [(hconn ((h.opened f (List.mem_of_getLast? hf)).2 hi)).2]
    exact h.last f hf hi

/-- A connection is replaced: not the page's, or one that carries the same. -/
theorem setConn (h : Ordered s)
    (hc : i = s.current → frames c.downlink = frames (s.conn i).downlink ∧
      ((s.conn i).handler ≠ .absent →
        c.handler ≠ .absent ∧ c.videoRx = (s.conn i).videoRx)) : Ordered (s.setConn i c) := by
  by_cases hi : s.current = i
  · subst hi
    obtain ⟨hframes, hconn⟩ := hc rfl
    refine h.congr ?_ rfl (fun _ _ => id) rfl fun hne => ?_
    · change _ ++ frames ((s.setConn s.current c).conn s.current).downlink = _
      rw [State.setConn_self, hframes]
      rfl
    · rw [State.setConn_self]
      exact hconn hne
  · refine h.congr ?_ rfl (fun _ _ => id) rfl fun hne => ?_
    · change _ ++ frames ((s.setConn i c).conn s.current).downlink = _
      rw [State.setConn_of_ne c hi]
      rfl
    · rw [State.setConn_of_ne c hi]
      exact ⟨hne, rfl⟩

/-- The sockets to the server do not matter. -/
theorem of_conn (h : Ordered s) (hstream : s'.stream.received = s.stream.received)
    (hworkerIn : s'.workerIn = s.workerIn) (hlagged : s'.lagged = s.lagged)
    (hvideoTx : s'.videoTx = s.videoTx) (hcurrent : s'.current = s.current)
    (hconn : ∀ i, ∃ uplink, s'.conn i = { s.conn i with uplink }) : Ordered s' := by
  obtain ⟨uplink, hc⟩ := hconn s.current
  refine h.congr ?_ hlagged (fun n p hp => ?_) hcurrent fun hne => ?_
  · simp only [State.path, hstream, hworkerIn, hcurrent, hc]
  · rw [hvideoTx]
    exact hp
  · rw [hc]
    exact ⟨hne, rfl⟩

/-- **A packet is passed on**: it comes after the last one. -/
theorem received {packet : EncodedPacket} (h : Ordered s)
    (hhandler : (s.conn i).handler = .serving)
    (hrecv : s.videoTx.recv (s.conn i).videoRx = .value packet) :
    Ordered (s.setConn i { s.conn i with
      videoRx := (s.conn i).videoRx + 1
      downlink := (s.conn i).downlink ++ [.video ⟨packet, i, (s.conn i).videoRx⟩] }) := by
  -- frames of an earlier connection are on no path to the decoder
  by_cases hi : i = s.current
  swap
  · exact h.setConn fun heq => absurd heq hi
  subst hi
  set f : Frame := ⟨packet, s.current, (s.conn s.current).videoRx⟩ with hf
  set c : Conn := { s.conn s.current with
    videoRx := (s.conn s.current).videoRx + 1
    downlink := (s.conn s.current).downlink ++ [.video f] } with hc
  have hself : (s.setConn s.current c).conn s.current = c := State.setConn_self c
  have hpath : (s.setConn s.current c).path = s.path ++ [f] := by
    change _ ++ frames ((s.setConn s.current c).conn s.current).downlink = _
    rw [hself, hc, frames_append, ← List.append_assoc]
    rfl
  refine ⟨?_, fun g hg => ?_, fun g hg => ?_, fun g hg _ => ?_⟩
  · rw [hpath]
    refine h.chain.append (.singleton f) fun p hp q hq hpq => ?_
    cases hq
    rw [hpq]
    exact h.last p hp hpq
  · rw [hpath] at hg
    rcases List.mem_append.1 hg with hg | hg
    · exact h.placed g hg
    · obtain rfl := List.mem_singleton.1 hg
      exact (Broadcast.recv_value hrecv).1
  · rw [hpath] at hg
    change g.connection ≤ s.current ∧ (g.connection = s.current →
      ((s.setConn s.current c).conn s.current).handler ≠ .absent)
    rw [hself]
    refine ⟨?_, fun _ => ?_⟩
    · rcases List.mem_append.1 hg with hg | hg
      · exact (h.opened g hg).1
      · obtain rfl := List.mem_singleton.1 hg
        exact le_rfl
    · change (s.conn s.current).handler ≠ .absent
      rw [hhandler]
      exact nofun
  · rw [hpath, List.getLast?_concat] at hg
    cases hg
    change Reaches s.lagged s.current _ ((s.setConn s.current c).conn s.current).videoRx
    rw [hself]
    exact ⟨Nat.lt_succ_self _, Or.inl rfl⟩

/-- **A lag** moves the receiver on, and is on record. -/
theorem lagged {next : ℕ} (h : Ordered s) (hhandler : (s.conn i).handler = .serving)
    (hrecv : s.videoTx.recv (s.conn i).videoRx = .lagged next) :
    Ordered ({ s with lagged := (i, (s.conn i).videoRx, next) :: s.lagged }.setConn i
      { s.conn i with videoRx := next }) := by
  set t : State := { s with lagged := (i, (s.conn i).videoRx, next) :: s.lagged } with ht
  have hlt : (s.conn i).videoRx < next := (Broadcast.recv_lagged hrecv).1
  have hchain : s.path.IsChain (Next t.lagged) :=
    h.chain.imp fun p q hpq heq => (hpq heq).mono _
  by_cases hi : s.current = i
  · subst hi
    set c : Conn := { s.conn s.current with videoRx := next } with hc
    have hself : (t.setConn s.current c).conn s.current = c := State.setConn_self c
    have hpath : (t.setConn s.current c).path = s.path := by
      change _ ++ frames ((t.setConn s.current c).conn s.current).downlink = _
      rw [hself]
      rfl
    refine ⟨?_, fun g hg => ?_, fun g hg => ?_, fun g hg heq => ?_⟩
    · rw [hpath]
      exact hchain
    · rw [hpath] at hg
      exact h.placed g hg
    · rw [hpath] at hg
      refine ⟨(h.opened g hg).1, fun _ => ?_⟩
      change ((t.setConn s.current c).conn s.current).handler ≠ .absent
      rw [hself]
      change (s.conn s.current).handler ≠ .absent
      rw [hhandler]
      exact nofun
    · rw [hpath] at hg
      change Reaches t.lagged s.current _ ((t.setConn s.current c).conn s.current).videoRx
      rw [hself]
      obtain ⟨hpos, hreach⟩ := h.last g hg heq
      exact ⟨hpos.trans hlt, Or.inr ⟨_, _, List.mem_cons_self, hpos, le_rfl⟩⟩
  · have ht' : Ordered t := ⟨hchain, h.placed, h.opened, fun g hg heq => (h.last g hg heq).mono _⟩
    exact ht'.setConn fun heq => absurd heq.symm hi

end Ordered

/-- A message's frame is received. -/
theorem Message.received_apply {stream : VideoStream Frame} (h : stream.decoder ≠ none)
    (decodeQueueSize : ℕ) (decodes : Bool) (m : Message) :
    (m.apply decodeQueueSize decodes stream).1.received = stream.received ++ frames [m] := by
  cases m with
  | video frame => exact VideoStream.handleVideoFrame_received h frame decodeQueueSize decodes
  | codec name =>
    rw [Message.apply, VideoStream.setCodec_received]
    exact (List.append_nil _).symm

/-- On the main thread nothing waits for a worker. -/
theorem direct_step (h : pipeline = .main → s.workerIn = []) (hstep : Trans pipeline s a s') :
    pipeline = .main → s'.workerIn = [] := by
  intro hmain
  cases hstep with
  | handed hpipeline =>
    rw [hpipeline] at hmain
    cases hmain
  | work hworkerIn =>
    rw [h hmain] at hworkerIn
    cases hworkerIn
  | message =>
    obtain ⟨_, _, _, heq, -⟩ := State.after_eq pipeline _ _
    rw [heq]
    exact h hmain
  | error =>
    obtain ⟨_, _, _, heq, -⟩ := State.after_eq pipeline s s.stream.recoverDecoder
    rw [heq]
    exact h hmain
  | post =>
    obtain ⟨_, _, heq, -⟩ := State.send_eq { s with workerOut := s.workerOut - 1 }
    rw [heq]
    exact h hmain
  | _ => exact h hmain

namespace Ordered

/-- **A message taken from the socket** goes to the end of what was
received, or of the worker's inbox. -/
theorem popped {t : State} {m : Message} {downlink : List Message} (h : Ordered s)
    (hdownlink : (s.conn s.current).downlink = m :: downlink)
    (hpath : t.stream.received ++ frames t.workerIn =
      s.stream.received ++ frames s.workerIn ++ frames [m])
    (hlagged : t.lagged = s.lagged) (hvideoTx : t.videoTx = s.videoTx)
    (hcurrent : t.current = s.current)
    (hconn : ∃ uplink, t.conn s.current = { s.conn s.current with uplink, downlink }) :
    Ordered t := by
  obtain ⟨uplink, hc⟩ := hconn
  refine h.congr ?_ hlagged (fun n p hp => ?_) hcurrent fun hne => ?_
  · rw [State.path, State.path, hpath, hcurrent, hc, hdownlink, List.append_assoc, ← frames_append]
    rfl
  · rw [hvideoTx]
    exact hp
  · rw [hc]
    exact ⟨hne, rfl⟩

theorem step (h : Ordered s) (hsound : Sound s) (huntouched : s.Untouched)
    (hdirect : pipeline = .main → s.workerIn = []) (hstep : Trans pipeline s a s') : Ordered s' := by
  cases hstep with
  | forward hpackets =>
    exact h.congr rfl rfl (fun n p hp => Broadcast.getElem?_send hp _) rfl fun hne => ⟨hne, rfl⟩
  | accept hi hhandler => exact h.setConn fun _ => ⟨rfl, fun hne => absurd hhandler hne⟩
  | sendForce hhandler =>
    have hpushed : Ordered { s with control := s.control ++ [EncoderControl.forceKeyframe] } :=
      ⟨h.chain, h.placed, h.opened, h.last⟩
    exact hpushed.setConn fun _ => ⟨rfl, fun _ => ⟨nofun, rfl⟩⟩
  | received hhandler hrecv => exact h.received hhandler hrecv
  | lagged hhandler hrecv => exact h.lagged hhandler hrecv
  | sendCodec hhandler =>
    refine h.setConn fun _ => ⟨?_, fun hne => ⟨hne, rfl⟩⟩
    rw [frames_append]
    exact List.append_nil _
  | honoured hhandler =>
    have hforced : Ordered { s with lastKeyframeForce := s.now } :=
      ⟨h.chain, h.placed, h.opened, h.last⟩
    exact hforced.setConn fun _ => ⟨rfl, fun _ => ⟨nofun, rfl⟩⟩
  | suppressed hhandler => exact h.setConn fun _ => ⟨rfl, fun hne => ⟨hne, rfl⟩⟩
  | endHandler hi => exact h.setConn fun _ => ⟨rfl, fun _ => ⟨nofun, rfl⟩⟩
  | connect hphase =>
    -- The new connection has carried nothing yet; the old one's rest is never seen.
    have hnew : s.conn (s.current + 1) = {} := huntouched _ (Nat.lt_succ_self _)
    have hpath : State.path { s with phase := .connecting, current := s.current + 1 } =
        s.stream.received ++ frames s.workerIn := by
      change _ ++ frames (s.conn (s.current + 1)).downlink = _
      rw [hnew]
      exact List.append_nil _
    have hsub : ∀ f ∈ s.stream.received ++ frames s.workerIn, f ∈ s.path :=
      fun f hf => List.mem_append_left _ hf
    have hne : ∀ f ∈ s.stream.received ++ frames s.workerIn, f.connection ≠ s.current + 1 :=
      fun f hf heq => absurd (h.opened f (hsub f hf)).1 (by omega)
    refine ⟨?_, fun f hf => ?_, fun f hf => ?_, fun f hf heq => ?_⟩
    · rw [hpath]
      exact h.chain.left_of_append
    · rw [hpath] at hf
      exact h.placed f (hsub f hf)
    · rw [hpath] at hf
      exact ⟨Nat.le_succ_of_le (h.opened f (hsub f hf)).1, fun heq => absurd heq (hne f hf)⟩
    · rw [hpath] at hf
      exact absurd heq (hne f (List.mem_of_getLast? hf))
  | opens hphase =>
    have hopened : Ordered { s with phase := .opened, sendQueue := 0 } :=
      ⟨h.chain, h.placed, h.opened, h.last⟩
    exact hopened.setConn fun _ => ⟨rfl, fun hne => ⟨hne, rfl⟩⟩
  | @message decodeQueueSize decodes m downlink hpipeline hphase hdownlink =>
    set popped := s.setConn s.current { s.conn s.current with downlink }
    obtain ⟨_, _, conn, heq, hconn⟩ :=
      State.after_eq pipeline popped (m.apply decodeQueueSize decodes s.stream)
    obtain ⟨uplink, hc⟩ := hconn s.current
    rw [State.setConn_self] at hc
    rw [heq]
    refine h.popped hdownlink ?_ rfl rfl rfl ⟨uplink, hc⟩
    change (m.apply decodeQueueSize decodes s.stream).1.received ++ frames s.workerIn = _
    rw [Message.received_apply hsound.decoder, hdirect hpipeline]
    simp [frames]
  | @handed decodeQueueSize decodes m downlink hpipeline hphase hdownlink =>
    refine h.popped hdownlink ?_ rfl rfl rfl ⟨(s.conn s.current).uplink, State.setConn_self _⟩
    change s.stream.received ++ frames (s.workerIn ++ [m]) = _
    rw [frames_append, List.append_assoc]
  | @work decodeQueueSize decodes m workerIn hworkerIn =>
    obtain ⟨_, _, conn, heq, hconn⟩ :=
      State.after_eq .worker { s with workerIn } (m.apply decodeQueueSize decodes s.stream)
    obtain ⟨uplink, hc⟩ := hconn s.current
    rw [heq]
    refine h.congr ?_ rfl (fun _ _ => id) rfl fun hne => ?_
    · change (m.apply decodeQueueSize decodes s.stream).1.received ++ frames workerIn ++
        frames (conn s.current).downlink = _
      rw [Message.received_apply hsound.decoder, hc, State.path, hworkerIn, List.append_assoc _ _
        (frames workerIn), ← frames_append]
      rfl
    · change (conn s.current).handler ≠ .absent ∧ (conn s.current).videoRx = _
      rw [hc]
      exact ⟨hne, rfl⟩
  | post =>
    obtain ⟨_, _, heq, hconn⟩ := State.send_eq { s with workerOut := s.workerOut - 1 }
    rw [heq]
    exact h.of_conn rfl rfl rfl rfl rfl hconn
  | error =>
    obtain ⟨_, _, _, heq, hconn⟩ := State.after_eq pipeline s s.stream.recoverDecoder
    rw [heq]
    exact h.of_conn (VideoStream.recoverDecoder_received _) rfl rfl rfl rfl hconn
  | _ => exact ⟨h.chain, h.placed, h.opened, h.last⟩

end Ordered

/-! ## What is fed -/

theorem linked_step (h : s.stream.Linked Frame.isKeyframe) (hstep : Trans pipeline s a s') :
    s'.stream.Linked Frame.isKeyframe := by
  rcases hstep.stream with heq | ⟨m, decodeQueueSize, decodes, heq⟩ | heq
  · rw [heq]
    exact h
  · rw [heq]
    cases m with
    | video frame => exact VideoStream.linked_handleVideoFrame h frame decodeQueueSize decodes
    | codec name => exact VideoStream.linked_setCodec h name
  · rw [heq]
    exact VideoStream.linked_recoverDecoder _

/-- **What every state has**, beside `Sound`. -/
structure Chain (pipeline : VideoPipeline) (s : State) : Prop where
  sound : Sound s
  untouched : s.Untouched
  direct : pipeline = .main → s.workerIn = []
  numbered : Numbered s
  ordered : Ordered s
  linked : s.stream.Linked Frame.isKeyframe

theorem chain_start (capacity : ℕ) (codec : String) :
    Chain pipeline (start capacity decoderConfig codec) where
  sound := sound_start capacity codec
  untouched := fun _ _ => rfl
  direct := fun _ => rfl
  numbered := ⟨nofun, nofun⟩
  ordered := ⟨.nil, nofun, nofun, nofun⟩
  linked := ⟨fun d hd => by cases hd; exact VideoDecoder.linked_nil _, nofun⟩

theorem Chain.step (h : Chain pipeline s) (hstep : Trans pipeline s a s') : Chain pipeline s' where
  sound := h.sound.step hstep
  untouched := h.untouched.step hstep
  direct := direct_step h.direct hstep
  numbered := h.numbered.step hstep
  ordered := h.ordered.step h.sound h.untouched h.direct hstep
  linked := linked_step h.linked hstep

theorem reachable_chain {capacity : ℕ} (h : (machine capacity pipeline).Reachable s) :
    Chain pipeline s := by
  refine Machine.Reachable.invariant (P := Chain pipeline) (fun s hs => ?_)
    (fun s a s' hstep hs => hs.step (trans_of_step hstep)) h
  obtain ⟨codec, rfl⟩ := hs
  exact chain_start capacity codec

namespace State

variable (s : State)

/-- **The reference chain unbroken**: a keyframe first, and every delta
carries the frame id after that of the frame fed before it. -/
def Unbroken : Prop := ∀ d ∈ s.stream.decoder,
  (∀ c ∈ d.decoded.head?, c.payload.isKeyframe = true) ∧
    d.decoded.IsChain fun p c => c.payload.isKeyframe = false →
      c.payload.packet.frameId = p.payload.packet.frameId + 1

/-- A delta and the frame fed before it: the page received one right
after the other, and over one connection the frame ids are consecutive,
but for a lag of its receiver or a failed submit between the two. -/
structure Follows (p c : EncodedVideoChunk Frame) : Prop where
  before : s.stream.received[p.timestamp]? = some p.payload
  after : s.stream.received[p.timestamp + 1]? = some c.payload
  frameId : p.payload.connection = c.payload.connection →
    c.payload.packet.frameId = p.payload.packet.frameId + 1 ∨
      LagBetween s.lagged c.payload.connection p.payload.position c.payload.position ∨
      (c.payload.position = p.payload.position + 1 ∧ c.payload.position ∈ s.lost)

end State

/-- Neighbours on the page's path over one connection. -/
theorem Chain.frameId (h : Chain pipeline s) {n : ℕ} {p q : Frame}
    (hp : s.stream.received[n]? = some p) (hq : s.stream.received[n + 1]? = some q)
    (hpq : p.connection = q.connection) :
    q.packet.frameId = p.packet.frameId + 1 ∨ LagBetween s.lagged q.connection p.position q.position ∨
      (q.position = p.position + 1 ∧ q.position ∈ s.lost) := by
  obtain ⟨hn, hget⟩ := List.getElem?_eq_some_iff.1 hq
  obtain ⟨_, hget'⟩ := List.getElem?_eq_some_iff.1 hp
  have hnext : Next s.lagged p q := by
    have := h.ordered.chain.left_of_append.left_of_append.getElem n hn
    rwa [hget, hget'] at this
  have hmem : ∀ f ∈ s.stream.received, f ∈ s.path := fun f hf =>
    List.mem_append_left _ (List.mem_append_left _ hf)
  have hplaced := h.ordered.placed p (hmem p (List.mem_of_getElem? hp))
  have hplaced' := h.ordered.placed q (hmem q (List.mem_of_getElem? hq))
  rcases (hnext hpq).2 with hone | hlag
  · -- The next place: the packets' own numbering decides.
    have hencoded : ∀ {k : ℕ} {x}, s.videoTx.sent[k]? = some x → s.encoded[k]? = some x := by
      intro k x hx
      obtain ⟨hk, -⟩ := List.getElem?_eq_some_iff.1 hx
      rw [State.encoded, List.getElem?_append_left hk, hx]
    rw [hone] at hplaced'
    rcases h.numbered.next _ _ _ (hencoded hplaced) (hencoded hplaced') with hid | hlost
    · exact Or.inl hid
    · exact Or.inr (Or.inr ⟨hone, hone ▸ hlost⟩)
  · rw [hpq] at hlag
    exact Or.inr (Or.inl hlag)

/-- **The reference chain.** Whatever the run, the first frame a decoder
is fed after its configuration is a keyframe, and every delta follows the
frame fed before it. -/
theorem reference_chain {capacity : ℕ} {pipeline : VideoPipeline} {s : State}
    (h : (machine capacity pipeline).Reachable s) :
    ∀ d ∈ s.stream.decoder, (∀ c ∈ d.decoded.head?, c.payload.isKeyframe = true) ∧
      d.decoded.IsChain fun p c => c.payload.isKeyframe = false → s.Follows p c := by
  intro d hd
  have hchain := reachable_chain h
  have hlinked := hchain.linked.decoder d hd
  refine ⟨hlinked.first, hlinked.follows.imp_of_mem_imp fun p c hp hc hpc hdelta => ?_⟩
  have hbefore := hlinked.received p hp
  have hafter := hlinked.received c hc
  rw [hpc hdelta] at hafter
  exact ⟨hbefore, hafter, hchain.frameId hbefore hafter⟩

/-- A delta fed right after its keyframe carries the next frame id. -/
theorem reference_chain_delta : ∃ s, (machine 4 .main).Reachable s ∧ ∃ d ∈ s.stream.decoder,
    d.decoded.length = 2 ∧
      d.decoded.IsChain fun p c => c.payload.isKeyframe = false → s.Follows p c := by
  have hrun : ∃ s, (machine 4 .main).exec (start 4 decoderConfig decoderConfig)
      (connects ++ [somePacket, .forward, .recv 1, .message 0 true]) = some s ∧
      ∃ d ∈ s.stream.decoder, d.decoded.length = 2 :=
    ⟨_, rfl, _, rfl, rfl⟩
  obtain ⟨s, hexec, d, hd, hlen⟩ := hrun
  have hreach := Machine.reach_of_exec _ (start_reachable _ _) hexec
  exact ⟨s, hreach, d, hd, hlen, (reference_chain hreach d hd).2⟩

/-- Six packets while the handler waits for the socket, and the next one it takes. -/
def lags : List Action :=
  connects ++ [somePacket, .forward, somePacket, .forward, somePacket, .forward, somePacket,
    .forward, somePacket, .forward, somePacket, .forward, .recv 1, .recv 1, .message 0 true]

/-- **A lag breaks the chain**, whether the channel keeps the three packets
it is asked for or the four it rounds that up to. -/
theorem chain_broken_by_lag : (¬ ∀ s, (machine 3 .main).Reachable s → s.Unbroken) ∧
    ¬ ∀ s, (machine 4 .main).Reachable s → s.Unbroken := by
  have hrun : ∀ capacity, capacity = 3 ∨ capacity = 4 → ∃ s, (machine capacity .main).exec
      (start capacity decoderConfig decoderConfig) lags = some s ∧ ¬ s.Unbroken := by
    rintro capacity (rfl | rfl)
    · refine ⟨_, rfl, fun h => ?_⟩
      exact absurd (List.isChain_pair.1 (h _ rfl).2 rfl) (by decide)
    · refine ⟨_, rfl, fun h => ?_⟩
      exact absurd (List.isChain_pair.1 (h _ rfl).2 rfl) (by decide)
  refine ⟨fun h => ?_, fun h => ?_⟩
  · obtain ⟨s, hexec, hbroken⟩ := hrun 3 (Or.inl rfl)
    exact hbroken (h s (Machine.reach_of_exec _ (start_reachable _ _) hexec))
  · obtain ⟨s, hexec, hbroken⟩ := hrun 4 (Or.inr rfl)
    exact hbroken (h s (Machine.reach_of_exec _ (start_reachable _ _) hexec))

end Client

end WaylandWebStream
