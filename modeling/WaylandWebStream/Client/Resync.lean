import WaylandWebStream.Client.Steps

/-!
# Resynchronisation

A viewer that has asked for a keyframe does not ask again until one
arrives. So the request, or what has become of it, has to be somewhere:
a request on its way to the server, a `ForceKeyframe` on its way into the
encoder, or a keyframe on its way to the page. Every step hands this
token on, but for those that lose it, which are named here.
-/

namespace WaylandWebStream

namespace Client

open Encoder (EncodedPacket EncoderControl)

/-! ## Where the token is -/

/-- A handler will read a request of this connection. -/
def Conn.Requests (c : Conn) : Prop := c.handler ≠ .ended ∧ 0 < c.uplink

/-- A handler honours a request of this connection. -/
def Conn.Forces (c : Conn) : Prop := c.handler = .forcing

/-- A keyframe is on its way over this connection: in the broadcast for
its handler, or in the socket. -/
def Conn.Carries (videoTx : Broadcast EncodedPacket) (c : Conn) : Prop :=
  (c.handler.listens = true ∧ ∃ p ∈ videoTx.unread c.videoRx, p.isKeyframe = true) ∨
    ∃ f, Message.video f ∈ c.downlink ∧ f.isKeyframe = true

namespace State

variable (s : State)

/-- The page has a socket, open or opening. -/
def Live : Prop := s.phase = .connecting ∨ s.phase = .opened

/-- A `request_keyframe` is in flight to the server. -/
def RequestInFlight : Prop := 0 < s.workerOut ∨ 0 < s.sendQueue ∨ ∃ i, (s.conn i).Requests

/-- A `ForceKeyframe` is pending at the encoder. -/
def ForcePending : Prop :=
  EncoderControl.forceKeyframe ∈ s.control ∨ s.forceKeyframe = true ∨ ∃ i, (s.conn i).Forces

/-- A keyframe packet is in flight to the page. -/
def KeyframeInFlight : Prop :=
  (∃ p ∈ s.packets, p.isKeyframe = true) ∨
    (s.Live ∧ (s.conn s.current).Carries s.videoTx) ∨
    ∃ f, Message.video f ∈ s.workerIn ∧ f.isKeyframe = true

/-- **A stranded viewer** waits for a keyframe that nothing is about to
bring, and will not ask for one. -/
structure Stranded : Prop where
  unseen : s.stream.keyframeSeen = false
  pending : s.stream.keyframeRequestPending = true
  noRequest : ¬ s.RequestInFlight
  noForce : ¬ s.ForcePending
  noKeyframe : ¬ s.KeyframeInFlight

/-- The token is somewhere. -/
def Owed : Prop := s.RequestInFlight ∨ s.ForcePending ∨ s.KeyframeInFlight

/-- What the page sends now no handler reads. -/
def Unheard : Prop :=
  s.phase = .closed ∨ (s.phase = .opened ∧ (s.conn s.current).handler = .ended)

/-- A turn of the stream on the main thread sends its request to no one. -/
def SendsUnheard (pipeline : VideoPipeline) (r : VideoStream Frame × Bool) : Prop :=
  pipeline = .main ∧ s.Unheard ∧ r.2 = true

/-- **The steps that may lose the token.** A request is suppressed inside
the cooldown; a forced frame fails to encode; the page's receiver lags
past a keyframe; or the page's connection is not there: it closes, its
handler ends, a keyframe is broadcast that the handler is not subscribed
for, or a request is sent over it, or goes out as it opens, with no handler
to read it. -/
def Loses (pipeline : VideoPipeline) : Action → Prop
  | .dispatch _ => ¬ s.CooledDown
  | .submit outcome => s.forceKeyframe = true ∧ ∃ drained, outcome = .failed drained
  | .recv i => i = s.current ∧ ∃ next, s.videoTx.recv (s.conn i).videoRx = .lagged next ∧
      ∃ p ∈ (s.videoTx.unread (s.conn i).videoRx).take (next - (s.conn i).videoRx),
        p.isKeyframe = true
  | .closes => True
  | .endHandler i => i = s.current ∨ 0 < (s.conn i).uplink
  | .forward => (∃ p, s.packets.head? = some p ∧ p.isKeyframe = true) ∧
      ¬ (s.Live ∧ (s.conn s.current).handler.listens = true)
  | .opens => (s.conn s.current).handler = .ended ∧ 0 < s.sendQueue
  | .message decodeQueueSize decodes => ∃ m, (s.conn s.current).downlink.head? = some m ∧
      s.SendsUnheard pipeline (m.apply decodeQueueSize decodes s.stream)
  | .error => s.SendsUnheard pipeline s.stream.recoverDecoder
  | .post => s.Unheard
  | _ => False

end State

variable {pipeline : VideoPipeline} {s s' : State} {a : Action} {i : ℕ} {c : Conn}

namespace State

/-- **A changed connection keeps the token** if it keeps what it held. -/
theorem Owed.setConn (h : s.Owed) (hrequests : (s.conn i).Requests → c.Requests ∨ c.Forces)
    (hforces : (s.conn i).Forces → c.Forces)
    (hcarries : i = s.current → s.Live → (s.conn i).Carries s.videoTx → c.Carries s.videoTx) :
    (s.setConn i c).Owed := by
  have hself : (s.setConn i c).conn i = c := setConn_self c
  rcases h with (h | h | ⟨j, h⟩) | (h | h | ⟨j, h⟩) | (h | ⟨hlive, h⟩ | h)
  · exact Or.inl (Or.inl h)
  · exact Or.inl (Or.inr (Or.inl h))
  · by_cases hj : j = i
    · subst hj
      rcases hrequests h with h | h
      · exact Or.inl (Or.inr (Or.inr ⟨j, by rw [hself]; exact h⟩))
      · exact Or.inr (Or.inl (Or.inr (Or.inr ⟨j, by rw [hself]; exact h⟩)))
    · exact Or.inl (Or.inr (Or.inr ⟨j, by rw [setConn_of_ne c hj]; exact h⟩))
  · exact Or.inr (Or.inl (Or.inl h))
  · exact Or.inr (Or.inl (Or.inr (Or.inl h)))
  · refine Or.inr (Or.inl (Or.inr (Or.inr ⟨j, ?_⟩)))
    by_cases hj : j = i
    · subst hj
      rw [hself]
      exact hforces h
    · rw [setConn_of_ne c hj]
      exact h
  · exact Or.inr (Or.inr (Or.inl h))
  · refine Or.inr (Or.inr (Or.inr (Or.inl ⟨hlive, ?_⟩)))
    change ((s.setConn i c).conn s.current).Carries s.videoTx
    by_cases hj : s.current = i
    · subst hj
      rw [hself]
      exact hcarries rfl hlive h
    · rw [setConn_of_ne c hj]
      exact h
  · exact Or.inr (Or.inr (Or.inr (Or.inr h)))

/-! ## What the page sends -/

/-- A request sent is on its way, if there is anyone to read it. -/
theorem owed_send (h : ¬ s.Unheard) : s.send.Owed := by
  unfold send
  rcases hphase : s.phase with _ | _ | _ | _
  · exact Or.inl (Or.inr (Or.inl (Nat.succ_pos _)))
  · exact Or.inl (Or.inr (Or.inl (Nat.succ_pos _)))
  · refine Or.inl (Or.inr (Or.inr ⟨s.current, ?_⟩))
    dsimp only
    rw [setConn_self]
    exact ⟨fun hended => h (Or.inr ⟨hphase, hended⟩), Nat.succ_pos _⟩
  · exact absurd (Or.inl hphase) h

/-- **A turn of the stream** leaves a request outstanding only with the
token somewhere: the request it sent, or where the token was. -/
theorem owed_after {r : VideoStream Frame × Bool} (hheard : ¬ s.SendsUnheard pipeline r)
    (h : r.2 = true ∨ s.Owed) : (s.after pipeline r).Owed := by
  unfold after
  dsimp only
  by_cases hr : r.2 = true
  · rw [if_pos hr]
    cases pipeline with
    | main => exact owed_send fun hun => hheard ⟨rfl, hun, hr⟩
    | worker => exact Or.inl (Or.inl (Nat.succ_pos _))
  · rw [if_neg hr]
    exact h.resolve_left hr

end State

/-! ## What every state has -/

/-- No receiver is ahead of the broadcast. -/
def State.Behind (s : State) : Prop :=
  ∀ i, (s.conn i).handler.listens = true → (s.conn i).videoRx ≤ s.videoTx.sent.length

/-- A page's stream has a decoder, while a request is outstanding no
keyframe is seen, and no receiver is ahead. -/
structure Sound (s : State) : Prop where
  decoder : s.stream.decoder ≠ none
  unseen : s.stream.keyframeRequestPending = true → s.stream.keyframeSeen = false
  behind : s.Behind

theorem Message.requests_apply (stream : VideoStream Frame) (decodeQueueSize : ℕ) (decodes : Bool)
    (m : Message) : VideoStream.Requests stream (m.apply decodeQueueSize decodes stream) := by
  cases m with
  | video frame => exact VideoStream.requests_handleVideoFrame _ _ _ _
  | codec name => exact VideoStream.requests_setCodec _ _

theorem Message.decoder_apply {stream : VideoStream Frame} (h : stream.decoder ≠ none)
    (decodeQueueSize : ℕ) (decodes : Bool) (m : Message) :
    (m.apply decodeQueueSize decodes stream).1.decoder ≠ none := by
  cases m with
  | video frame => exact VideoStream.handleVideoFrame_decoder h _ _ _
  | codec name => exact VideoStream.setCodec_decoder h _

/-- What a message brings to a stream that owes: a keyframe settles it. -/
theorem Message.outstanding_apply {stream : VideoStream Frame} (h : stream.decoder ≠ none)
    (decodeQueueSize : ℕ) (decodes : Bool) {m : Message}
    (hp : (m.apply decodeQueueSize decodes stream).1.keyframeRequestPending = true) :
    (m.apply decodeQueueSize decodes stream).2 = true ∨
      (stream.keyframeRequestPending = true ∧ ∀ f, m = .video f → f.isKeyframe = false) := by
  have hout := (Message.requests_apply stream decodeQueueSize decodes m).outstanding hp
  rcases m with frame | name
  · by_cases hkey : frame.isKeyframe = true
    · exact Or.inl (VideoStream.answered_by_keyframe h hkey decodeQueueSize decodes hp)
    · refine hout.imp_right fun hs => ⟨hs, fun f hf => ?_⟩
      cases hf
      exact Bool.not_eq_true _ ▸ hkey
  · exact hout.imp_right fun hs => ⟨hs, nofun⟩

theorem sound_start (capacity : ℕ) (codec : String) : Sound (start capacity decoderConfig codec) :=
  ⟨Option.some_ne_none _, nofun, nofun⟩

namespace State.Behind

/-- For a connection replaced. -/
theorem setConn (h : s.Behind) (hc : c.handler.listens = true → c.videoRx ≤ s.videoTx.sent.length) :
    (s.setConn i c).Behind :=
  State.setConn_conn (P := fun _ c => c.handler.listens = true → c.videoRx ≤ s.videoTx.sent.length)
    h hc

/-- For a state that differs in what is in the sockets to the server. -/
theorem of_conn (h : s.Behind) (htx : s'.videoTx = s.videoTx)
    (hconn : ∀ i, ∃ uplink, s'.conn i = { s.conn i with uplink }) : s'.Behind := by
  intro i
  obtain ⟨uplink, hc⟩ := hconn i
  rw [htx, hc]
  exact h i

theorem after (h : s.Behind) (r : VideoStream Frame × Bool) : (s.after pipeline r).Behind :=
  h.of_conn (State.after_videoTx s r) (State.after_conn pipeline s r)

theorem step (h : s.Behind) (hstep : Trans pipeline s a s') : s'.Behind := by
  cases hstep with
  | forward hpackets =>
    intro i hi
    rw [Broadcast.length_sent_send]
    exact Nat.le_succ_of_le (h i hi)
  | accept hi hhandler => exact h.setConn fun _ => le_rfl
  | sendForce hhandler =>
    have hpushed : State.Behind
        { s with control := s.control ++ [EncoderControl.forceKeyframe] } := h
    refine hpushed.setConn fun _ => h _ ?_
    rcases hhandler with hh | hh <;> rw [hh] <;> rfl
  | received hhandler hrecv =>
    refine h.setConn fun _ => ?_
    obtain ⟨hlt, -⟩ := List.getElem?_eq_some_iff.1 (Broadcast.recv_value hrecv).1
    exact hlt
  | @lagged i next hhandler hrecv =>
    have hlogged : State.Behind { s with lagged := (i, (s.conn i).videoRx, next) :: s.lagged } := h
    exact hlogged.setConn fun _ => (Broadcast.recv_lagged hrecv).2
  | sendCodec hhandler =>
    refine h.setConn fun _ => h _ ?_
    rcases hhandler with hh | hh <;> rw [hh] <;> rfl
  | honoured hhandler huplink hcool =>
    have hforced : State.Behind { s with lastKeyframeForce := s.now } := h
    exact hforced.setConn fun _ => h _ (by rw [hhandler]; rfl)
  | suppressed hhandler huplink hcool => exact h.setConn fun _ => h _ (by rw [hhandler]; rfl)
  | endHandler hi hhandler =>
    refine h.setConn fun hlistens => ?_
    cases hlistens
  | opens hphase =>
    have hopen : State.Behind { s with phase := .opened, sendQueue := 0 } := h
    exact hopen.setConn (h s.current)
  | @message _ _ _ downlink hpipeline hphase hdownlink =>
    have hpopped : (s.setConn s.current { s.conn s.current with downlink }).Behind :=
      h.setConn (h s.current)
    exact hpopped.after _
  | @handed _ _ _ downlink hpipeline hphase hdownlink =>
    have hpopped : (s.setConn s.current { s.conn s.current with downlink }).Behind :=
      h.setConn (h s.current)
    exact hpopped
  | @work _ _ _ workerIn hworkerIn =>
    have hpopped : State.Behind { s with workerIn } := h
    exact hpopped.after _
  | post hworkerOut => exact of_conn h (State.send_videoTx _) (State.send_conn _)
  | error => exact h.after _
  | _ => exact h

end State.Behind

theorem Sound.step (h : Sound s) (hstep : Trans pipeline s a s') : Sound s' := by
  have hstream : s'.stream.decoder ≠ none ∧ (s'.stream.keyframeRequestPending = true →
      s'.stream.keyframeSeen = false) := by
    rcases hstep.stream with heq | ⟨m, decodeQueueSize, decodes, heq⟩ | heq
    · rw [heq]
      exact ⟨h.decoder, h.unseen⟩
    · rw [heq]
      exact ⟨m.decoder_apply h.decoder _ _, (m.requests_apply _ _ _).unseen h.unseen⟩
    · rw [heq]
      exact ⟨VideoStream.recoverDecoder_decoder _,
        (VideoStream.requests_recoverDecoder _).unseen h.unseen⟩
  exact ⟨hstream.1, hstream.2, h.behind.step hstep⟩

theorem reachable_sound {capacity : ℕ} (h : (machine capacity pipeline).Reachable s) : Sound s := by
  refine Machine.Reachable.invariant (P := Sound) (fun s hs => ?_)
    (fun s a s' hstep hs => hs.step (trans_of_step hstep)) h
  obtain ⟨codec, rfl⟩ := hs
  exact sound_start capacity codec

/-! ## The token is handed on -/

namespace State

/-- The encoder's part: a `ForceKeyframe` becomes the flag, the flag a
keyframe packet, and a packet goes to the receivers. -/
theorem owed_drain {m : EncoderControl} {control : List EncoderControl} (h : s.Owed)
    (hcontrol : s.control = m :: control) :
    Owed { s with
      control, forceKeyframe := s.forceKeyframe || decide (m = EncoderControl.forceKeyframe) } := by
  rcases h with h | (h | h | h) | h
  · exact Or.inl h
  · rw [hcontrol] at h
    rcases List.mem_cons.1 h with rfl | h
    · exact Or.inr (Or.inl (Or.inr (Or.inl (Bool.or_true _))))
    · exact Or.inr (Or.inl (Or.inl h))
  · exact Or.inr (Or.inl (Or.inr (Or.inl (by rw [h, Bool.true_or]))))
  · exact Or.inr (Or.inl (Or.inr (Or.inr h)))
  · exact Or.inr (Or.inr h)

theorem owed_submitted {outcome : Submit} {nextFrameId : UInt32} {packets : List EncodedPacket}
    (h : s.Owed)
    (hrun : outcome.run s.nextFrameId s.forceKeyframe = (nextFrameId, some packets)) :
    Owed { s with nextFrameId, packets := s.packets ++ packets, forceKeyframe := false } := by
  rcases h with h | (h | h | h) | (⟨p, hp, hkey⟩ | h)
  · exact Or.inl h
  · exact Or.inr (Or.inl (Or.inl h))
  · rcases outcome with ⟨first, more⟩ | drained
    · simp only [Submit.run, Prod.mk.injEq, Option.some.injEq] at hrun
      obtain ⟨-, rfl⟩ := hrun
      refine Or.inr (Or.inr (Or.inl ⟨_, List.mem_append_right _ List.mem_cons_self, ?_⟩))
      rw [h, Bool.true_or]
    · cases hrun
  · exact Or.inr (Or.inl (Or.inr (Or.inr h)))
  · exact Or.inr (Or.inr (Or.inl ⟨p, List.mem_append_left _ hp, hkey⟩))
  · exact Or.inr (Or.inr (Or.inr h))

theorem owed_failed {nextFrameId : UInt32} {lost : List ℕ} (h : s.Owed)
    (hforce : s.forceKeyframe ≠ true) :
    Owed { s with nextFrameId, lost, forceKeyframe := false } := by
  rcases h with h | (h | h | h) | h
  · exact Or.inl h
  · exact Or.inr (Or.inl (Or.inl h))
  · exact absurd h hforce
  · exact Or.inr (Or.inl (Or.inr (Or.inr h)))
  · exact Or.inr (Or.inr h)

/-- What a connection carries, it carries after a packet more was broadcast. -/
theorem carries_send {tx : Broadcast EncodedPacket} (h : c.Carries tx) (packet : EncodedPacket) :
    c.Carries (tx.send packet) := by
  refine h.imp_left fun ⟨hlistens, p, hp, hkey⟩ => ⟨hlistens, p, ?_, hkey⟩
  rw [Broadcast.unread, Broadcast.send, List.drop_append]
  exact List.mem_append_left _ hp

theorem owed_forward {packet : EncodedPacket} {packets : List EncodedPacket} (hsound : s.Behind)
    (h : s.Owed) (hpackets : s.packets = packet :: packets)
    (hheard : packet.isKeyframe = true → s.Live ∧ (s.conn s.current).handler.listens = true) :
    Owed { s with packets, videoTx := s.videoTx.send packet } := by
  rcases h with h | h | (⟨p, hp, hkey⟩ | ⟨hlive, h⟩ | h)
  · exact Or.inl h
  · exact Or.inr (Or.inl h)
  · rw [hpackets] at hp
    rcases List.mem_cons.1 hp with rfl | hp
    · obtain ⟨hlive, hlistens⟩ := hheard hkey
      refine Or.inr (Or.inr (Or.inr (Or.inl ⟨hlive, Or.inl ⟨hlistens, p, ?_, hkey⟩⟩)))
      rw [Broadcast.unread_send (hsound _ hlistens)]
      exact List.mem_append_right _ List.mem_cons_self
    · exact Or.inr (Or.inr (Or.inl ⟨p, hp, hkey⟩))
  · exact Or.inr (Or.inr (Or.inr (Or.inl ⟨hlive, carries_send h packet⟩)))
  · exact Or.inr (Or.inr (Or.inr (Or.inr h)))

/-- The handler's part: a packet goes from the broadcast to the socket. -/
theorem owed_received {packet : EncodedPacket} (h : s.Owed)
    (hrecv : s.videoTx.recv (s.conn i).videoRx = .value packet) :
    (s.setConn i { s.conn i with
      videoRx := (s.conn i).videoRx + 1
      downlink := (s.conn i).downlink ++ [.video ⟨packet, i, (s.conn i).videoRx⟩] }).Owed := by
  refine h.setConn Or.inl id fun _ _ hcarries => ?_
  obtain ⟨-, hunread⟩ := Broadcast.recv_value hrecv
  rcases hcarries with ⟨hlistens, p, hp, hkey⟩ | ⟨f, hf, hkey⟩
  · rw [hunread] at hp
    rcases List.mem_cons.1 hp with rfl | hp
    · exact Or.inr ⟨⟨p, i, (s.conn i).videoRx⟩, List.mem_append_right _ List.mem_cons_self, hkey⟩
    · exact Or.inl ⟨hlistens, p, hp, hkey⟩
  · exact Or.inr ⟨f, List.mem_append_left _ hf, hkey⟩

theorem owed_lagged {next : ℕ} (h : s.Owed)
    (hrecv : s.videoTx.recv (s.conn i).videoRx = .lagged next)
    (hloses : ¬ s.Loses pipeline (.recv i)) :
    Owed ({ s with lagged := (i, (s.conn i).videoRx, next) :: s.lagged }.setConn i
      { s.conn i with videoRx := next }) := by
  have hlogged : Owed { s with lagged := (i, (s.conn i).videoRx, next) :: s.lagged } := h
  refine hlogged.setConn Or.inl id fun hi _ hcarries => ?_
  obtain ⟨hlt, -⟩ := Broadcast.recv_lagged hrecv
  refine hcarries.imp_left fun ⟨hlistens, p, hp, hkey⟩ => ⟨hlistens, p, ?_, hkey⟩
  -- A keyframe unread before the lag is unread after it, or the lag is past it.
  have hsplit : s.videoTx.unread (s.conn i).videoRx =
      (s.videoTx.unread (s.conn i).videoRx).take (next - (s.conn i).videoRx) ++
        s.videoTx.unread next := by
    conv_lhs => rw [← List.take_append_drop (next - (s.conn i).videoRx)
      (s.videoTx.unread (s.conn i).videoRx)]
    rw [Broadcast.unread, Broadcast.unread, List.drop_drop]
    congr 2
    omega
  have hmem : p ∈ s.videoTx.unread (s.conn i).videoRx := hp
  rw [hsplit] at hmem
  rcases List.mem_append.1 hmem with hskipped | hkept
  · exact absurd ⟨hi, next, hrecv, p, hskipped, hkey⟩ hloses
  · exact hkept

/-- The page's part: a message leaves the socket. What it brings settles
the request, or it is not what was owed. -/
theorem owed_popped {m : Message} {downlink : List Message} (h : s.Owed)
    (hdownlink : (s.conn s.current).downlink = m :: downlink) :
    (s.setConn s.current { s.conn s.current with downlink }).Owed ∨
      ∃ f, m = .video f ∧ f.isKeyframe = true := by
  by_cases hm : ∃ f, m = .video f ∧ f.isKeyframe = true
  · exact Or.inr hm
  · refine Or.inl (h.setConn Or.inl id fun _ _ hcarries => ?_)
    refine hcarries.imp_right fun ⟨f, hf, hkey⟩ => ⟨f, ?_, hkey⟩
    rw [hdownlink] at hf
    rcases List.mem_cons.1 hf with rfl | hf
    · exact absurd ⟨f, rfl, hkey⟩ hm
    · exact hf

theorem unheard_popped {downlink : List Message}
    (h : (s.setConn s.current { s.conn s.current with downlink }).Unheard) : s.Unheard := by
  refine h.imp_right fun ⟨hphase, hended⟩ => ⟨hphase, ?_⟩
  change ((s.setConn s.current { s.conn s.current with downlink }).conn s.current).handler = _
    at hended
  rw [setConn_self] at hended
  exact hended

/-- The socket opens, and what was queued for it goes out. -/
theorem owed_opens (h : s.Owed)
    (hheard : ¬ ((s.conn s.current).handler = .ended ∧ 0 < s.sendQueue)) :
    Owed ({ s with phase := .opened, sendQueue := 0 }.setConn s.current
      { s.conn s.current with uplink := (s.conn s.current).uplink + s.sendQueue }) := by
  have hopened : 0 < s.sendQueue ∨ Owed { s with phase := .opened, sendQueue := 0 } := by
    rcases h with (h | h | h) | h | (h | ⟨-, h⟩ | h)
    · exact Or.inr (Or.inl (Or.inl h))
    · exact Or.inl h
    · exact Or.inr (Or.inl (Or.inr (Or.inr h)))
    · exact Or.inr (Or.inr (Or.inl h))
    · exact Or.inr (Or.inr (Or.inr (Or.inl h)))
    · exact Or.inr (Or.inr (Or.inr (Or.inr (Or.inl ⟨Or.inr rfl, h⟩))))
    · exact Or.inr (Or.inr (Or.inr (Or.inr (Or.inr h))))
  rcases hopened with hqueued | hopened
  · refine Or.inl (Or.inr (Or.inr ⟨s.current, ?_⟩))
    rw [setConn_self]
    exact ⟨fun hended => hheard ⟨hended, hqueued⟩, Nat.add_pos_right _ hqueued⟩
  · exact hopened.setConn (fun hr => Or.inl ⟨hr.1, Nat.add_pos_left hr.2 _⟩) id fun _ _ hc => hc

end State

/-- A turn of the stream with a message taken from where it was: the token
is where it was, or the message settles the request. -/
theorem owed_apply {t : State} {m : Message} {decodeQueueSize : ℕ} {decodes : Bool}
    (hsound : Sound s)
    (hheard : ¬ t.SendsUnheard pipeline (m.apply decodeQueueSize decodes s.stream))
    (h : s.stream.keyframeRequestPending = true →
      t.Owed ∨ ∃ f, m = .video f ∧ f.isKeyframe = true)
    (hp : (m.apply decodeQueueSize decodes s.stream).1.keyframeRequestPending = true) :
    (t.after pipeline (m.apply decodeQueueSize decodes s.stream)).Owed := by
  refine State.owed_after hheard ?_
  rcases Message.outstanding_apply hsound.decoder decodeQueueSize decodes hp with hsent | ⟨hs, hdelta⟩
  · exact Or.inl hsent
  · refine Or.inr ((h hs).resolve_right ?_)
    rintro ⟨f, rfl, hkey⟩
    rw [hdelta f rfl] at hkey
    cases hkey

/-- **Every step hands the token on**, unless it is one that loses it. -/
theorem owed_step (hsound : Sound s) (hstep : Trans pipeline s a s')
    (hloses : ¬ s.Loses pipeline a)
    (h : s.stream.keyframeRequestPending = true → s.Owed)
    (hp : s'.stream.keyframeRequestPending = true) : s'.Owed := by
  cases hstep with
  | wait => exact h hp
  | changeBitrate =>
    rcases h hp with h | (h | h) | h
    · exact Or.inl h
    · exact Or.inr (Or.inl (Or.inl (List.mem_append_left _ h)))
    · exact Or.inr (Or.inl (Or.inr h))
    · exact Or.inr (Or.inr h)
  | force => exact Or.inr (Or.inl (Or.inl (List.mem_append_right _ List.mem_cons_self)))
  | honour => exact h hp
  | drain hcontrol => exact State.owed_drain (h hp) hcontrol
  | submitted hrun => exact State.owed_submitted (h hp) hrun
  | @failed outcome nextFrameId hrun =>
    refine State.owed_failed (h hp) fun hforce => hloses ⟨hforce, ?_⟩
    rcases outcome with ⟨first, more⟩ | drained
    · cases hrun
    · exact ⟨drained, rfl⟩
  | forward hpackets =>
    refine State.owed_forward hsound.behind (h hp) hpackets fun hkey => ?_
    by_contra hheard
    exact hloses ⟨⟨_, by rw [hpackets, List.head?_cons], hkey⟩, hheard⟩
  | codec => exact h hp
  | accept hi hhandler =>
    refine (h hp).setConn (fun hr => Or.inl ⟨nofun, hr.2⟩) (fun hf => ?_) fun _ _ hc => ?_
    · rw [Conn.Forces, hhandler] at hf
      cases hf
    · refine Or.inr (hc.resolve_left fun hl => ?_)
      rw [hhandler] at hl
      exact absurd hl.1 (by decide)
  | sendForce hhandler =>
    exact Or.inr (Or.inl (Or.inl (List.mem_append_right _ List.mem_cons_self)))
  | received hhandler hrecv => exact State.owed_received (h hp) hrecv
  | lagged hhandler hrecv => exact State.owed_lagged (h hp) hrecv hloses
  | sendCodec hhandler =>
    refine (h hp).setConn Or.inl id fun _ _ hc => hc.imp_right ?_
    rintro ⟨f, hf, hkey⟩
    exact ⟨f, List.mem_append_left _ hf, hkey⟩
  | @honoured i hhandler huplink hcool =>
    refine Or.inr (Or.inl (Or.inr (Or.inr ⟨i, ?_⟩)))
    rw [State.setConn_self]
    rfl
  -- a request within the cooldown is the one that is answered by nothing
  | suppressed hhandler huplink hcool => exact absurd hcool hloses
  | endHandler hi hhandler =>
    obtain ⟨hother, hunread⟩ := not_or.1 hloses
    exact (h hp).setConn (fun hr => absurd hr.2 hunread) (fun hf => absurd hf hhandler.1)
      fun hcurrent _ _ => absurd hcurrent hother
  | connect hphase =>
    rcases h hp with h | h | (h | ⟨hlive, h⟩ | h)
    · exact Or.inl h
    · exact Or.inr (Or.inl h)
    · exact Or.inr (Or.inr (Or.inl h))
    · -- There was no socket a keyframe could come over.
      rcases hlive with hlive | hlive <;> rcases hphase with hphase | hphase <;>
        rw [hlive] at hphase <;> cases hphase
    · exact Or.inr (Or.inr (Or.inr (Or.inr h)))
  | opens hphase => exact State.owed_opens (h hp) hloses
  | message hpipeline hphase hdownlink =>
    rw [State.after_stream] at hp
    refine owed_apply hsound (fun ⟨_, hun, hsent⟩ => ?_)
      (fun hs => State.owed_popped (h hs) hdownlink) hp
    exact hloses ⟨_, by rw [hdownlink, List.head?_cons], hpipeline, State.unheard_popped hun, hsent⟩
  | handed hpipeline hphase hdownlink =>
    -- a keyframe taken off the socket is on its way to the worker
    rcases State.owed_popped (h hp) hdownlink with hpopped | ⟨f, rfl, hkey⟩
    · rcases hpopped with h | h | (h | h | ⟨f, hf, hkey⟩)
      · exact Or.inl h
      · exact Or.inr (Or.inl h)
      · exact Or.inr (Or.inr (Or.inl h))
      · exact Or.inr (Or.inr (Or.inr (Or.inl h)))
      · exact Or.inr (Or.inr (Or.inr (Or.inr ⟨f, List.mem_append_left _ hf, hkey⟩)))
    · exact Or.inr (Or.inr (Or.inr (Or.inr ⟨f, List.mem_append_right _ List.mem_cons_self, hkey⟩)))
  | closes hphase => exact absurd trivial hloses
  | @work _ _ m workerIn hworkerIn =>
    rw [State.after_stream] at hp
    refine owed_apply (t := { s with workerIn }) hsound (fun hun => nomatch hun.1) (fun hs => ?_) hp
    rcases h hs with h | h | (h | h | ⟨f, hf, hkey⟩)
    · exact Or.inl (Or.inl h)
    · exact Or.inl (Or.inr (Or.inl h))
    · exact Or.inl (Or.inr (Or.inr (Or.inl h)))
    · exact Or.inl (Or.inr (Or.inr (Or.inr (Or.inl h))))
    · rw [hworkerIn] at hf
      rcases List.mem_cons.1 hf with rfl | hf
      · exact Or.inr ⟨f, rfl, hkey⟩
      · exact Or.inl (Or.inr (Or.inr (Or.inr (Or.inr ⟨f, hf, hkey⟩))))
  | post hworkerOut => exact State.owed_send hloses
  | error =>
    rw [State.after_stream] at hp
    exact State.owed_after hloses
      ((VideoStream.requests_recoverDecoder _).outstanding hp |>.imp_right h)

/-! ## Stranded viewers -/

/-- **A viewer is stranded by a step that loses the token, and by no
other.** In a run without such a step no viewer is ever stranded; and
whatever the run, a keyframe that reaches the stream leaves nothing
outstanding but a request sent because of it. -/
theorem stranded_only_by_loss (capacity : ℕ) (pipeline : VideoPipeline) :
    (∀ s a s', (machine capacity pipeline).Reachable s →
      (machine capacity pipeline).step s a = some s' → ¬ s.Stranded → s'.Stranded →
      s.Loses pipeline a) ∧
    (∀ s, (machine capacity pipeline).Reach (fun s a => ¬ s.Loses pipeline a) s → ¬ s.Stranded) ∧
    ∀ s, (machine capacity pipeline).Reachable s → ∀ (f : Frame) decodeQueueSize decodes,
      f.isKeyframe = true →
      let r := s.stream.handleVideoFrame Frame.isKeyframe f decodeQueueSize decodes
      r.1.keyframeRequestPending = true → r.2 = true := by
  have hstep : ∀ s a s', (machine capacity pipeline).Reachable s →
      (machine capacity pipeline).step s a = some s' → ¬ s.Stranded → ¬ s.Loses pipeline a →
      ¬ s'.Stranded := by
    intro s a s' hreach hstep hs hloses hs'
    have hsound := reachable_sound hreach
    have howed : s.stream.keyframeRequestPending = true → s.Owed := by
      intro hp
      by_contra hnot
      obtain ⟨hrequest, hnot⟩ := not_or.1 hnot
      obtain ⟨hforce, hkeyframe⟩ := not_or.1 hnot
      exact hs ⟨hsound.unseen hp, hp, hrequest, hforce, hkeyframe⟩
    rcases owed_step hsound (trans_of_step hstep) hloses howed hs'.pending with h | h | h
    · exact hs'.noRequest h
    · exact hs'.noForce h
    · exact hs'.noKeyframe h
  refine ⟨fun s a s' hreach hs hnot hstranded => ?_, fun s hreach => ?_, fun s hreach => ?_⟩
  · by_contra hloses
    exact hstep s a s' hreach hs hnot hloses hstranded
  · refine Machine.Reach.invariant_of (Q := fun s => (machine capacity pipeline).Reachable s)
      (P := fun s => ¬ s.Stranded) (fun s hs => hs.reachable) ?_ ?_ hreach
    · rintro s ⟨codec, rfl⟩ hs
      cases hs.pending
    · exact fun s a s' hreach _ hloses hs hnot => hstep s a s' hreach hs hnot hloses
  · exact fun f decodeQueueSize decodes hkey =>
      VideoStream.answered_by_keyframe (reachable_sound hreach).decoder hkey decodeQueueSize decodes

/-- Where to look for the token in a state that has one connection. -/
theorem stranded_of (huntouched : s.Untouched) (hseen : s.stream.keyframeSeen = false)
    (hpending : s.stream.keyframeRequestPending = true) (hpage : s.workerOut = 0 ∧ s.sendQueue = 0)
    (hconn : ∀ i ≤ s.current, (s.conn i).uplink = 0 ∧ (s.conn i).handler ≠ .forcing)
    (hencoder : s.control = [] ∧ s.forceKeyframe = false ∧ s.packets = [])
    (hframes : s.workerIn = [] ∧ (s.conn s.current).downlink = [] ∧
      s.videoTx.unread (s.conn s.current).videoRx = []) : s.Stranded := by
  have hidle : ∀ i, (s.conn i).uplink = 0 ∧ (s.conn i).handler ≠ .forcing := by
    intro i
    by_cases hi : i ≤ s.current
    · exact hconn i hi
    · rw [huntouched i (not_le.1 hi)]
      exact ⟨rfl, nofun⟩
  refine ⟨hseen, hpending, ?_, ?_, ?_⟩
  · rintro (h | h | ⟨i, -, h⟩)
    · omega
    · omega
    · have := (hidle i).1
      omega
  · rintro (h | h | ⟨i, h⟩)
    · rw [hencoder.1] at h
      cases h
    · rw [hencoder.2.1] at h
      cases h
    · exact (hidle i).2 h
  · rintro (⟨p, hp, -⟩ | ⟨-, ⟨-, p, hp, -⟩ | ⟨f, hf, -⟩⟩ | ⟨f, hf, -⟩)
    · rw [hencoder.2.2] at hp
      cases hp
    · rw [hframes.2.2] at hp
      cases hp
    · rw [hframes.2.1] at hf
      cases hf
    · rw [hframes.1] at hf
      cases hf

/-- Two decoder errors within the cooldown: the first request is honoured
and answered, the second is sent. -/
def errsTwice : List Action :=
  connects ++ [.error, .dispatch 1, .sendForce 1, .drain, somePacket, .forward, .recv 1,
    .message 0 true, .error]

theorem suppressed_request : ∃ s s', (machine 3 .main).Reachable s ∧
    (machine 3 .main).step s (.dispatch 1) = some s' ∧ ¬ s.Stranded ∧ s'.Stranded := by
  have hrun : ∃ s, (machine 3 .main).exec (start 3 decoderConfig decoderConfig) errsTwice = some s ∧
      ∃ s', (machine 3 .main).step s (.dispatch 1) = some s' ∧
        (s.conn 1).uplink = 1 ∧ (s.conn 1).handler = .serving ∧ (s'.Untouched → s'.Stranded) := by
    refine ⟨_, rfl, _, rfl, rfl, rfl, fun h => stranded_of h rfl rfl ⟨rfl, rfl⟩ ?_ ⟨rfl, rfl, rfl⟩
      ⟨rfl, rfl, rfl⟩⟩
    decide
  obtain ⟨s, hexec, s', hstep, huplink, hhandler, hstranded⟩ := hrun
  have hreach := Machine.reach_of_exec _ (start_reachable _ _) hexec
  refine ⟨s, s', hreach, hstep, fun h => h.noRequest ?_, hstranded (reachable_untouched (hreach.next hstep))⟩
  exact Or.inr (Or.inr ⟨1, by rw [hhandler]; exact nofun, by rw [huplink]; exact Nat.one_pos⟩)

/-- **The cooldown strands a viewer.** -/
theorem viewer_stranded : ¬ ∀ s, (machine 3 .main).Reachable s → ¬ s.Stranded := by
  obtain ⟨s, s', hreach, hstep, -, hstranded⟩ := suppressed_request
  exact fun h => h s' (hreach.next hstep) hstranded

/-- The suppressed request is the step that loses it. -/
theorem stranded_only_by_loss_suppressed : ∃ s s', (machine 3 .main).Reachable s ∧
    (machine 3 .main).step s (.dispatch 1) = some s' ∧ s'.Stranded ∧ s.Loses .main (.dispatch 1) := by
  obtain ⟨s, s', hreach, hstep, hnot, hstranded⟩ := suppressed_request
  exact ⟨s, s', hreach, hstep, hstranded,
    (stranded_only_by_loss 3 .main).1 s (.dispatch 1) s' hreach hstep hnot hstranded⟩

end Client

end WaylandWebStream
