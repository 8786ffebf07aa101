import WaylandWebStream.Client.Model

/-!
# The viewer's transitions

The step function as a relation, one constructor for each way a step can
go, and what a turn of the video stream changes beside the stream.
-/

namespace WaylandWebStream

namespace Client

open Encoder (EncodedPacket EncoderControl)

/-- **The transitions.** -/
inductive Trans (pipeline : VideoPipeline) (s : State) : Action → State → Prop
  | wait {time} : Trans pipeline s (.wait time) { s with now := s.now + time }
  | changeBitrate {bitrate} : Trans pipeline s (.changeBitrate bitrate)
      { s with control := s.control ++ [.changeBitrate bitrate] }
  | force : Trans pipeline s .force { s with control := s.control ++ [.forceKeyframe] }
  | honour : Trans pipeline s .honour { s with lastKeyframeForce := s.now }
  | drain {m control} (hcontrol : s.control = m :: control) : Trans pipeline s .drain
      { s with control, forceKeyframe := s.forceKeyframe || decide (m = EncoderControl.forceKeyframe) }
  | submitted {outcome nextFrameId packets}
      (hrun : Submit.run s.nextFrameId s.forceKeyframe outcome = (nextFrameId, some packets)) :
      Trans pipeline s (.submit outcome)
        { s with nextFrameId, packets := s.packets ++ packets, forceKeyframe := false }
  | failed {outcome nextFrameId}
      (hrun : Submit.run s.nextFrameId s.forceKeyframe outcome = (nextFrameId, none)) :
      Trans pipeline s (.submit outcome) { s with
        nextFrameId
        lost := if nextFrameId = s.nextFrameId then s.lost
          else (s.videoTx.sent ++ s.packets).length :: s.lost
        forceKeyframe := false }
  | forward {packet packets} (hpackets : s.packets = packet :: packets) :
      Trans pipeline s .forward { s with packets, videoTx := s.videoTx.send packet }
  | codec {codec} : Trans pipeline s (.codec codec) { s with codecTx := codec }
  | accept {i} (hi : 0 < i ∧ i ≤ s.current) (hhandler : (s.conn i).handler = .absent) :
      Trans pipeline s (.accept i) (s.setConn i
        { s.conn i with handler := .subscribed, videoRx := s.videoTx.subscribe })
  | sendForce {i} (hhandler : (s.conn i).handler = .subscribed ∨ (s.conn i).handler = .forcing) :
      Trans pipeline s (.sendForce i)
        ({ s with control := s.control ++ [EncoderControl.forceKeyframe] }.setConn i
          { s.conn i with handler := .serving })
  | received {i packet} (hhandler : (s.conn i).handler = .serving)
      (hrecv : s.videoTx.recv (s.conn i).videoRx = .value packet) :
      Trans pipeline s (.recv i) (s.setConn i { s.conn i with
        videoRx := (s.conn i).videoRx + 1
        downlink := (s.conn i).downlink ++ [.video ⟨packet, i, (s.conn i).videoRx⟩] })
  | lagged {i next} (hhandler : (s.conn i).handler = .serving)
      (hrecv : s.videoTx.recv (s.conn i).videoRx = .lagged next) :
      Trans pipeline s (.recv i)
        ({ s with lagged := (i, (s.conn i).videoRx, next) :: s.lagged }.setConn i
          { s.conn i with videoRx := next })
  | sendCodec {i} (hhandler : (s.conn i).handler = .subscribed ∨ (s.conn i).handler = .serving) :
      Trans pipeline s (.sendCodec i) (s.setConn i
        { s.conn i with downlink := (s.conn i).downlink ++ [.codec s.codecTx] })
  | honoured {i} (hhandler : (s.conn i).handler = .serving) (huplink : 0 < (s.conn i).uplink)
      (hcool : s.CooledDown) :
      Trans pipeline s (.dispatch i) ({ s with lastKeyframeForce := s.now }.setConn i
        { s.conn i with uplink := (s.conn i).uplink - 1, handler := .forcing })
  | suppressed {i} (hhandler : (s.conn i).handler = .serving) (huplink : 0 < (s.conn i).uplink)
      (hcool : ¬ s.CooledDown) :
      Trans pipeline s (.dispatch i)
        (s.setConn i { s.conn i with uplink := (s.conn i).uplink - 1 })
  | endHandler {i} (hi : 0 < i ∧ i ≤ s.current)
      (hhandler : (s.conn i).handler ≠ .forcing ∧ (s.conn i).handler ≠ .ended) :
      Trans pipeline s (.endHandler i) (s.setConn i { s.conn i with handler := .ended })
  | connect (hphase : s.phase = .idle ∨ s.phase = .closed) :
      Trans pipeline s .connect { s with phase := .connecting, current := s.current + 1 }
  | opens (hphase : s.phase = .connecting) : Trans pipeline s .opens
      ({ s with phase := .opened, sendQueue := 0 }.setConn s.current
        { s.conn s.current with uplink := (s.conn s.current).uplink + s.sendQueue })
  | message {decodeQueueSize decodes m downlink} (hpipeline : pipeline = .main)
      (hphase : s.phase = .opened) (hdownlink : (s.conn s.current).downlink = m :: downlink) :
      Trans pipeline s (.message decodeQueueSize decodes)
        ((s.setConn s.current { s.conn s.current with downlink }).after pipeline
          (m.apply decodeQueueSize decodes s.stream))
  | handed {decodeQueueSize decodes m downlink} (hpipeline : pipeline = .worker)
      (hphase : s.phase = .opened) (hdownlink : (s.conn s.current).downlink = m :: downlink) :
      Trans pipeline s (.message decodeQueueSize decodes)
        { s.setConn s.current { s.conn s.current with downlink } with
          workerIn := s.workerIn ++ [m] }
  | closes (hphase : s.phase = .connecting ∨ s.phase = .opened) :
      Trans pipeline s .closes { s with phase := .closed, sendQueue := 0 }
  | work {decodeQueueSize decodes m workerIn} (hworkerIn : s.workerIn = m :: workerIn) :
      Trans pipeline s (.work decodeQueueSize decodes)
        ({ s with workerIn }.after .worker (m.apply decodeQueueSize decodes s.stream))
  | post (hworkerOut : 0 < s.workerOut) :
      Trans pipeline s .post { s with workerOut := s.workerOut - 1 }.send
  | error : Trans pipeline s .error (s.after pipeline s.stream.recoverDecoder)

variable {pipeline : VideoPipeline} {s s' : State} {a : Action} {i j : ℕ} {c : Conn}

namespace Trans

theorem of_submit (outcome : Submit) : Trans pipeline s (.submit outcome) (s.submit outcome) := by
  unfold State.submit
  rcases hrun : Submit.run s.nextFrameId s.forceKeyframe outcome with ⟨nextFrameId, _ | packets⟩
  · exact failed hrun
  · exact submitted hrun

theorem of_recv (hhandler : (s.conn i).handler = .serving) (h : s.recv i = some s') :
    Trans pipeline s (.recv i) s' := by
  unfold State.recv at h
  dsimp only at h
  split at h
  · cases h
  · rename_i hrecv
    cases h
    exact lagged hhandler hrecv
  · rename_i hrecv
    cases h
    exact received hhandler hrecv

theorem of_dispatch (hhandler : (s.conn i).handler = .serving) (huplink : 0 < (s.conn i).uplink) :
    Trans pipeline s (.dispatch i) (s.dispatch i) := by
  unfold State.dispatch
  dsimp only
  split
  · rename_i hcool
    exact honoured hhandler huplink hcool
  · rename_i hcool
    exact suppressed hhandler huplink hcool

theorem of_message {m : Message} {downlink : List Message} (hphase : s.phase = .opened)
    (hdownlink : (s.conn s.current).downlink = m :: downlink) (decodeQueueSize : ℕ)
    (decodes : Bool) : Trans pipeline s (.message decodeQueueSize decodes)
      ((s.setConn s.current { s.conn s.current with downlink }).message pipeline
        decodeQueueSize decodes m) := by
  cases pipeline with
  | main => exact message rfl hphase hdownlink
  | worker => exact handed rfl hphase hdownlink

end Trans

/-- **Every step is a transition.** -/
theorem trans_of_step (h : s.step pipeline a = some s') : Trans pipeline s a s' := by
  cases a with
  | wait time =>
    cases h
    exact .wait
  | changeBitrate bitrate =>
    simp only [State.step, Option.ite_none_right_eq_some] at h
    obtain ⟨-, h⟩ := h
    cases h
    exact .changeBitrate
  | force =>
    simp only [State.step, Option.ite_none_right_eq_some] at h
    obtain ⟨-, h⟩ := h
    cases h
    exact .force
  | honour =>
    simp only [State.step, Option.ite_none_right_eq_some] at h
    obtain ⟨-, h⟩ := h
    cases h
    exact .honour
  | drain =>
    simp only [State.step] at h
    split at h
    · cases h
    · rename_i hcontrol
      cases h
      exact .drain hcontrol
  | submit outcome =>
    cases h
    exact .of_submit outcome
  | forward =>
    simp only [State.step] at h
    split at h
    · cases h
    · rename_i hpackets
      cases h
      exact .forward hpackets
  | codec codec =>
    cases h
    exact .codec
  | accept i =>
    simp only [State.step, Option.ite_none_right_eq_some] at h
    obtain ⟨⟨hpos, hle, hhandler⟩, h⟩ := h
    cases h
    exact .accept ⟨hpos, hle⟩ hhandler
  | sendForce i =>
    simp only [State.step, Option.ite_none_right_eq_some] at h
    obtain ⟨⟨hhandler, -⟩, h⟩ := h
    cases h
    exact .sendForce hhandler
  | recv i =>
    simp only [State.step, Option.ite_none_right_eq_some] at h
    exact .of_recv h.1 h.2
  | sendCodec i =>
    simp only [State.step, Option.ite_none_right_eq_some] at h
    obtain ⟨hhandler, h⟩ := h
    cases h
    exact .sendCodec hhandler
  | dispatch i =>
    simp only [State.step, Option.ite_none_right_eq_some] at h
    obtain ⟨⟨hhandler, huplink⟩, h⟩ := h
    cases h
    exact .of_dispatch hhandler huplink
  | endHandler i =>
    simp only [State.step, Option.ite_none_right_eq_some] at h
    obtain ⟨⟨hpos, hle, hhandler⟩, h⟩ := h
    cases h
    exact .endHandler ⟨hpos, hle⟩ hhandler
  | connect =>
    simp only [State.step, Option.ite_none_right_eq_some] at h
    obtain ⟨hphase, h⟩ := h
    cases h
    exact .connect hphase
  | opens =>
    simp only [State.step, Option.ite_none_right_eq_some] at h
    obtain ⟨hphase, h⟩ := h
    cases h
    exact .opens hphase
  | message decodeQueueSize decodes =>
    simp only [State.step] at h
    split at h
    · rename_i hphase hdownlink
      cases h
      exact .of_message hphase hdownlink decodeQueueSize decodes
    · cases h
  | closes =>
    simp only [State.step, Option.ite_none_right_eq_some] at h
    obtain ⟨hphase, h⟩ := h
    cases h
    exact .closes hphase
  | work decodeQueueSize decodes =>
    simp only [State.step] at h
    split at h
    · cases h
    · rename_i hworkerIn
      cases h
      exact .work hworkerIn
  | post =>
    simp only [State.step, Option.ite_none_right_eq_some] at h
    obtain ⟨hworkerOut, h⟩ := h
    cases h
    exact .post hworkerOut
  | error =>
    cases h
    exact .error

/-! ## What is changed beside -/

namespace State

@[simp] theorem setConn_self (c : Conn) : (s.setConn i c).conn i = c := by simp [setConn]

theorem setConn_of_ne (c : Conn) (h : j ≠ i) : (s.setConn i c).conn j = s.conn j := by
  simp [setConn, h]

/-- What holds of every connection holds after one of them is replaced. -/
theorem setConn_conn {P : ℕ → Conn → Prop} (h : ∀ j, P j (s.conn j)) (hc : P i c) (j : ℕ) :
    P j ((s.setConn i c).conn j) := by
  by_cases hj : j = i
  · subst hj
    rw [setConn_self]
    exact hc
  · rw [setConn_of_ne c hj]
    exact h j

/-- A request sent changes the send queue, or what is in a socket. -/
theorem send_eq (s : State) : ∃ sendQueue conn, s.send = { s with sendQueue, conn } ∧
    ∀ i, ∃ uplink, conn i = { s.conn i with uplink } := by
  unfold send
  split
  · refine ⟨s.sendQueue, _, rfl, fun i => ?_⟩
    by_cases hi : i = s.current
    · subst hi
      rw [Function.update_self]
      exact ⟨_, rfl⟩
    · rw [Function.update_of_ne hi]
      exact ⟨_, rfl⟩
  · exact ⟨_, s.conn, rfl, fun i => ⟨_, rfl⟩⟩
  · exact ⟨_, s.conn, rfl, fun i => ⟨_, rfl⟩⟩
  · exact ⟨_, s.conn, rfl, fun i => ⟨_, rfl⟩⟩

/-- **A turn of the stream** changes the stream, and where requests are. -/
theorem after_eq (pipeline : VideoPipeline) (s : State) (r : VideoStream Frame × Bool) : ∃ sendQueue workerOut conn,
    s.after pipeline r = { s with stream := r.1, sendQueue, workerOut, conn } ∧
    ∀ i, ∃ uplink, conn i = { s.conn i with uplink } := by
  unfold after
  dsimp only
  split
  · cases pipeline with
    | main =>
      obtain ⟨sendQueue, conn, heq, hconn⟩ := send_eq { s with stream := r.1 }
      exact ⟨sendQueue, s.workerOut, conn, heq, hconn⟩
    | worker => exact ⟨s.sendQueue, _, s.conn, rfl, fun i => ⟨_, rfl⟩⟩
  · exact ⟨s.sendQueue, s.workerOut, s.conn, rfl, fun i => ⟨_, rfl⟩⟩

theorem send_conn (s : State) (i : ℕ) : ∃ uplink, s.send.conn i = { s.conn i with uplink } := by
  obtain ⟨_, conn, heq, hconn⟩ := send_eq s
  rw [heq]
  exact hconn i

theorem after_conn (pipeline : VideoPipeline) (s : State) (r : VideoStream Frame × Bool) (i : ℕ) :
    ∃ uplink, (s.after pipeline r).conn i = { s.conn i with uplink } := by
  obtain ⟨_, _, conn, heq, hconn⟩ := after_eq pipeline s r
  rw [heq]
  exact hconn i

@[simp] theorem send_stream (s : State) : s.send.stream = s.stream := by
  obtain ⟨_, _, heq, -⟩ := send_eq s
  rw [heq]

@[simp] theorem after_stream (s : State) (r : VideoStream Frame × Bool) :
    (s.after pipeline r).stream = r.1 := by
  obtain ⟨_, _, _, heq, -⟩ := after_eq pipeline s r
  rw [heq]

@[simp] theorem send_videoTx (s : State) : s.send.videoTx = s.videoTx := by
  obtain ⟨_, _, heq, -⟩ := send_eq s
  rw [heq]

@[simp] theorem after_videoTx (s : State) (r : VideoStream Frame × Bool) :
    (s.after pipeline r).videoTx = s.videoTx := by
  obtain ⟨_, _, _, heq, -⟩ := after_eq pipeline s r
  rw [heq]

end State

/-- **What a step does to the stream**: nothing, or a message reaches it,
or its decoder is replaced. -/
theorem Trans.stream (h : Trans pipeline s a s') : s'.stream = s.stream ∨
    (∃ m decodeQueueSize decodes,
      s'.stream = (Message.apply decodeQueueSize decodes s.stream m).1) ∨
    s'.stream = s.stream.recoverDecoder.1 := by
  cases h with
  | message => exact Or.inr (Or.inl ⟨_, _, _, State.after_stream _ _⟩)
  | work => exact Or.inr (Or.inl ⟨_, _, _, State.after_stream _ _⟩)
  | error => exact Or.inr (Or.inr (State.after_stream _ _))
  | post => exact Or.inl (State.send_stream _)
  | _ => exact Or.inl rfl

/-! ## The next connections -/

/-- The connections not opened yet are as they start. -/
def State.Untouched (s : State) : Prop := ∀ i, s.current < i → s.conn i = {}

namespace State.Untouched

/-- A connection whose handler is there was opened. -/
theorem le_of_handler (h : s.Untouched) (hi : (s.conn i).handler ≠ .absent) : i ≤ s.current := by
  by_contra hlt
  rw [h i (not_le.1 hlt)] at hi
  exact hi rfl

theorem setConn (h : s.Untouched) (hi : i ≤ s.current) (c : Conn) : (s.setConn i c).Untouched := by
  intro j hj
  have hne : j ≠ i := fun hji => absurd (hji ▸ hj : s.current < i) (not_lt.2 hi)
  rw [setConn_of_ne c hne]
  exact h j hj

theorem send (h : s.Untouched) : s.send.Untouched := by
  unfold State.send
  split
  · exact h.setConn le_rfl _
  · exact h
  · exact h
  · exact h

theorem after (h : s.Untouched) (r : VideoStream Frame × Bool) : (s.after pipeline r).Untouched := by
  have hturn : State.Untouched { s with stream := r.1 } := h
  unfold State.after
  dsimp only
  split
  · cases pipeline with
    | main => exact hturn.send
    | worker => exact h
  · exact h

theorem step (h : s.Untouched) (hstep : Trans pipeline s a s') : s'.Untouched := by
  have hserving : ∀ {j}, (s.conn j).handler = .serving → j ≤ s.current := fun hj =>
    h.le_of_handler (by rw [hj]; exact nofun)
  cases hstep with
  | accept hi => exact h.setConn hi.2 _
  | sendForce hhandler =>
    refine State.Untouched.setConn h (h.le_of_handler ?_) _
    rcases hhandler with hh | hh <;> rw [hh] <;> exact nofun
  | received hhandler => exact h.setConn (hserving hhandler) _
  | lagged hhandler => exact State.Untouched.setConn h (hserving hhandler) _
  | sendCodec hhandler =>
    refine h.setConn (h.le_of_handler ?_) _
    rcases hhandler with hh | hh <;> rw [hh] <;> exact nofun
  | honoured hhandler => exact State.Untouched.setConn h (hserving hhandler) _
  | suppressed hhandler => exact h.setConn (hserving hhandler) _
  | endHandler hi => exact h.setConn hi.2 _
  | connect => exact fun i hi => h i (Nat.lt_of_succ_lt hi)
  | opens => exact State.Untouched.setConn h le_rfl _
  | @message _ _ _ downlink =>
    have hpopped := h.setConn le_rfl { s.conn s.current with downlink }
    exact hpopped.after _
  | @handed _ _ _ downlink =>
    have hpopped := h.setConn le_rfl { s.conn s.current with downlink }
    exact hpopped
  | @work _ _ _ workerIn =>
    have hpopped : State.Untouched { s with workerIn } := h
    exact hpopped.after _
  | post =>
    have htaken : State.Untouched { s with workerOut := s.workerOut - 1 } := h
    exact htaken.send
  | error => exact h.after _
  | _ => exact h

end State.Untouched

theorem start_reachable (capacity : ℕ) (pipeline : VideoPipeline) :
    (machine capacity pipeline).Reachable (start capacity decoderConfig decoderConfig) :=
  .start ⟨decoderConfig, rfl⟩

theorem reachable_untouched {capacity : ℕ} (h : (machine capacity pipeline).Reachable s) :
    s.Untouched := by
  refine Machine.Reachable.invariant (P := State.Untouched) (fun s hs => ?_)
    (fun s a s' hstep hs => hs.step (trans_of_step hstep)) h
  obtain ⟨codec, rfl⟩ := hs
  exact fun _ _ => rfl

end Client

end WaylandWebStream
