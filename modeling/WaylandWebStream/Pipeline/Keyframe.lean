import WaylandWebStream.Pipeline.Steps

/-!
# Keyframe requests

A keyframe request is two things sent one after the other: the flag that
makes the render loop capture a frame, and the control message that makes
the encoder force it. The request is answered when the frame is encoded
after the message was read, so it needs a frame that is still to come
when the message is sent.
-/

namespace WaylandWebStream

namespace Pipeline

open Encoder

variable {ι ρ E Ω : Type*}

namespace State

variable (s : State ι ρ E)

/-- Some request is sent and not answered. -/
def Asking : Prop := ∃ r, s.requests r = .sent

/-- The encoder will force a keyframe, or has the message to. -/
def Told : Prop := .forceKeyframe ∈ s.control ∨ s.forceKeyframe = true

/-- The encoder thread has a frame in hand, the control messages not yet
drained again. -/
def Holding : Prop := ∃ frame, s.thread = .skipping frame ∨ s.thread = .matching frame ∨
  s.thread = .controlAgain frame

/-- A frame is on its way to the encoder. -/
def Queued : Prop := s.frames ≠ [] ∨ s.Holding

/-- A frame is to be submitted after the control messages sent by now are
read. -/
def Coming : Prop := s.Owed ∨ s.Queued ∨ (∃ frame, s.thread = .submitting frame) ∧ s.forceKeyframe = true

/-- **A request will be answered**, if the encoder thread lives. -/
def Served : Prop := s.thread.isExited = false → s.Asking → s.Told ∧ s.Coming

end State

section Runs

variable [DecidableEq ι] [DecidableEq ρ] {c : Config} {V : VideoEncoder E Ω}
  {s s' : State ι ρ E} {a : Action ι ρ Ω}

/-- **The frame that carries a request is not lost.** A message is sent
while a frame is still to come. While a request is out, a render that
fails, the drain at a resize and a forced submit that fails leave another
frame to come, and the failed submit another message with it. -/
def Carries (c : Config) (V : VideoEncoder E Ω) (s : State ι ρ E) : Action ι ρ Ω → Prop
  | .send _ => s.Coming
  | .loop outcome => s.loop = .rendering → c.backend = .sw ∨ outcome = .drawn ∨ ¬ s.Asking ∨
      s.screen.state.damage ≠ [] ∨ s.forceRender = true ∨ s.Queued ∨
        (∃ frame, s.thread = .submitting frame) ∧ s.forceKeyframe = true
  | .encoder outcome =>
      (∀ width height frame, s.thread = .draining width height → s.frames = [frame] →
        ¬ s.Asking ∨ s.Owed) ∧
      ∀ frame, s.thread = .submitting frame →
        (V.submit s.videoEncoder frame s.forceKeyframe outcome).2 ≠ none ∨
        s.forceKeyframe = false ∨ ¬ s.Asking ∨
        .forceKeyframe ∈ s.control ∧ (s.Owed ∨ s.Queued)
  | _ => True

omit [DecidableEq ι] [DecidableEq ρ] in
/-- What keeps the requests out, the message and the frame keeps them served. -/
theorem State.Served.mono (h : s.Served) (hlive : s'.thread.isExited = false → s.thread.isExited = false)
    (hasking : s'.Asking → s.Asking) (htold : s.Told → s'.Told) (hcoming : s.Coming → s'.Coming) :
    s'.Served := by
  intro hlive' hasking'
  obtain ⟨ht, hc⟩ := h (hlive hlive') (hasking hasking')
  exact ⟨htold ht, hcoming hc⟩

omit [DecidableEq ι] [DecidableEq ρ] in
/-- A message in the queue stays there when one is pushed. -/
theorem mem_pushControl {m m' : EncoderControl} (h : m ∈ s.control) : m ∈ s.pushControl m' := by
  unfold State.pushControl
  split
  · exact h
  · exact List.mem_append_left _ h

omit [DecidableEq ι] [DecidableEq ρ] in
/-- A message there is room for is in the queue. -/
theorem mem_pushControl_self {m : EncoderControl} (hlive : s.thread.isExited = false)
    (hroom : s.thread.isExited = true ∨ s.control.length < controlCapacity) :
    m ∈ s.pushControl m := by
  have hlt : s.control.length < controlCapacity := by
    rcases hroom with hexit | hlt
    · rw [hlive] at hexit
      cases hexit
    · exact hlt
  unfold State.pushControl
  rw [if_neg (by simp [hlive, Nat.not_le.2 hlt])]
  exact List.mem_append_right _ (List.mem_singleton_self _)

omit [DecidableEq ι] [DecidableEq ρ] in
/-- The thread moves on: what it held it holds, or had nothing. -/
theorem served_move {thread : Thread} {frames : List CapturedFrame} {rx : Watch.Receiver} {e : E}
    (h : s.Served) (hlive : s.thread.isExited = false) (hnot : ∀ frame, s.thread ≠ .submitting frame)
    (hqueued : s.Queued → frames ≠ [] ∨
      ∃ frame, thread = .skipping frame ∨ thread = .matching frame ∨ thread = .controlAgain frame) :
    State.Served { s with thread, frames, resizeRx := rx, videoEncoder := e } := by
  refine h.mono (fun _ => hlive) id id ?_
  rintro (howed | hq | ⟨⟨frame, ht⟩, -⟩)
  · exact Or.inl howed
  · exact Or.inr (Or.inl (hqueued hq))
  · exact absurd ht (hnot frame)

omit [DecidableEq ι] [DecidableEq ρ] in
/-- And it had nothing in hand. -/
theorem served_pass {thread : Thread} {rx : Watch.Receiver} {e : E} (h : s.Served)
    (hlive : s.thread.isExited = false) (hempty : s.thread.inHand = []) :
    State.Served { s with thread, resizeRx := rx, videoEncoder := e } := by
  refine served_move h hlive (fun frame ht => ?_) (Or.imp_right ?_)
  · rw [ht] at hempty
    cases hempty
  · rintro ⟨frame, ht⟩
    rcases ht with ht | ht | ht <;> (rw [ht] at hempty; cases hempty)

omit [DecidableEq ι] [DecidableEq ρ] in
theorem served_control {o : Ω} {m : EncoderControl} {rest : List EncoderControl} (h : s.Served)
    (hcontrol : s.control = m :: rest) :
    State.Served ({ s with control := rest }.applyControl V o m) := by
  cases m with
  | forceKeyframe =>
    refine h.mono id id (fun _ => Or.inr rfl) ?_
    rintro (howed | hq | ⟨ht, -⟩)
    · exact Or.inl howed
    · exact Or.inr (Or.inl hq)
    · exact Or.inr (Or.inr ⟨ht, rfl⟩)
  | changeBitrate bitrate =>
    refine h.mono id id ?_ id
    rintro (hmem | hforce)
    · rw [hcontrol] at hmem
      rcases List.mem_cons.1 hmem with hm | hmem
      · cases hm
      · exact Or.inl hmem
    · exact Or.inr hforce

omit [DecidableEq ι] [DecidableEq ρ] in
/-- **A submit answers the requests it carries**: the flag it consumes was
theirs, or they are still told and another frame comes. -/
theorem served_submitted {o : Ω} {frame : CapturedFrame} {e : E}
    {packets : Option (List EncodedPacket)}
    (hforced : ∀ e frame o e' packets, V.submit e frame true o = (e', some packets) →
      ∃ p ∈ packets, p.isKeyframe = true)
    (h : s.Served) (hthread : s.thread = .submitting frame)
    (hsubmit : V.submit s.videoEncoder frame s.forceKeyframe o = (e, packets))
    (hok : packets ≠ none ∨ s.forceKeyframe = false ∨ ¬ s.Asking ∨
      .forceKeyframe ∈ s.control ∧ (s.Owed ∨ s.Queued)) :
    State.Served { s with
      videoEncoder := e
      forceKeyframe := false
      submitted := some (s.screen.view frame)
      requests := s.answer packets
      thread := .control } := by
  rintro - ⟨r, hr⟩
  replace hr : s.answer packets r = .sent := hr
  -- a request left over was there before, and the packets have no keyframe
  have hanswer : s.requests r = .sent ∧
      (packets.getD []).any (fun p => p.isKeyframe) = false := by
    unfold State.answer at hr
    split at hr
    · cases hr
    · rename_i hnot
      refine ⟨hr, ?_⟩
      rw [not_and, Bool.not_eq_true] at hnot
      exact hnot hr
  obtain ⟨hsent, hnokey⟩ := hanswer
  obtain ⟨htold, hcoming⟩ := h (by rw [hthread]; rfl) ⟨r, hsent⟩
  have hnotHolding : ¬ s.Holding := by
    rintro ⟨frame', ht⟩
    rw [hthread] at ht
    rcases ht with ht | ht | ht <;> cases ht
  have hkeep : s.Owed ∨ s.Queued → State.Coming { s with
      videoEncoder := e
      forceKeyframe := false
      submitted := some (s.screen.view frame)
      requests := s.answer packets
      thread := .control } := by
    rintro (howed | hframes | hholding)
    · exact Or.inl howed
    · exact Or.inr (Or.inl (Or.inl hframes))
    · exact absurd hholding hnotHolding
  cases hforce : s.forceKeyframe with
  | false =>
    -- the frame was not theirs: the message is unread, another frame comes
    rcases hcoming with howed | hq | ⟨-, hf⟩
    · exact ⟨Or.inl (htold.resolve_right (by simp [hforce])), hkeep (Or.inl howed)⟩
    · exact ⟨Or.inl (htold.resolve_right (by simp [hforce])), hkeep (Or.inr hq)⟩
    · rw [hforce] at hf
      cases hf
  | true =>
    rw [hforce] at hsubmit hok
    rcases hok with hsome | hf | hnone | ⟨hmem, hleft⟩
    · cases packets with
      | none => exact absurd rfl hsome
      | some packets =>
        -- a forced submit that succeeds has a keyframe, and `r` would be answered
        obtain ⟨p, hp, hkey⟩ := hforced _ _ _ _ _ hsubmit
        have hany : packets.any (fun p => p.isKeyframe) = true := List.any_eq_true.2 ⟨p, hp, hkey⟩
        rw [Option.getD_some, hany] at hnokey
        cases hnokey
    · cases hf
    · exact absurd ⟨r, hsent⟩ hnone
    · exact ⟨Or.inl hmem, hkeep hleft⟩

/-- **A step that loses no carrier keeps every request served.** -/
theorem served_step
    (hforced : ∀ e frame o e' packets, V.submit e frame true o = (e', some packets) →
      ∃ p ∈ packets, p.isKeyframe = true)
    (h : Trans c V s a s') (hok : Carries c V s a) (hs : s.Served) : s'.Served := by
  cases h with
  | client htop hop hstep =>
    obtain ⟨-, hdamage, -⟩ := Compositor.State.step_client hop hstep
    refine hs.mono id id id ?_
    rintro ((hd | hrest) | hq)
    · exact Or.inl (Or.inl (hdamage hd))
    · exact Or.inl (Or.inr hrest)
    · exact Or.inr hq
  | resize htop hsize hstep =>
    obtain ⟨-, -, -, hdamage, -⟩ := Compositor.State.step_resize hstep
    exact hs.mono id id id fun _ => Or.inl (Or.inl hdamage)
  | tickIdle htop hclean hforce =>
    refine hs.mono id id id ?_
    rintro ((hd | hf | hcapturing) | hq)
    · exact absurd hclean hd
    · rw [hforce] at hf
      cases hf
    · exact absurd hcapturing (State.not_capturing_top htop)
    · exact Or.inr hq
  | tickWork htop hwork hnext =>
    refine hs.mono id id id fun _ => Or.inl (Or.inr (Or.inr ?_))
    exact hnext.imp_right Or.inl
  | told hloop =>
    refine hs.mono id id id ?_
    rintro ((hd | hf | hcapturing) | hq)
    · exact Or.inl (Or.inl hd)
    · exact Or.inl (Or.inr (Or.inl hf))
    · exact absurd hcapturing (State.not_capturing_resizing hloop)
    · exact Or.inr hq
  -- the message is in the queue, and the turn goes on to a render for it
  | requested hloop =>
    exact hs.mono id id (Or.imp_left mem_pushControl)
      fun _ => Or.inl (Or.inr (Or.inr (Or.inr (Or.inl rfl))))
  | rendered hloop hrender =>
    exact hs.mono id id id fun _ => Or.inl (Or.inr (Or.inr (Or.inr (Or.inr ⟨_, rfl⟩))))
  | notRendered hloop hrender =>
    obtain ⟨hgl, hnotDrawn, hstate⟩ := Screen.render_none hrender
    rcases hok hloop with hsw | hdrawn | hnone | hleft
    · exact absurd hsw hgl
    · exact absurd hdrawn hnotDrawn
    · exact fun _ hasking => absurd hasking hnone
    · refine hs.mono id id id fun _ => ?_
      rcases hleft with hd | hf | hq | hsubmitting
      · exact Or.inl (Or.inl (by rw [← hstate] at hd; exact hd))
      · exact Or.inl (Or.inr (Or.inl hf))
      · exact Or.inr (Or.inl hq)
      · exact Or.inr (Or.inr hsubmitting)
  | closed hloop hexit =>
    intro hlive
    rw [show s.thread.isExited = false from hlive] at hexit
    cases hexit
  | accepted hloop hexit hroom =>
    refine hs.mono id id id fun _ => Or.inr (Or.inl (Or.inl ?_))
    exact List.append_ne_nil_of_right_ne_nil _ (List.cons_ne_nil _ _)
  | refusedCpu hloop hexit hfull =>
    refine hs.mono id id id fun _ => Or.inr (Or.inl (Or.inl fun hnil => ?_))
    rw [show s.frames = [] from hnil] at hfull
    cases hfull
  | refusedGpu hloop hexit hfull =>
    refine hs.mono id id id fun _ => Or.inr (Or.inl (Or.inl fun hnil => ?_))
    rw [show s.frames = [] from hnil] at hfull
    cases hfull
  | control hthread hcontrol => exact served_control hs hcontrol
  | controlled hthread hcontrol =>
    exact served_pass hs (by rw [hthread]; rfl) (by rw [hthread]; rfl)
  | resized hthread hchanged hvalue =>
    exact served_pass hs (by rw [hthread]; rfl) (by rw [hthread]; rfl)
  | notResized hthread hsame =>
    exact served_pass hs (by rw [hthread]; rfl) (by rw [hthread]; rfl)
  | @drained o width height frame frames hthread hframes =>
    cases frames with
    | cons newer frames =>
      exact hs.mono id id id fun _ => Or.inr (Or.inl (Or.inl (List.cons_ne_nil _ _)))
    | nil =>
      -- the last frame queued is gone
      rcases hok.1 _ _ _ hthread hframes with hnone | howed
      · exact fun _ hasking => absurd hasking hnone
      · exact hs.mono id id id fun _ => Or.inl howed
  | reinitialized hthread hframes hinit =>
    exact served_pass hs (by rw [hthread]; rfl) (by rw [hthread]; rfl)
  | received hthread hframes =>
    exact served_move hs (by rw [hthread]; rfl) (by rw [hthread]; nofun)
      fun _ => Or.inr ⟨_, Or.inl rfl⟩
  | skipped hthread hframes =>
    exact served_move hs (by rw [hthread]; rfl) (by rw [hthread]; nofun)
      fun _ => Or.inr ⟨_, Or.inl rfl⟩
  | newest hthread hframes =>
    exact served_move hs (by rw [hthread]; rfl) (by rw [hthread]; nofun)
      fun _ => Or.inr ⟨_, Or.inr (Or.inl rfl)⟩
  | matched hthread hsize =>
    exact served_move hs (by rw [hthread]; rfl) (by rw [hthread]; nofun)
      fun _ => Or.inr ⟨_, Or.inr (Or.inr rfl)⟩
  | rebuilt hthread hinit =>
    exact served_move hs (by rw [hthread]; rfl) (by rw [hthread]; nofun)
      fun _ => Or.inr ⟨_, Or.inr (Or.inr rfl)⟩
  | failed hthread => exact nofun
  | controlledAgain hthread hcontrol =>
    intro _ hasking
    obtain ⟨htold, -⟩ := hs (by rw [hthread]; rfl) hasking
    -- the queue is empty, so the message has been read
    have hflag : s.forceKeyframe = true := by
      refine htold.resolve_left ?_
      rw [hcontrol]
      exact List.not_mem_nil
    exact ⟨Or.inr hflag, Or.inr (Or.inr ⟨⟨_, rfl⟩, hflag⟩)⟩
  | submitted hthread hsubmit =>
    refine served_submitted hforced hs hthread hsubmit ?_
    have hcarries := hok.2 _ hthread
    rw [hsubmit] at hcarries
    exact hcarries
  | store hr =>
    refine hs.mono id ?_ id fun _ => Or.inl (Or.inr (Or.inl rfl))
    rintro ⟨r', hr'⟩
    refine ⟨r', ?_⟩
    dsimp only at hr'
    rw [Function.update_apply] at hr'
    split at hr'
    · cases hr'
    · exact hr'
  | send hr hroom =>
    exact fun hlive _ => ⟨Or.inl (mem_pushControl_self hlive hroom), hok⟩
  | changeBitrate => exact hs.mono id id (Or.imp_left mem_pushControl) id

/-- **No keyframe request is lost where nothing loses its carrier.** In
every run whose steps all carry, every quiescent state's requests are
answered once they are sent. -/
theorem keyframe_requests_answered
    (hforced : ∀ e frame o e' packets, V.submit e frame true o = (e', some packets) →
      ∃ p ∈ packets, p.isKeyframe = true)
    (hr : (machine ι ρ c V).Reach (Carries c V) s) (hq : s.Quiescent) :
    ∀ r, s.requests r ≠ .sent := by
  have hserved : s.Served := by
    refine hr.invariant (fun t ht _ hasking => ?_) fun _ _ _ hok hstep =>
      served_step hforced (trans_of_step hstep) hok
    obtain ⟨r, hr⟩ := hasking
    rw [ht.requests] at hr
    cases hr
  intro r hsent
  obtain ⟨-, hcoming⟩ := hserved (by rw [hq.thread]; rfl) ⟨r, hsent⟩
  -- in a quiescent state nothing is to come
  rcases hcoming with (hd | hf | hcapturing) | (hframes | ⟨frame, ht⟩) | ⟨⟨frame, ht⟩, -⟩
  · exact hd hq.damage
  · rw [hq.forceRender] at hf
    cases hf
  · exact absurd hcapturing (State.not_capturing_top hq.loop)
  · exact hframes hq.frames
  · rw [hq.thread] at ht
    rcases ht with ht | ht | ht <;> cases ht
  · rw [hq.thread] at ht
    cases ht

end Runs

/-- What x264 gives for a frame tagged `I`. -/
theorem x264_forced (scaler : Scaler) : ∀ e frame o e' packets,
    (x264 scaler).submit e frame true o = (e', some packets) → ∃ p ∈ packets, p.isKeyframe = true := by
  intro e frame o e' packets h
  cases frame with
  | cpu raw => exact X264Encoder.submit_forced h
  | gpu dmabuf width height => cases h

/-- A request made as the first frame is captured is answered by it. -/
theorem keyframe_requests_answered_first : ∃ s : State Unit Unit X264Encoder,
    s.Quiescent ∧ s.requests () = .answered ∧ ∀ r, s.requests r ≠ .sent := by
  have hrun : ∃ s : State Unit Unit X264Encoder,
      (machine Unit Unit someConfig (x264 someScaler)).Run (Carries someConfig (x264 someScaler))
        (start 2 4 someEncoder)
        [.store (), .tick, .send (), .loop .drawn, .loop .drawn, .encoder {}, .encoder {},
          .encoder {}, .encoder {}, .encoder {}, .encoder {}, .encoder {}, .encoder {}, .encoder {},
          .encoder {}] s ∧
      s.Quiescent ∧ s.requests () = .answered := by
    refine ⟨_, ⟨trivial, _, rfl, trivial, _, rfl, Or.inl (Or.inr (Or.inr (Or.inr (Or.inl rfl)))), _, rfl,
      fun _ => Or.inl rfl, _, rfl, nofun, _, rfl, ⟨nofun, nofun⟩, _, rfl, ⟨nofun, nofun⟩, _, rfl,
      ⟨nofun, nofun⟩, _, rfl, ⟨nofun, nofun⟩, _, rfl, ⟨nofun, nofun⟩, _, rfl, ⟨nofun, nofun⟩, _, rfl,
      ⟨nofun, nofun⟩, _, rfl, ⟨nofun, fun _ h => Or.inl ?_⟩, _, rfl, ⟨nofun, nofun⟩, _, rfl,
      ⟨nofun, nofun⟩, _, rfl, rfl⟩, ⟨rfl, rfl, rfl, rfl, rfl⟩, rfl⟩
    cases h
    nofun
  obtain ⟨s, hrun, hq, hanswered⟩ := hrun
  exact ⟨s, hq, hanswered, keyframe_requests_answered (x264_forced _)
    (Machine.Reach.run _ (.start someStarted) hrun) hq⟩

/-- After the first frame, a keyframe, the flag of a request is stored, its
frame captured and encoded as a delta frame, and only then the message
sent: it waits at the encoder, and no frame comes. -/
theorem keyframe_request_lost : ¬ ∀ s : State Unit Unit X264Encoder,
    (machine Unit Unit someConfig (x264 someScaler)).Reach (NoFailure (x264 someScaler)) s →
      s.Quiescent → ∀ r, s.requests r ≠ .sent := by
  intro h
  have hrun : ∃ s : State Unit Unit X264Encoder,
      (machine Unit Unit someConfig (x264 someScaler)).Run (NoFailure (x264 someScaler))
        (start 2 4 someEncoder)
        [.tick, .loop .drawn, .loop .drawn, .encoder {}, .encoder {}, .encoder {}, .encoder {},
          .encoder {}, .encoder {}, .encoder { packet := ([], true) },
          .store (), .tick, .loop .drawn, .loop .drawn, .encoder {}, .encoder {}, .encoder {},
          .encoder {}, .encoder {}, .encoder {}, .encoder {},
          .send (), .encoder {}, .encoder {}, .encoder {}] s ∧
      s.Quiescent ∧ s.requests () = .sent := by
    refine ⟨_, ⟨trivial, _, rfl, fun _ => rfl, _, rfl, nofun, _, rfl, nofun, _, rfl, nofun, _, rfl,
      nofun, _, rfl, nofun, _, rfl, nofun, _, rfl, nofun, _, rfl, fun _ h => ?_, _, rfl,
      trivial, _, rfl, trivial, _, rfl, fun _ => rfl, _, rfl, nofun, _, rfl, nofun, _, rfl,
      nofun, _, rfl, nofun, _, rfl, nofun, _, rfl, nofun, _, rfl, nofun, _, rfl, fun _ h => ?_, _, rfl,
      trivial, _, rfl, nofun, _, rfl, nofun, _, rfl, nofun, _, rfl, rfl⟩, ⟨rfl, rfl, rfl, rfl, rfl⟩,
      rfl⟩
    · cases h
      nofun
    · cases h
      nofun
  obtain ⟨s, hrun, hq, hsent⟩ := hrun
  exact h s (Machine.Reach.run _ (.start someStarted) hrun) hq () hsent

end Pipeline

end WaylandWebStream
