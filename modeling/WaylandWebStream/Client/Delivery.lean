import WaylandWebStream.Client.Channel

/-!
# Delivery — what goes out on which socket

A socket that opens should carry `ready` and then what was sent for it, and
the phase should be the newest socket's. So it is as long as a socket opens
only while it is the newest, with nothing queued for an earlier one, and no
earlier socket closes under a newer one that is in use (`delivers_iff`): the
handlers do not ask whose they are. A `close` event that comes after a new
`connect` takes the new socket away from the channel.
-/

namespace WaylandWebStream

namespace ClientChannel

open Clipboard (Phase)

variable {μ : Type*} {proto : Protocol μ} {s s' : State} {k j : ℕ} {ws : Socket} {frame : Frame}
  {a : Action μ}

/-- **What the channel owes.** -/
structure Delivers (proto : Protocol μ) (s : State) : Prop where
  /-- A socket that opened carries `ready` and what was sent for it, once and
  in order; one that did not carries nothing. -/
  delivered : ∀ (k : ℕ) (ws : Socket), s.sockets[k]? = some ws →
    ws.delivered = if ws.opened then proto.readyFrame :: s.sentFor k else []
  /-- The phase describes the newest socket. -/
  phase : s.phase = s.newestPhase
  /-- Calls are told apart. -/
  numbered : ∀ (n : ℕ) (frame : Frame), s.sends[n]? = some frame → frame.call = some n

/-- A socket opens while it is the newest and nothing is queued for another;
an earlier socket closes when the newest is done with. -/
def DeliverOk (s : State) : Action μ → Prop
  | .opens k => k = s.newest ∧ ∀ frame ∈ s.sendQueue, frame.socket = some k
  | .closes k => k = s.newest ∨ s.phase = .closed
  | _ => True

/-! ## Bookkeeping -/

/-- What a socket that has not begun to close knows of its past. -/
structure Socket.Sound (ws : Socket) : Prop where
  connecting : ws.readyState = .connecting → ws.opened = false ∧ ws.shut = false
  isOpen : ws.readyState = .open → ws.opened = true ∧ ws.shut = false

/-- The socket the channel should hold. -/
def State.live (s : State) : Option ℕ :=
  match s.newestPhase with
  | .connecting | .open => some s.newest
  | .idle | .closed => none

/-- What every run that delivers keeps. -/
structure Kept (s : State) : Prop where
  ws : s.ws = s.live
  sound : ∀ (k : ℕ) (ws : Socket), s.sockets[k]? = some ws → ws.Sound
  queued : ∀ frame ∈ s.sendQueue, frame ∈ s.sends
  /-- Calls are for sockets there are, or for the first one. -/
  bound : ∀ frame ∈ s.sends, ∀ k, frame.socket = some k → k ≤ s.newest
  /-- What was sent for a socket that has not opened is queued. -/
  waiting : s.newestPhase = .connecting ∨ s.sockets = [] →
    (s.sendQueue.filter fun frame => frame.socket = some s.newest) = s.sentFor s.newest

/-! ### The newest socket -/

theorem newest_lt (h : s.sockets ≠ []) : s.newest < s.sockets.length := by
  have hpos : 0 < s.sockets.length := List.length_pos_iff.2 h
  unfold State.newest
  omega

theorem exists_newest (h : s.sockets ≠ []) : ∃ ws, s.sockets[s.newest]? = some ws :=
  ⟨_, List.getElem?_eq_getElem (newest_lt h)⟩

theorem ne_nil_of_getElem? (h : s.sockets[k]? = some ws) : s.sockets ≠ [] := by
  intro hnil
  rw [hnil] at h
  simp at h

theorem newestPhase_of (h : s.sockets[s.newest]? = some ws) : s.newestPhase = ws.phase := by
  rw [State.newestPhase, h]

theorem newestPhase_nil (h : s.sockets = []) :
    s.newestPhase = if s.closedByCaller then .closed else .idle := by
  simp [State.newestPhase, h]

theorem Socket.phase_ne_idle : ws.phase ≠ .idle := by
  unfold Socket.phase
  split
  · simp
  · split <;> simp

theorem phase_of_connecting (hsound : ws.Sound) (h : ws.readyState = .connecting) :
    ws.phase = .connecting := by
  obtain ⟨hopened, hshut⟩ := hsound.connecting h
  simp [Socket.phase, h, hopened, hshut]

theorem opened_of_phase_connecting (h : ws.phase = .connecting) : ws.opened = false := by
  unfold Socket.phase at h
  split at h
  · cases h
  · split at h
    · cases h
    · rename_i hopened
      simpa using hopened

theorem sockets_eq_nil_of_idle (h : s.newestPhase = .idle) : s.sockets = [] := by
  by_contra hne
  obtain ⟨ws, hws⟩ := exists_newest hne
  rw [newestPhase_of hws] at h
  exact Socket.phase_ne_idle h

/-! ### One socket changes -/

theorem getElem?_modify_some {f : Socket → Socket}
    (h : (s.sockets.modify k f)[j]? = some ws) :
    ∃ ws₀, s.sockets[j]? = some ws₀ ∧ ws = if k = j then f ws₀ else ws₀ := by
  rw [List.getElem?_modify] at h
  obtain ⟨ws₀, hws₀, rfl⟩ := Option.map_eq_some_iff.1 h
  exact ⟨ws₀, hws₀, rfl⟩

theorem newest_modify {f : Socket → Socket} (h : s'.sockets = s.sockets.modify k f) :
    s'.newest = s.newest := by
  rw [State.newest, h, List.length_modify, State.newest]

/-- A change that leaves a socket's phase leaves the newest one's. -/
theorem newestPhase_modify {f : Socket → Socket} (hsockets : s'.sockets = s.sockets.modify k f)
    (hcaller : s'.closedByCaller = s.closedByCaller)
    (hf : ∀ ws, s.sockets[k]? = some ws → (f ws).phase = ws.phase) :
    s'.newestPhase = s.newestPhase := by
  rw [State.newestPhase, newest_modify hsockets, hsockets, List.getElem?_modify, State.newestPhase,
    hcaller]
  rcases hws : s.sockets[s.newest]? with _ | ws
  · rfl
  · by_cases hk : k = s.newest
    · subst hk
      simp [hf ws hws]
    · simp [hk]

theorem live_congr (hphase : s'.newestPhase = s.newestPhase) (hnewest : s'.newest = s.newest) :
    s'.live = s.live := by
  rw [State.live, hphase, hnewest, State.live]

/-! ### Calls -/

theorem sentFor_append (sends : List Frame) (frame : Frame) (k : ℕ) :
    ((sends ++ [frame]).filter fun frame => frame.socket = some k) =
      (sends.filter fun frame => frame.socket = some k) ++
        if frame.socket = some k then [frame] else [] := by
  rw [List.filter_append]
  congr 1
  by_cases hk : frame.socket = some k <;> simp [hk]

theorem numbered_append (h : Delivers proto s) {n : ℕ} (hframe : frame.call = some s.sends.length)
    {other : Frame} (hn : (s.sends ++ [frame])[n]? = some other) : other.call = some n := by
  rcases Nat.lt_or_ge n s.sends.length with hlt | hge
  · rw [List.getElem?_append_left hlt] at hn
    exact h.numbered n other hn
  · rw [List.getElem?_append_right hge, List.getElem?_singleton] at hn
    split at hn
    · obtain rfl := Option.some.inj hn
      rw [hframe]
      congr 1
      omega
    · cases hn

/-- The frame of a call. -/
def State.frameOf (s : State) (bytes : Bytes) : Frame := ⟨some s.sends.length, s.target, bytes⟩

variable {bytes : Bytes}

/-- Before the socket is open a call is queued. -/
theorem call_waiting (h : s.phase = .idle ∨ s.phase = .connecting) :
    s.call bytes = { s with
      sends := s.sends ++ [s.frameOf bytes], sendQueue := s.sendQueue ++ [s.frameOf bytes] } := by
  have hnot : ¬ (s.phase = .open ∧ s.IsOpen s.ws) := by
    rintro ⟨hopen, -⟩
    rw [hopen] at h
    simp at h
  exact (if_neg hnot).trans (if_pos h)

/-- Once it is, it goes out. -/
theorem call_open (hphase : s.phase = .open) (hws : s.ws = some k) (hopen : s.IsOpen (some k)) :
    s.call bytes = { s with
      sends := s.sends ++ [s.frameOf bytes],
      sockets := s.sockets.modify k (·.send (s.frameOf bytes)) } := by
  rw [← hws] at hopen
  refine (if_pos ⟨hphase, hopen⟩).trans ?_
  dsimp only
  rw [hws]
  rfl

/-- And while it is closing, or closed, a call is dropped. -/
theorem call_dropped (hphase : s.phase = .open ∨ s.phase = .closed)
    (hopen : s.phase = .open → ¬ s.IsOpen s.ws) :
    s.call bytes = { s with sends := s.sends ++ [s.frameOf bytes] } := by
  refine (if_neg fun h => hopen h.1 h.2).trans (if_neg ?_)
  rcases hphase with h | h <;> simp [h]

/-- **A call while the socket is awaited** is kept for it. -/
theorem deliver_waiting (h : Delivers proto s) (hkept : Kept s)
    (hphase : s.phase = .idle ∨ s.phase = .connecting) :
    Delivers proto (s.call bytes) ∧ Kept (s.call bytes) := by
  have htarget : s.target = some s.newest := by
    rw [h.phase] at hphase
    rcases hphase with hphase | hphase <;> rw [State.target, hphase]
  rw [call_waiting hphase]
  refine ⟨⟨fun k ws hws => ?_, h.phase, fun n other => numbered_append h rfl⟩,
    ⟨hkept.ws, hkept.sound, fun frame hframe => ?_, fun frame hframe k hk => ?_, fun hw => ?_⟩⟩
  · have hold := h.delivered k ws hws
    rcases hopened : ws.opened with _ | _
    · simpa [hopened] using hold
    · -- a socket that has opened is an earlier one: the newest is still awaited
      have hne : s.newest ≠ k := by
        rintro rfl
        rw [h.phase, newestPhase_of (s := s) hws] at hphase
        rcases hphase with hidle | hconnecting
        · exact Socket.phase_ne_idle hidle
        · rw [opened_of_phase_connecting hconnecting] at hopened
          cases hopened
      have hnot : (s.frameOf bytes).socket ≠ some k := by
        rw [State.frameOf, htarget]
        simpa using hne
      rw [hopened] at hold
      rw [hold, State.sentFor, State.sentFor, sentFor_append, if_neg hnot, List.append_nil]
  · rcases List.mem_append.1 hframe with hold | hnew
    · exact List.mem_append_left _ (hkept.queued frame hold)
    · exact List.mem_append_right _ hnew
  · rcases List.mem_append.1 hframe with hold | hnew
    · exact hkept.bound frame hold k hk
    · rw [List.mem_singleton.1 hnew, State.frameOf, htarget] at hk
      exact (Option.some.inj hk).ge
  · have hold := hkept.waiting hw
    rw [State.sentFor] at hold ⊢
    rw [sentFor_append, sentFor_append]
    exact congrArg (· ++ _) hold

/-- **A call while the socket is open** goes out on it. -/
theorem deliver_open (h : Delivers proto s) (hkept : Kept s) (hphase : s.phase = .open)
    (hopen : s.IsOpen (some s.newest)) :
    Delivers proto (s.call bytes) ∧ Kept (s.call bytes) := by
  have hnewest : s.newestPhase = .open := h.phase.symm.trans hphase
  have hws : s.ws = some s.newest := by
    rw [hkept.ws, State.live, hnewest]
  have hsocket : (s.frameOf bytes).socket = some s.newest := by
    rw [State.frameOf, State.target, hnewest]
    exact if_pos hopen
  rw [call_open hphase hws hopen]
  have hkeep : State.newestPhase { s with
      sends := s.sends ++ [s.frameOf bytes],
      sockets := s.sockets.modify s.newest (·.send (s.frameOf bytes)) } = s.newestPhase := by
    refine newestPhase_modify rfl rfl fun ws _ => ?_
    unfold Socket.send
    split <;> rfl
  refine ⟨⟨fun k ws hws' => ?_, hphase.trans (hkeep.trans hnewest).symm,
    fun n other => numbered_append h rfl⟩,
    ⟨?_, fun k ws hws' => ?_, fun frame hframe => ?_, fun frame hframe k hk => ?_, fun hw => ?_⟩⟩
  · obtain ⟨ws₀, hws₀, rfl⟩ := getElem?_modify_some hws'
    have hold := h.delivered k ws₀ hws₀
    rw [State.sentFor, sentFor_append, hsocket]
    -- only the newest socket gets the frame, and it carries `ready` already
    by_cases hk : s.newest = k
    · subst hk
      have hready : ws₀.readyState = .open := by
        rw [State.IsOpen, Option.bind_some, hws₀] at hopen
        exact Option.some.inj hopen
      rw [((hkept.sound _ ws₀ hws₀).isOpen hready).1, if_pos rfl] at hold
      rw [if_pos rfl, if_pos rfl, Socket.send, if_pos hready, hold]
      simp only [((hkept.sound _ ws₀ hws₀).isOpen hready).1, if_pos]
      rfl
    · have hne : some s.newest ≠ some k := by simpa using hk
      rw [if_neg hk, if_neg hne, List.append_nil]
      exact hold
  · exact hkept.ws.trans (live_congr hkeep (newest_modify rfl)).symm
  · obtain ⟨ws₀, hws₀, rfl⟩ := getElem?_modify_some hws'
    have hsound := hkept.sound k ws₀ hws₀
    split
    · unfold Socket.send
      split
      · exact ⟨hsound.connecting, hsound.isOpen⟩
      · exact hsound
    · exact hsound
  · exact List.mem_append_left _ (hkept.queued frame hframe)
  · rw [newest_modify rfl]
    rcases List.mem_append.1 hframe with hold | hnew
    · exact hkept.bound frame hold k hk
    · rw [List.mem_singleton.1 hnew, hsocket] at hk
      exact (Option.some.inj hk).ge
  · rcases hw with hw | hw
    · rw [hkeep, hnewest] at hw
      cases hw
    · rw [newestPhase_nil (List.modify_eq_nil_iff.1 hw)] at hnewest
      split at hnewest <;> cases hnewest

/-- **A call that is dropped** was for no socket. -/
theorem deliver_dropped (h : Delivers proto s) (hkept : Kept s)
    (hphase : s.phase = .open ∨ s.phase = .closed)
    (hopen : s.phase = .open → ¬ s.IsOpen (some s.newest)) :
    Delivers proto (s.call bytes) ∧ Kept (s.call bytes) := by
  have hws : s.phase = .open → ¬ s.IsOpen s.ws := by
    intro ho
    have hnewest : s.newestPhase = .open := h.phase.symm.trans ho
    rw [hkept.ws, State.live, hnewest]
    exact hopen ho
  have hsocket : (s.frameOf bytes).socket = none := by
    rw [h.phase] at hphase hopen
    rcases hphase with hp | hp <;> rw [State.frameOf, State.target, hp]
    exact if_neg (hopen hp)
  have hsent : ∀ k, ((s.sends ++ [s.frameOf bytes]).filter fun frame => frame.socket = some k) =
      s.sentFor k := by
    intro k
    rw [sentFor_append, hsocket, if_neg (by simp), List.append_nil]
    rfl
  rw [call_dropped hphase hws]
  refine ⟨⟨fun k ws hws' => ?_, h.phase, fun n other => numbered_append h rfl⟩,
    ⟨hkept.ws, hkept.sound, fun frame hframe => ?_, fun frame hframe k hk => ?_, fun hw => ?_⟩⟩
  · rw [State.sentFor, hsent]
    exact h.delivered k ws hws'
  · exact List.mem_append_left _ (hkept.queued frame hframe)
  · rcases List.mem_append.1 hframe with hold | hnew
    · exact hkept.bound frame hold k hk
    · rw [List.mem_singleton.1 hnew, hsocket] at hk
      cases hk
  · exact (hkept.waiting hw).trans (hsent _).symm

/-- **Every call** keeps the channel's promise. -/
theorem deliver_call (h : Delivers proto s) (hkept : Kept s) :
    Delivers proto (s.call bytes) ∧ Kept (s.call bytes) := by
  rcases hphase : s.phase with _ | _ | _ | _
  · exact deliver_waiting h hkept (.inl hphase)
  · exact deliver_waiting h hkept (.inr hphase)
  · by_cases hopen : s.IsOpen (some s.newest)
    · exact deliver_open h hkept hphase hopen
    · exact deliver_dropped h hkept (.inl hphase) fun _ => hopen
  · exact deliver_dropped h hkept (.inr hphase) fun ho => by rw [hphase] at ho; cases ho

/-! ### Connecting and closing -/

/-- **A new socket** takes over: whatever was queued for an earlier one is
left in the queue. -/
theorem deliver_openSocket (h : Delivers proto s) (hkept : Kept s) (closedByCaller : Bool) :
    Delivers proto (State.openSocket { s with closedByCaller }) ∧
      Kept (State.openSocket { s with closedByCaller }) := by
  have hnewest : (State.openSocket { s with closedByCaller }).newest = s.sockets.length := by
    simp [State.openSocket, State.newest]
  have hphase : (State.openSocket { s with closedByCaller }).newestPhase = .connecting := by
    have hget : (State.openSocket { s with closedByCaller }).sockets[s.sockets.length]? =
        some {} := List.getElem?_concat_length
    rw [State.newestPhase, hnewest, hget]
    rfl
  have hsockets : ∀ (k : ℕ) (ws : Socket),
      (State.openSocket { s with closedByCaller }).sockets[k]? = some ws →
        s.sockets[k]? = some ws ∨ ws = {} := by
    intro k ws hws
    rcases Nat.lt_or_ge k s.sockets.length with hlt | hge
    · exact .inl ((List.getElem?_append_left hlt).symm.trans hws)
    · rw [State.openSocket, List.getElem?_append_right hge, List.getElem?_singleton] at hws
      split at hws
      · exact .inr (Option.some.inj hws).symm
      · cases hws
  have hle : s.newest ≤ s.sockets.length := Nat.sub_le _ _
  refine ⟨⟨fun k ws hws => ?_, hphase.symm, h.numbered⟩,
    ⟨?_, fun k ws hws => ?_, hkept.queued, fun frame hframe k hk => ?_, fun _ => ?_⟩⟩
  · rcases hsockets k ws hws with hold | rfl
    · exact h.delivered k ws hold
    · rfl
  · rw [State.live, hphase, hnewest]
    rfl
  · rcases hsockets k ws hws with hold | rfl
    · exact hkept.sound k ws hold
    · exact ⟨fun _ => ⟨rfl, rfl⟩, fun hopen => by cases hopen⟩
  · rw [hnewest]
    exact (hkept.bound frame hframe k hk).trans hle
  · rw [hnewest]
    -- what was sent before there was a socket is for the first; later ones start with nothing
    by_cases hnil : s.sockets = []
    · have hwaiting := hkept.waiting (.inr hnil)
      rw [State.newest, hnil] at hwaiting
      rw [hnil]
      exact hwaiting
    · have hlt := newest_lt hnil
      have hnone : ∀ frame ∈ s.sends, frame.socket ≠ some s.sockets.length := by
        intro frame hframe hsocket
        have hle' := hkept.bound frame hframe _ hsocket
        omega
      have hsent : State.sentFor (State.openSocket { s with closedByCaller }) s.sockets.length =
          [] := by
        refine List.filter_eq_nil_iff.2 fun frame hframe => ?_
        simpa using hnone frame hframe
      rw [hsent]
      refine List.filter_eq_nil_iff.2 fun frame hframe => ?_
      simpa using hnone frame (hkept.queued frame hframe)

/-- A socket after the channel's end: what it delivered is what it was. -/
theorem close_socket (hkept : Kept s) (hws : s.close.sockets[k]? = some ws) :
    ∃ ws₀ : Socket, s.sockets[k]? = some ws₀ ∧ ws.opened = ws₀.opened ∧
      ws.delivered = ws₀.delivered ∧ ws.Sound := by
  simp only [State.close] at hws
  split at hws
  · obtain ⟨ws₀, hws₀, rfl⟩ := getElem?_modify_some hws
    refine ⟨ws₀, hws₀, ?_⟩
    split
    · refine ⟨rfl, rfl, ⟨fun hc => ?_, fun ho => ?_⟩⟩
      · simp only [Socket.close] at hc
        split at hc <;> cases hc
      · simp only [Socket.close] at ho
        split at ho <;> cases ho
    · exact ⟨rfl, rfl, hkept.sound k ws₀ hws₀⟩
  · exact ⟨ws, hws, rfl, rfl, hkept.sound k ws hws⟩

theorem length_close : s.close.sockets.length = s.sockets.length := by
  simp only [State.close]
  split
  · exact List.length_modify ..
  · rfl

theorem newest_close : s.close.newest = s.newest := by
  rw [State.newest, length_close, State.newest]

/-- Closed by its caller, the newest socket is of no use any more. -/
theorem newestPhase_close (hkept : Kept s) : s.close.newestPhase = .closed := by
  by_cases hnil : s.sockets = []
  · have hnil' : s.close.sockets = [] := by
      rw [← List.length_eq_zero_iff, length_close, hnil, List.length_nil]
    rw [newestPhase_nil hnil']
    rfl
  · obtain ⟨ws, hws⟩ := exists_newest hnil
    have hlive := hkept.ws
    rw [State.live] at hlive
    rw [State.newestPhase, newest_close]
    split at hlive
    -- the channel holds the newest socket while it is in use, and that is the one closed
    · simp [State.close, hlive, hws, Socket.close, Socket.phase]
    · simp [State.close, hlive, hws, Socket.close, Socket.phase]
    · rename_i hidle
      exact absurd (sockets_eq_nil_of_idle hidle) hnil
    · rename_i hclosed
      rw [newestPhase_of hws] at hclosed
      simp [State.close, hlive, hws, hclosed]

/-- **Closing** the channel closes the socket it holds. -/
theorem deliver_close (h : Delivers proto s) (hkept : Kept s) :
    Delivers proto s.close ∧ Kept s.close := by
  have hphase := newestPhase_close hkept
  refine ⟨⟨fun k ws hws => ?_, hphase.symm, fun n frame hframe => ?_⟩,
    ⟨?_, fun k ws hws => ?_, fun frame hframe => ?_, fun frame hframe k hk => ?_, fun hw => ?_⟩⟩
  · obtain ⟨ws₀, hws₀, hopened, hdelivered, -⟩ := close_socket hkept hws
    have hold := h.delivered k ws₀ hws₀
    have hsent : s.close.sentFor k = s.sentFor k := by
      simp only [State.sentFor, State.close]
      rw [if_neg (ne_nil_of_getElem? hws₀)]
    rw [hdelivered, hopened, hsent]
    exact hold
  · -- before there is a socket the calls are made void, and keep their numbers
    simp only [State.close] at hframe
    split at hframe
    · rw [List.getElem?_map, Option.map_eq_some_iff] at hframe
      obtain ⟨frame₀, hframe₀, rfl⟩ := hframe
      exact h.numbered n frame₀ hframe₀
    · exact h.numbered n frame hframe
  · rw [State.live, hphase]
    rfl
  · obtain ⟨-, -, -, -, hsound⟩ := close_socket hkept hws
    exact hsound
  · cases hframe
  · rw [newest_close]
    simp only [State.close] at hframe
    split at hframe
    · obtain ⟨frame₀, -, rfl⟩ := List.mem_map.1 hframe
      cases hk
    · exact hkept.bound frame hframe k hk
  · rcases hw with hw | hw
    · rw [hphase] at hw
      cases hw
    · rw [← List.length_eq_zero_iff, length_close, List.length_eq_zero_iff] at hw
      simp [State.close, State.sentFor, hw]

/-! ### Events of a socket -/

/-- A socket that begins to close is the channel's until it is closed. -/
theorem deliver_closing (h : Delivers proto s) (hkept : Kept s) (hws : s.sockets[k]? = some ws)
    (hready : ws.readyState = .connecting ∨ ws.readyState = .open)
    (hs' : s' = { s with
      sockets := s.sockets.modify k fun ws => { ws with readyState := .closing } }) :
    Delivers proto s' ∧ Kept s' := by
  subst hs'
  have hkeep : State.newestPhase { s with
      sockets := s.sockets.modify k fun ws => { ws with readyState := .closing } } =
        s.newestPhase := by
    refine newestPhase_modify rfl rfl fun ws' hws' => ?_
    obtain rfl := Option.some.inj (hws.symm.trans hws')
    rcases hready with hready | hready <;> simp [Socket.phase, hready]
  have hnewest : State.newest { s with
      sockets := s.sockets.modify k fun ws => { ws with readyState := .closing } } = s.newest :=
    newest_modify rfl
  refine ⟨⟨fun j ws' hws' => ?_, h.phase.trans hkeep.symm, h.numbered⟩,
    ⟨hkept.ws.trans (live_congr hkeep hnewest).symm, fun j ws' hws' => ?_, hkept.queued,
      fun frame hframe j hj => ?_, fun hw => ?_⟩⟩
  · obtain ⟨ws₀, hws₀, rfl⟩ := getElem?_modify_some hws'
    have hold := h.delivered j ws₀ hws₀
    split <;> exact hold
  · obtain ⟨ws₀, hws₀, rfl⟩ := getElem?_modify_some hws'
    split
    · exact ⟨fun hc => (by cases hc), fun ho => (by cases ho)⟩
    · exact hkept.sound j ws₀ hws₀
  · rw [hnewest]
    exact hkept.bound frame hframe j hj
  · rw [hkeep] at hw
    have hold := hkept.waiting (hw.imp_right List.modify_eq_nil_iff.1)
    rw [hnewest]
    exact hold

/-- **A socket that is closed** takes the channel with it, whichever it is. -/
theorem deliver_closes (h : Delivers proto s) (hkept : Kept s) (hws : s.sockets[k]? = some ws)
    (hs' : s' = State.handleClose { s with
      sockets := s.sockets.modify k fun ws => { ws with readyState := .closed } }) :
    (Delivers proto s' ↔ k = s.newest ∨ s.phase = .closed) ∧ (Delivers proto s' → Kept s') := by
  subst hs'
  set s' := State.handleClose { s with
    sockets := s.sockets.modify k fun ws => { ws with readyState := .closed } } with hs'
  have hnewest : s'.newest = s.newest := newest_modify rfl
  have hphase : s'.newestPhase = .closed ↔ k = s.newest ∨ s.phase = .closed := by
    obtain ⟨ws₀, hws₀⟩ := exists_newest (ne_nil_of_getElem? hws)
    -- the phase is closed now, and the newest socket's is if it is this one, or was before
    by_cases hk : k = s.newest
    · subst hk
      have hclosed : s'.sockets[s.newest]? = some { ws₀ with readyState := .closed } := by
        rw [hs', State.handleClose, List.getElem?_modify_eq, hws₀]
        rfl
      refine iff_of_true ?_ (.inl rfl)
      rw [State.newestPhase, hnewest, hclosed]
      simp [Socket.phase]
    · have hsame : s'.sockets[s.newest]? = some ws₀ := by
        rw [hs', State.handleClose, List.getElem?_modify_ne _ _ hk, hws₀]
      rw [State.newestPhase, hnewest, hsame, h.phase, newestPhase_of hws₀]
      simp [hk]
  refine ⟨⟨fun h' => hphase.1 h'.phase.symm, fun hok => ⟨fun j ws' hws' => ?_, (hphase.2 hok).symm,
    h.numbered⟩⟩, fun h' => ⟨?_, fun j ws' hws' => ?_, fun frame hframe => (by cases hframe),
      fun frame hframe j hj => ?_, fun hw => ?_⟩⟩
  · obtain ⟨ws₀, hws₀, rfl⟩ := getElem?_modify_some hws'
    have hold := h.delivered j ws₀ hws₀
    split <;> exact hold
  · rw [State.live, ← h'.phase]
    rfl
  · obtain ⟨ws₀, hws₀, rfl⟩ := getElem?_modify_some hws'
    split
    · exact ⟨fun hc => (by cases hc), fun ho => (by cases ho)⟩
    · exact hkept.sound j ws₀ hws₀
  · rw [hnewest]
    exact hkept.bound frame hframe j hj
  · rcases hw with hw | hw
    · rw [← h'.phase] at hw
      cases hw
    · exact absurd (List.modify_eq_nil_iff.1 hw) (ne_nil_of_getElem? hws)

/-- A socket that has opened, with what has gone out on it by then. -/
def Socket.openedWith (ws : Socket) (out : List Frame) : Socket :=
  ⟨.open, true, ws.shut, ws.delivered ++ out⟩

/-- What is queued goes out on an open socket as it stands. -/
theorem foldl_send (queue : List Frame) (hready : ws.readyState = .open) :
    queue.foldl Socket.send ws = { ws with delivered := ws.delivered ++ queue } := by
  induction queue generalizing ws with
  | nil => simp
  | cons frame queue ih =>
    have hframe : ws.send frame = { ws with delivered := ws.delivered ++ [frame] } := if_pos hready
    rw [List.foldl_cons, hframe, @ih { ws with delivered := ws.delivered ++ [frame] } hready]
    simp

/-- A socket that opens, when the channel holds it. -/
theorem onOpen_own (hws : s.sockets[k]? = some ws) (hown : s.ws = some k) :
    State.onOpen proto { s with sockets := s.sockets.modify k Socket.establish } k = { s with
      phase := .open
      sendQueue := []
      sockets := s.sockets.modify k (·.openedWith (proto.readyFrame :: s.sendQueue)) } := by
  have hopen : State.IsOpen { s with
      phase := .open, sockets := s.sockets.modify k Socket.establish } s.ws := by
    simp [State.IsOpen, hown, hws, Socket.establish]
  have hpost : State.post { s with
      phase := .open, sockets := s.sockets.modify k Socket.establish } proto.readyFrame = { s with
        phase := .open
        sockets := (s.sockets.modify k Socket.establish).modify k (·.send proto.readyFrame) } := by
    refine (if_pos ⟨rfl, hopen⟩).trans ?_
    dsimp only
    rw [hown]
  rw [State.onOpen]
  dsimp only
  rw [hpost, List.modify_modify_eq, List.modify_modify_eq]
  congr 2
  funext ws
  have hready : (ws.establish.send proto.readyFrame).readyState = .open := rfl
  simp only [Function.comp_apply]
  rw [foldl_send _ hready]
  simp [Socket.send, Socket.establish, Socket.openedWith]

/-- And when it does not: the queue goes out on it, without `ready`. -/
theorem onOpen_other (proto : Protocol μ) (hws : s.sockets[k]? = some ws) (hother : s.ws ≠ some k) :
    (State.onOpen proto { s with sockets := s.sockets.modify k Socket.establish } k).sockets[k]? =
      some (ws.openedWith s.sendQueue) := by
  have hpost : (State.post { s with
      phase := .open, sockets := s.sockets.modify k Socket.establish }
        proto.readyFrame).sockets[k]? = some ws.establish ∧
      (State.post { s with
        phase := .open, sockets := s.sockets.modify k Socket.establish }
          proto.readyFrame).sendQueue = s.sendQueue := by
    have hget : (s.sockets.modify k Socket.establish)[k]? = some ws.establish := by
      rw [List.getElem?_modify_eq, hws]
      rfl
    unfold State.post
    split
    · dsimp only
      split
      · rename_i j hj
        have hne : j ≠ k := by
          rintro rfl
          exact hother hj
        exact ⟨(List.getElem?_modify_ne _ _ hne).trans hget, rfl⟩
      · exact ⟨hget, rfl⟩
    · rw [if_neg (by simp)]
      exact ⟨hget, rfl⟩
  rw [State.onOpen]
  dsimp only
  rw [List.getElem?_modify_eq, hpost.1, hpost.2]
  exact congrArg some (foldl_send _ rfl)

/-- **The newest socket opens**: it gets what is its own exactly when nothing
is queued for another. -/
theorem deliver_opens_newest (h : Delivers proto s) (hkept : Kept s)
    (hws : s.sockets[s.newest]? = some ws) (hready : ws.readyState = .connecting)
    (hs' : s' = State.onOpen proto
      { s with sockets := s.sockets.modify s.newest Socket.establish } s.newest) :
    (Delivers proto s' ↔ ∀ frame ∈ s.sendQueue, frame.socket = some s.newest) ∧
      (Delivers proto s' → Kept s') := by
  have hsound := hkept.sound _ ws hws
  have hdelivered : ws.delivered = [] := by
    rw [h.delivered _ ws hws, (hsound.connecting hready).1]
    rfl
  have hconnecting : s.newestPhase = .connecting :=
    (newestPhase_of hws).trans (phase_of_connecting hsound hready)
  have hown : s.ws = some s.newest := by
    rw [hkept.ws, State.live, hconnecting]
  rw [onOpen_own hws hown] at hs'
  have hsockets : s'.sockets =
      s.sockets.modify s.newest (·.openedWith (proto.readyFrame :: s.sendQueue)) := by
    rw [hs']
  have hsent : ∀ j, s'.sentFor j = s.sentFor j := by
    intro j
    rw [hs']
    rfl
  have hget : s'.sockets[s.newest]? =
      some ⟨.open, true, ws.shut, proto.readyFrame :: s.sendQueue⟩ := by
    rw [hsockets, List.getElem?_modify_eq, hws]
    simp [Socket.openedWith, hdelivered]
  have hnewest : s'.newest = s.newest := newest_modify hsockets
  have hphase : s'.newestPhase = .open := by
    rw [State.newestPhase, hnewest, hget]
    simp [Socket.phase, (hsound.connecting hready).2]
  have hwaiting := hkept.waiting (.inl hconnecting)
  refine ⟨⟨fun h' frame hframe => ?_, fun hok => ⟨fun j ws' hws' => ?_, ?_, ?_⟩⟩,
    fun h' => ⟨?_, fun j ws' hws' => ?_, ?_, fun frame hframe j hj => ?_, fun hw => ?_⟩⟩
  · have hall := h'.delivered _ _ hget
    rw [hsent, if_pos rfl] at hall
    have hqueue : s.sendQueue = s.sentFor s.newest := (List.cons.inj hall).2
    rw [hqueue] at hframe
    simpa using (List.mem_filter.1 hframe).2
  · -- with nothing queued for another socket the queue is what was sent for this one
    have hqueue : s.sendQueue = s.sentFor s.newest := by
      rw [← hwaiting]
      exact (List.filter_eq_self.2 fun frame hframe => by simpa using hok frame hframe).symm
    rw [hsent]
    by_cases hj : s.newest = j
    · subst hj
      obtain rfl := Option.some.inj (hget.symm.trans hws')
      rw [← hqueue]
      rfl
    · rw [hsockets, List.getElem?_modify_ne _ _ hj] at hws'
      exact h.delivered j ws' hws'
  · rw [hphase, hs']
  · rw [hs']
    exact h.numbered
  · rw [State.live, hphase, hnewest, hs']
    exact hown
  · rw [hsockets] at hws'
    obtain ⟨ws₀, hws₀, rfl⟩ := getElem?_modify_some hws'
    split
    · rename_i hj
      obtain rfl := Option.some.inj (hws.symm.trans (hj ▸ hws₀))
      exact ⟨fun hc => (by cases hc), fun _ => ⟨rfl, (hsound.connecting hready).2⟩⟩
    · exact hkept.sound j ws₀ hws₀
  · rw [hs']
    intro frame hframe
    cases hframe
  · rw [hnewest]
    rw [hs'] at hframe
    exact hkept.bound frame hframe j hj
  · rcases hw with hw | hw
    · rw [hphase] at hw
      cases hw
    · rw [hsockets] at hw
      exact absurd (List.modify_eq_nil_iff.1 hw) (ne_nil_of_getElem? hws)

/-- **An older socket opens** and gets the queue, but no `ready`. -/
theorem deliver_opens_older (h : Delivers proto s) (hkept : Kept s)
    (hws : s.sockets[k]? = some ws) (hready : ws.readyState = .connecting) (hk : k ≠ s.newest) :
    ¬ Delivers proto
      (State.onOpen proto { s with sockets := s.sockets.modify k Socket.establish } k) := by
  intro h'
  have hother : s.ws ≠ some k := by
    rw [hkept.ws, State.live]
    split <;> simp [Ne.symm hk]
  have hdelivered : ws.delivered = [] := by
    rw [h.delivered k ws hws, ((hkept.sound k ws hws).connecting hready).1]
    rfl
  have hget := onOpen_other proto hws hother
  rw [Socket.openedWith, hdelivered, List.nil_append] at hget
  have hall := h'.delivered k _ hget
  rw [if_pos rfl] at hall
  -- The first of what went out is a call's, and `ready` is no call's.
  have hmem : proto.readyFrame ∈ s.sendQueue := by
    dsimp only at hall
    rw [hall]
    exact List.mem_cons_self
  obtain ⟨n, hn⟩ := List.mem_iff_getElem?.1 (hkept.queued _ hmem)
  exact absurd (h.numbered n _ hn) (by simp [Protocol.readyFrame])

/-- **A socket that opens** gets what is its own exactly when the channel
holds it and nothing is queued for another. -/
theorem deliver_opens (h : Delivers proto s) (hkept : Kept s) (hws : s.sockets[k]? = some ws)
    (hready : ws.readyState = .connecting)
    (hs' : s' = State.onOpen proto { s with sockets := s.sockets.modify k Socket.establish } k) :
    (Delivers proto s' ↔ k = s.newest ∧ ∀ frame ∈ s.sendQueue, frame.socket = some k) ∧
      (Delivers proto s' → Kept s') := by
  by_cases hk : k = s.newest
  · subst hk
    obtain ⟨hiff, hkept'⟩ := deliver_opens_newest h hkept hws hready hs'
    exact ⟨hiff.trans (and_iff_right rfl).symm, hkept'⟩
  · have hnot : ¬ Delivers proto s' := hs' ▸ deliver_opens_older h hkept hws hready hk
    exact ⟨iff_of_false hnot fun hok => hk hok.1, fun h' => absurd h' hnot⟩

/-! ## Runs -/

/-- **One step** of a channel that delivers delivers exactly when it is
admitted. -/
theorem deliver_step (h : Delivers proto s) (hkept : Kept s) (hstep : step proto s a = some s') :
    (Delivers proto s' ↔ DeliverOk s a) ∧ (Delivers proto s' → Kept s') := by
  cases a with
  | connect =>
    obtain rfl := Option.some.inj hstep
    obtain ⟨h', hkept'⟩ := deliver_openSocket h hkept false
    exact ⟨iff_of_true h' trivial, fun _ => hkept'⟩
  | reconnect =>
    obtain rfl := Option.some.inj hstep
    unfold State.reconnect
    split
    · exact ⟨iff_of_true h trivial, fun _ => hkept⟩
    · obtain ⟨h', hkept'⟩ := deliver_openSocket h hkept s.closedByCaller
      exact ⟨iff_of_true h' trivial, fun _ => hkept'⟩
  | close =>
    obtain rfl := Option.some.inj hstep
    obtain ⟨h', hkept'⟩ := deliver_close h hkept
    exact ⟨iff_of_true h' trivial, fun _ => hkept'⟩
  | send msg =>
    obtain rfl := Option.some.inj hstep
    obtain ⟨h', hkept'⟩ := deliver_call h hkept
    exact ⟨iff_of_true h' trivial, fun _ => hkept'⟩
  | sendClipboardImage mime bytes =>
    obtain rfl := Option.some.inj hstep
    obtain ⟨h', hkept'⟩ := deliver_call h hkept
    exact ⟨iff_of_true h' trivial, fun _ => hkept'⟩
  | opens k =>
    simp only [step] at hstep
    split at hstep
    · rename_i ws hws
      split at hstep
      · rename_i hready
        exact deliver_opens h hkept hws hready (Option.some.inj hstep).symm
      · cases hstep
    · cases hstep
  | closing k =>
    simp only [step] at hstep
    split at hstep
    · rename_i ws hws
      split at hstep
      · rename_i hready
        obtain ⟨h', hkept'⟩ := deliver_closing h hkept hws hready (Option.some.inj hstep).symm
        exact ⟨iff_of_true h' trivial, fun _ => hkept'⟩
      · cases hstep
    · cases hstep
  | closes k =>
    simp only [step] at hstep
    split at hstep
    · rename_i ws hws
      split at hstep
      · exact deliver_closes h hkept hws (Option.some.inj hstep).symm
      · cases hstep
    · cases hstep

theorem delivers_init : Delivers proto {} :=
  ⟨fun k ws hws => (by simp at hws), rfl, fun n frame hn => (by simp at hn)⟩

theorem kept_init : Kept {} :=
  ⟨rfl, fun k ws hws => (by simp at hws), fun frame hframe => (by cases hframe),
    fun frame hframe => (by cases hframe), fun _ => rfl⟩

/-- **A channel delivers throughout a run exactly when** whatever socket opens
is the newest, with nothing queued for another, and none closes under a
newer one in use. -/
theorem delivers_iff {acts : List (Action μ)} (hexec : (machine proto).exec {} acts = some s') :
    (machine proto).Throughout (Delivers proto) {} acts ↔
      (machine proto).Run DeliverOk {} acts s' :=
  (machine proto).throughout_iff_run
    (fun _ _ _ hkept h hstep => (deliver_step h hkept hstep).2)
    (fun _ _ _ hkept h hstep => (deliver_step h hkept hstep).1) kept_init delivers_init hexec

/-- Messages that are their own JSON. -/
def textual : Protocol String := ⟨id, "\x7b\"type\":\"ready\"\x7d"⟩

/-- Calls before, while and after the first socket opens, its end, and a
second one. -/
def twoSockets : List (Action String) :=
  [.send "resize", .connect, .send "move", .opens 0, .sendClipboardImage "image/png" [1, 2],
    .closing 0, .send "late", .closes 0, .reconnect, .send "key", .opens 1, .close, .closes 1]

theorem delivers_iff_twoSockets :
    (machine textual).Throughout (Delivers textual) {} twoSockets := by
  have hexec : (machine textual).exec {} twoSockets = some _ := rfl
  refine (delivers_iff hexec).2 ?_
  exact ⟨trivial, _, rfl, trivial, _, rfl, trivial, _, rfl, ⟨rfl, by decide⟩, _, rfl, trivial, _,
    rfl, trivial, _, rfl, trivial, _, rfl, .inl rfl, _, rfl, trivial, _, rfl, trivial, _, rfl,
    ⟨rfl, by decide⟩, _, rfl, trivial, _, rfl, .inl rfl, _, rfl, rfl⟩

/-- **Not every run delivers**: the first socket's `close` event comes when
the second one is connecting, and leaves the channel closed. -/
theorem not_delivers : ¬ ∀ s, (machine textual).Reachable s → Delivers textual s := by
  intro h
  have hreach := (machine textual).reach_of_exec [.connect, .close, .connect, .closes 0]
    (.start rfl) rfl
  have hphase := (h _ hreach).phase
  revert hphase
  decide

end ClientChannel

end WaylandWebStream
