import WaylandWebStream.Lib.Bytes
import WaylandWebStream.Lib.Machine
import Mathlib.Data.List.Induction

/-!
# Decoder — packets on their way to the native client's decoder

The socket loop puts the packets of a stream into a queue of four, with
`try_send`, and a thread of its own gives them to the decoder. A packet
that finds the queue full is dropped, whatever it is, and nothing holds
back the deltas that come after it. So the deltas decoded follow the
packets before them exactly as long as none is queued right behind a
packet that was not (`reference_chain_iff`).
-/

namespace WaylandWebStream

namespace Native

namespace Decoder

/-- A frame of the stream, as far as the queue and the decoder see it. -/
structure VideoFrame where
  isKeyframe : Bool
  data : Bytes
  deriving DecidableEq

/-- **A packet**: a frame and its place among those received. What is in
the queue is the data; the flag and the place are there to speak of it. -/
structure Packet where
  index : ℕ
  frame : VideoFrame
  deriving DecidableEq

/-- The decoder skips a packet with no data. -/
def Packet.solid (p : Packet) : Bool := !p.frame.data.isEmpty

/-- Where the decoder thread stands. -/
inductive Thread
  /-- In `H264Decoder::new`. -/
  | opening
  /-- In its loop. -/
  | running
  /-- Returned, the receiver dropped. -/
  | gone
  deriving DecidableEq

/-- The socket loop's queue and the thread behind it. What was received
and what was queued are kept; neither is read by a step. -/
structure State where
  received : List VideoFrame
  queue : List Packet
  thread : Thread
  queued : List Packet
  /-- The packets given to the decoder. -/
  decoded : List Packet
  deriving DecidableEq

inductive Action
  /-- A video frame arrives on the socket. -/
  | frame (frame : VideoFrame)
  /-- The decoder is open, or will not open. -/
  | opened (ok : Bool)
  /-- The thread takes the next packet. -/
  | next

/-- `sync_channel(4)`. -/
def packetCapacity : ℕ := 4

namespace State

variable (s : State)

/-- `try_send` succeeds: there is a receiver, and room. -/
def accepts : Bool := s.thread != .gone && s.queue.length < packetCapacity

/-- The packet of a frame received now. -/
def packet (frame : VideoFrame) : Packet := ⟨s.received.length, frame⟩

/-- `handle_frame`, for a video frame. -/
def handleFrame (frame : VideoFrame) : State :=
  if s.accepts then
    { s with
      received := s.received ++ [frame]
      queue := s.queue ++ [s.packet frame]
      queued := s.queued ++ [s.packet frame] }
  else { s with received := s.received ++ [frame] }

/-- `run_decoder_thread`, up to its loop. -/
def opened (ok : Bool) : State :=
  if ok then { s with thread := .running } else { s with thread := .gone, queue := [] }

/-- One round of the loop: a packet with no data is passed over. -/
def decode (p : Packet) (rest : List Packet) : State :=
  { s with queue := rest, decoded := if p.solid then s.decoded ++ [p] else s.decoded }

/-- One step of the socket loop or of the thread. -/
def step : Action → Option State
  | .frame frame => some (s.handleFrame frame)
  | .opened ok => if s.thread = .opening then some (s.opened ok) else none
  | .next =>
    if s.thread = .running then
      match s.queue with
      | [] => none
      | p :: rest => some (s.decode p rest)
    else none

end State

/-- Nothing received, the decoder not open yet. -/
def initial : State := ⟨[], [], .opening, [], []⟩

/-- **The native client's decoding.** -/
def machine : Machine State Action where
  init s := s = initial
  step := State.step

/-! ## The chain -/

/-- **A delta follows what was given before it**: it is the packet
received right after it. -/
def Follows (packets : List Packet) : Prop :=
  ∀ before p after, packets = before ++ p :: after → p.frame.isKeyframe = false →
    ∃ q ∈ before.getLast?, p.index = q.index + 1

/-- **The reference chain** of what was decoded. -/
structure State.ReferenceChain (s : State) : Prop where
  received : ∀ p ∈ s.decoded, s.received[p.index]? = some p.frame
  follows : Follows s.decoded
  /-- A delta behind a packet that was dropped comes behind a keyframe
  decoded in between. -/
  resumes : ∀ i < s.received.length, (∀ q ∈ s.queued, q.index ≠ i) →
    ∀ p ∈ s.decoded, i < p.index → p.frame.isKeyframe = false →
      ∃ k ∈ s.decoded, k.frame.isKeyframe = true ∧ i < k.index ∧ k.index < p.index

/-- The packet received last was queued, and holds data. -/
def State.LastQueued (s : State) : Prop :=
  ∃ q ∈ s.queued, q.solid = true ∧ s.received.length = q.index + 1

instance (s : State) : Decidable s.LastQueued := List.decidableBEx _ _

/-- **No delta is queued behind a gap**: the packet received right before
it was queued, and held data. -/
def Unbroken (s : State) : Action → Prop
  | .frame frame =>
    s.accepts = true → (s.packet frame).solid = true → frame.isKeyframe = false → s.LastQueued
  | .opened _ | .next => True

instance (s : State) : (a : Action) → Decidable (Unbroken s a)
  | .frame frame => inferInstanceAs (Decidable (s.accepts = true → (s.packet frame).solid = true →
      frame.isKeyframe = false → s.LastQueued))
  | .opened _ | .next => inferInstanceAs (Decidable True)

variable {s s' : State} {a : Action} {packets before : List Packet} {p q : Packet} {i : ℕ}

/-! ## Following, packet by packet -/

/-- What is added follows, or is a keyframe. -/
theorem follows_concat : Follows (packets ++ [p]) ↔
    Follows packets ∧
      (p.frame.isKeyframe = false → ∃ q ∈ packets.getLast?, p.index = q.index + 1) :=
  forall_split_concat

theorem Follows.of_prefix (h : Follows packets) (hbefore : before <+: packets) :
    Follows before := by
  obtain ⟨rest, rfl⟩ := hbefore
  intro earlier q after hsplit
  exact h earlier q (after ++ rest) (by simp [hsplit])

/-- **Back along the chain to a keyframe**: from a delta, past every place
that is not in it. -/
theorem Follows.exists_keyframe (h : Follows packets) (hmissing : ∀ q ∈ packets, q.index ≠ i)
    {after : List Packet} (hsplit : packets = before ++ p :: after) (hlt : i < p.index)
    (hdelta : p.frame.isKeyframe = false) :
    ∃ k ∈ packets, k.frame.isKeyframe = true ∧ i < k.index ∧ k.index < p.index := by
  induction before using List.reverseRecOn generalizing p after with
  | nil =>
    obtain ⟨q, hq, -⟩ := h [] p after hsplit hdelta
    cases hq
  | append_singleton before q ih =>
    obtain ⟨q', hq', hindex⟩ := h _ p after hsplit hdelta
    rw [List.getLast?_concat, Option.mem_some_iff] at hq'
    subst hq'
    have hmem : q ∈ packets := by simp [hsplit]
    have hne := hmissing q hmem
    cases hkey : q.frame.isKeyframe with
    | true => exact ⟨q, hmem, hkey, by omega, by omega⟩
    | false =>
      obtain ⟨k, hk, hkeyframe, hik, hkq⟩ :=
        ih (by rw [hsplit, List.append_assoc]; rfl) (by omega) hkey
      exact ⟨k, hk, hkeyframe, hik, by omega⟩

/-! ## The account of the queue -/

/-- **What was queued** are packets received, in their order; and the
decoder has been given the first of them, those with data. -/
structure Accounted (s : State) : Prop where
  received : ∀ p ∈ s.queued, s.received[p.index]? = some p.frame
  increasing : s.queued.Pairwise fun p q => p.index < q.index
  decoded : s.decoded <+: s.queued.filter Packet.solid
  rest : s.thread ≠ .gone →
    s.queued.filter Packet.solid = s.decoded ++ s.queue.filter Packet.solid

theorem Accounted.index_lt (h : Accounted s) (hp : p ∈ s.queued) : p.index < s.received.length :=
  (List.getElem?_eq_some_iff.1 (h.received p hp)).1

theorem Accounted.handleFrame (h : Accounted s) (frame : VideoFrame) :
    Accounted (s.handleFrame frame) := by
  have hold : ∀ p ∈ s.queued, (s.received ++ [frame])[p.index]? = some p.frame := by
    intro p hp
    rw [List.getElem?_append_left (h.index_lt hp), h.received p hp]
  unfold State.handleFrame
  split
  · refine ⟨fun p hp => ?_, ?_, ?_, fun hthread => ?_⟩
    · rcases List.mem_append.1 hp with hp | hp
      · exact hold p hp
      · rw [List.mem_singleton.1 hp]
        simp [State.packet]
    · refine List.pairwise_append.2 ⟨h.increasing, List.pairwise_singleton _ _, fun p hp q hq => ?_⟩
      rw [List.mem_singleton.1 hq]
      exact h.index_lt hp
    · rw [List.filter_append]
      exact h.decoded.trans (List.prefix_append _ _)
    · rw [List.filter_append, List.filter_append, h.rest hthread, List.append_assoc]
  · exact ⟨hold, h.increasing, h.decoded, h.rest⟩

theorem Accounted.opened (h : Accounted s) (hopening : s.thread = .opening) (ok : Bool) :
    Accounted (s.opened ok) := by
  cases ok with
  | true => exact ⟨h.received, h.increasing, h.decoded, fun _ => h.rest (by simp [hopening])⟩
  | false => exact ⟨h.received, h.increasing, h.decoded, fun hgone => absurd rfl hgone⟩

theorem Accounted.decode (h : Accounted s) (hrunning : s.thread = .running) {rest : List Packet}
    (hqueue : s.queue = p :: rest) : Accounted (s.decode p rest) := by
  have hrest := h.rest (by simp [hrunning])
  have hnext : s.queued.filter Packet.solid =
      (s.decode p rest).decoded ++ rest.filter Packet.solid := by
    rw [hrest, hqueue, List.filter_cons, State.decode]
    cases p.solid with
    | true => simp
    | false => rfl
  exact ⟨h.received, h.increasing, ⟨_, hnext.symm⟩, fun _ => hnext⟩

theorem Accounted.step (h : Accounted s) (hstep : s.step a = some s') : Accounted s' := by
  cases a with
  | frame frame =>
    cases hstep
    exact h.handleFrame frame
  | opened ok =>
    obtain ⟨hopening, heq⟩ := Option.ite_none_right_eq_some.1 hstep
    cases heq
    exact h.opened hopening ok
  | next =>
    obtain ⟨hrunning, hnext⟩ := Option.ite_none_right_eq_some.1 hstep
    split at hnext
    · cases hnext
    · rename_i p rest hqueue
      cases hnext
      exact h.decode hrunning hqueue

theorem accounted (h : machine.Reachable s) : Accounted s := by
  refine h.invariant (fun s hs => ?_) fun s a s' hstep hs => hs.step hstep
  obtain rfl : s = initial := hs
  exact ⟨fun p hp => (by cases hp), .nil, List.nil_prefix, fun _ => rfl⟩

/-! ## The chain of what was queued -/

/-- The packets the decoder was given or will be. -/
def State.solid (s : State) : List Packet := s.queued.filter Packet.solid

/-- The packet received last was queued exactly when it is the last of
those for the decoder. -/
theorem Accounted.lastQueued_iff (h : Accounted s) :
    s.LastQueued ↔ ∃ q ∈ s.solid.getLast?, s.received.length = q.index + 1 := by
  constructor
  · rintro ⟨q, hq, hsolid, hlast⟩
    have hmem : q ∈ s.solid := List.mem_filter.2 ⟨hq, hsolid⟩
    obtain ⟨earlier, r, hsplit⟩ := (List.eq_nil_or_concat' s.solid).resolve_left
      (List.ne_nil_of_mem hmem)
    refine ⟨r, by simp [hsplit], ?_⟩
    rw [hsplit, List.mem_append, List.mem_singleton] at hmem
    rcases hmem with hmem | rfl
    · -- nothing has a place behind the last one received
      have hincreasing : s.solid.Pairwise fun p q => p.index < q.index :=
        h.increasing.sublist List.filter_sublist
      rw [hsplit, List.pairwise_append] at hincreasing
      have hlt := hincreasing.2.2 q hmem r (List.mem_singleton_self r)
      have hr : r ∈ s.solid := by simp [hsplit]
      have hbound := h.index_lt (List.mem_filter.1 hr).1
      omega
    · exact hlast
  · rintro ⟨q, hq, hlast⟩
    obtain ⟨hmem, hsolid⟩ := List.mem_filter.1 (List.mem_of_getLast? hq)
    exact ⟨q, hmem, hsolid, hlast⟩

/-- **One step**: what was queued still follows exactly when the step
queued no delta behind a gap. -/
theorem follows_step (h : Accounted s) (hstep : s.step a = some s') :
    Follows s'.solid ↔ Unbroken s a ∧ Follows s.solid := by
  cases a with
  | frame frame =>
    cases hstep
    rw [State.handleFrame, Unbroken]
    split
    · rename_i haccepts
      simp only [State.solid, List.filter_append, haccepts, forall_const]
      cases hsolid : (s.packet frame).solid with
      | false => simp [hsolid]
      | true =>
        rw [List.filter_cons_of_pos hsolid, List.filter_nil, follows_concat, and_comm,
          h.lastQueued_iff]
        simp only [forall_const]
        rfl
    · rename_i hrefuses
      simp [State.solid, hrefuses]
  | opened ok =>
    obtain ⟨-, heq⟩ := Option.ite_none_right_eq_some.1 hstep
    cases heq
    cases ok <;> simp [State.opened, State.solid, Unbroken]
  | next =>
    obtain ⟨-, hnext⟩ := Option.ite_none_right_eq_some.1 hstep
    split at hnext
    · cases hnext
    · cases hnext
      simp [State.decode, State.solid, Unbroken]

/-- What is decoded is a chain when what was queued follows. -/
theorem Accounted.referenceChain (h : Accounted s) (hfollows : Follows s.solid) :
    s.ReferenceChain := by
  have hchain := hfollows.of_prefix h.decoded
  have hmem : ∀ p ∈ s.decoded, p ∈ s.queued := fun p hp =>
    (List.mem_filter.1 (h.decoded.subset hp)).1
  refine ⟨fun p hp => h.received p (hmem p hp), hchain, fun i _ hmissing p hp hlt hdelta => ?_⟩
  obtain ⟨before, after, hsplit⟩ := List.append_of_mem hp
  exact hchain.exists_keyframe (fun q hq => hmissing q (hmem q hq)) hsplit hlt hdelta

/-- Nothing has been queued. -/
theorem follows_initial : Follows initial.solid := by
  intro before p after hsplit
  simp [State.solid, initial] at hsplit

/-- What was queued follows throughout a run exactly where the run queues
no delta behind a gap. -/
theorem follows_throughout_iff {acts : List Action} (hexec : machine.exec initial acts = some s) :
    machine.Throughout (fun s => Follows s.solid) initial acts ↔
      machine.Run Unbroken initial acts s :=
  Machine.throughout_iff_run (Q := Accounted) (fun _ _ _ hs _ hstep _ => hs.step hstep)
    (fun _ _ _ hs hfollows hstep => (follows_step hs hstep).trans (and_iff_left hfollows))
    (accounted (.start rfl)) follows_initial hexec

/-- **When the chain of references holds**: all through a run that queues
no delta behind a packet that was not queued; and a run whose packets have
all been decoded is such a run if it holds at the end. -/
theorem reference_chain_iff (acts : List Action) (hexec : machine.exec initial acts = some s) :
    (machine.Run Unbroken initial acts s →
      machine.Throughout State.ReferenceChain initial acts) ∧
    (s.thread = .running → s.queue = [] →
      (s.ReferenceChain ↔ machine.Run Unbroken initial acts s)) := by
  have hrun := follows_throughout_iff hexec
  constructor
  · intro hok before t hbefore ht
    have hreach : machine.Reachable t := machine.reach_of_exec before (.start rfl) ht
    exact (accounted hreach).referenceChain (hrun.2 hok before t hbefore ht)
  · intro hrunning hdrained
    have haccounted : Accounted s := accounted (machine.reach_of_exec acts (.start rfl) hexec)
    have hdecoded : s.decoded = s.solid := by
      have hrest := haccounted.rest (by simp [hrunning])
      rw [hdrained, List.filter_nil, List.append_nil] at hrest
      exact hrest.symm
    have hsum := machine.iff_run (Q := Accounted) (P := fun s => Follows s.solid)
      (fun _ _ _ hs hstep => hs.step hstep) (fun _ _ _ hs hstep => follows_step hs hstep)
      (accounted (.start rfl)) hexec
    constructor
    · intro hchain
      refine (hsum.1 ?_).2
      rw [← hdecoded]
      exact hchain.follows
    · intro hok
      exact haccounted.referenceChain (hsum.2 ⟨follows_initial, hok⟩)

/-- A keyframe and a delta, of one byte each. -/
def key : VideoFrame := ⟨true, [0x65]⟩
def delta : VideoFrame := ⟨false, [0x41]⟩

/-- The queue is full when a delta comes; the thread takes a packet, and
the next frame is queued and decoded with the rest. -/
def overload (next : VideoFrame) : List Action :=
  [.frame key, .frame delta, .frame delta, .frame delta, .frame delta, .opened true, .next,
    .frame next, .next, .next, .next, .next]

/-- After a delta was dropped, a keyframe is decoded. -/
theorem reference_chain_iff_resynced : ∃ s, machine.exec initial (overload key) = some s ∧
    s.decoded.map (·.index) = [0, 1, 2, 3, 5] ∧ s.ReferenceChain := by
  have hrun : ∃ s, machine.exec initial (overload key) = some s ∧
      s.thread = .running ∧ s.queue = [] ∧ s.decoded.map (·.index) = [0, 1, 2, 3, 5] ∧
      machine.Run Unbroken initial (overload key) s :=
    ⟨_, rfl, rfl, rfl, rfl, by decide⟩
  obtain ⟨s, hexec, hrunning, hqueue, hdecoded, hrun⟩ := hrun
  exact ⟨s, hexec, hdecoded, ((reference_chain_iff _ hexec).2 hrunning hqueue).2 hrun⟩

/-- **A delta behind a gap is decoded**, the one that it refers to is not. -/
theorem not_reference_chain : ∃ s, machine.exec initial (overload delta) = some s ∧
    s.decoded = [⟨0, key⟩, ⟨1, delta⟩, ⟨2, delta⟩, ⟨3, delta⟩, ⟨5, delta⟩] ∧
      ¬ s.ReferenceChain := by
  have hrun : ∃ s, machine.exec initial (overload delta) = some s ∧
      s.decoded = [⟨0, key⟩, ⟨1, delta⟩, ⟨2, delta⟩, ⟨3, delta⟩, ⟨5, delta⟩] := ⟨_, rfl, rfl⟩
  obtain ⟨s, hexec, hdecoded⟩ := hrun
  refine ⟨s, hexec, hdecoded, fun hchain => ?_⟩
  obtain ⟨q, hq, hindex⟩ := hchain.follows [⟨0, key⟩, ⟨1, delta⟩, ⟨2, delta⟩, ⟨3, delta⟩]
    ⟨5, delta⟩ [] hdecoded rfl
  obtain rfl : (⟨3, delta⟩ : Packet) = q := Option.some.inj hq
  exact absurd hindex (by decide)

end Decoder

end Native

end WaylandWebStream
