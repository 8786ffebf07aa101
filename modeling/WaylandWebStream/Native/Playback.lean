import WaylandWebStream.Lib.Backlog
import WaylandWebStream.Lib.Machine

/-!
# Playback — decoded audio on its way to the sound server

The socket loop decodes a packet and puts its samples into a channel of
eight; a callback of the sound server empties the channel into a buffer
of its own and copies as much of that as fits in the buffer it is given,
with silence behind. Nothing is lost and nothing comes twice. But the
callback's buffer has no bound, and it is cut wherever the given one
ends: what waits is bounded, and left stays left, exactly as far as the
given buffers allow it (`playback_iff`).
-/

namespace WaylandWebStream

namespace Native

namespace Playback

open Backlog WaylandWebStream.Flow

variable {α : Type*}

def CHANNELS : ℕ := 2

/-- Twenty milliseconds, of each channel. -/
def OPUS_FRAME_SAMPLES : ℕ := 960

/-- What `decode_float` returns: the samples of both channels in turn, in
a buffer for a whole frame, and how many there are of each. -/
structure Decoded (α : Type*) where
  pcm : List α
  nPerCh : ℕ
  length_pcm : pcm.length = OPUS_FRAME_SAMPLES * CHANNELS
  nPerCh_le : nPerCh ≤ OPUS_FRAME_SAMPLES

/-- `pcm.truncate`. -/
def Decoded.samples (d : Decoded α) : List α := d.pcm.take (d.nPerCh * CHANNELS)

/-- A buffer the callback filled: the samples copied, the silence behind
them, and what was left waiting. -/
structure Output (α : Type*) where
  samples : List α
  silence : ℕ
  left : List α

/-- The channel and the callback's buffer. The packets accepted, the
outputs and the history of amounts are kept; none is read by a step. -/
structure State (α : Type*) where
  channel : List (List α)
  buf : List α
  accepted : List (List α)
  outputs : List (Output α)
  flows : List Flow

inductive Action (α : Type*)
  /-- A packet is decoded, or fails to be. -/
  | push (decoded : Option (Decoded α))
  /-- A callback takes a packet from the channel. -/
  | pull
  /-- A callback that has emptied the channel goes on, with an output
  buffer of so many bytes, or none. -/
  | fill (rawBytes : Option ℕ)

/-- `sync_channel(8)`. -/
def channelCapacity : ℕ := 8

namespace State

variable (s : State α)

/-- `push_opus`, once decoded: `try_send`. -/
def push (d : Decoded α) : State α :=
  if s.channel.length < channelCapacity then
    { s with
      channel := s.channel ++ [d.samples]
      accepted := s.accepted ++ [d.samples]
      flows := s.flows ++ [.arrive d.samples.length] }
  else s

/-- The callback's copy into an output buffer. -/
def fill (rawBytes : ℕ) : State α :=
  let capacityF32 := rawBytes / 4
  let nCopy := min capacityF32 s.buf.length
  { s with
    buf := s.buf.drop nCopy
    outputs := s.outputs ++ [⟨s.buf.take nCopy, capacityF32 - nCopy, s.buf.drop nCopy⟩]
    flows := s.flows ++ [.serve capacityF32] }

/-- One step of the socket loop or of a callback. -/
def step : Action α → Option (State α)
  | .push none => some s
  | .push (some d) => some (s.push d)
  | .pull =>
    match s.channel with
    | [] => none
    | pcm :: rest => some { s with channel := rest, buf := s.buf ++ pcm }
  | .fill rawBytes =>
    match s.channel, rawBytes with
    | _ :: _, _ => none
    | [], none => some s
    | [], some rawBytes => some (s.fill rawBytes)

/-- The samples played so far. -/
def played : List α := s.outputs.flatMap (·.samples)

/-- The samples waiting, in the channel and in the buffer. -/
def waiting : List α := s.buf ++ s.channel.flatten

end State

/-- Nothing pushed yet. -/
def initial : State α := ⟨[], [], [], [], []⟩

/-- **The native client's audio.** -/
def machine (α : Type*) : Machine (State α) (Action α) where
  init s := s = initial
  step := State.step

/-! ## What is played -/

/-- **Left stays left**: a sample is played on the side it was decoded
for. Both begin on the left, a packet and an output buffer. -/
def NeverSwaps (outputs : List (Output α)) : Prop :=
  ∀ before o after, outputs = before ++ o :: after → ∀ j < o.samples.length,
    ((before.flatMap (·.samples)).length + j) % CHANNELS = j % CHANNELS

/-- **A faithful playback**, with at most so many samples waiting. -/
structure State.Faithful (bound : ℕ) (s : State α) : Prop where
  /-- What was accepted was played, in order, or waits. -/
  order : s.played ++ s.waiting = s.accepted.flatten
  /-- Silence comes only where nothing was left. -/
  silence : ∀ o ∈ s.outputs, 0 < o.silence → o.left = []
  sides : NeverSwaps s.outputs
  bounded : s.waiting.length ≤ bound

variable {s s' : State α} {a : Action α} {outputs : List (Output α)} {o : Output α} {bound : ℕ}

/-- One more output buffer: what is in it begins on the left. -/
theorem neverSwaps_concat : NeverSwaps (outputs ++ [o]) ↔
    NeverSwaps outputs ∧
      (0 < o.samples.length → CHANNELS ∣ (outputs.flatMap (·.samples)).length) := by
  refine forall_split_concat.trans (and_congr_right fun _ => ⟨fun hlast hpos => ?_, ?_⟩)
  · have hfirst := hlast 0 hpos
    rw [Nat.add_zero, Nat.zero_mod] at hfirst
    exact Nat.dvd_of_mod_eq_zero hfirst
  · intro hlast j hj
    obtain ⟨m, hm⟩ := hlast (by omega)
    rw [hm, Nat.mul_add_mod]

/-! ## The account of the samples -/

/-- **The account.** Nothing is lost or repeated, the amounts are those of
the history, and the sides are as its services are aligned. -/
structure Kept (s : State α) : Prop where
  order : s.played ++ s.waiting = s.accepted.flatten
  silence : ∀ o ∈ s.outputs, 0 < o.silence → o.left = []
  arrived : arrived s.flows = s.accepted.flatten.length
  waiting : backlog s.flows = s.waiting.length
  sides : NeverSwaps s.outputs ↔ Aligned CHANNELS s.flows
  even : ∀ n, .arrive n ∈ s.flows → CHANNELS ∣ n

/-- A packet has a sample for each side. -/
theorem Decoded.dvd_length (d : Decoded α) : CHANNELS ∣ d.samples.length := by
  have hle : d.nPerCh * CHANNELS ≤ d.pcm.length := by
    rw [d.length_pcm]
    exact Nat.mul_le_mul_right _ d.nPerCh_le
  rw [Decoded.samples, List.length_take, Nat.min_eq_left hle]
  exact Nat.dvd_mul_left _ _

/-- What was played is what the services took. -/
theorem Kept.taken (h : Kept s) : taken s.flows = s.played.length := by
  have hlen := congrArg List.length h.order
  rw [List.length_append] at hlen
  rw [Backlog.taken, h.arrived, h.waiting]
  omega

theorem Kept.push (h : Kept s) (d : Decoded α) : Kept (s.push d) := by
  unfold State.push
  split
  · have hwaiting : State.waiting { s with
        channel := s.channel ++ [d.samples]
        accepted := s.accepted ++ [d.samples]
        flows := s.flows ++ [.arrive d.samples.length] } = s.waiting ++ d.samples := by
      simp [State.waiting]
    refine ⟨?_, h.silence, ?_, ?_, ?_, fun n hn => ?_⟩
    · rw [hwaiting, ← List.append_assoc]
      show s.played ++ s.waiting ++ d.samples = _
      rw [h.order]
      simp
    · simp [h.arrived, arrival]
    · rw [hwaiting, backlog_arrive, h.waiting, List.length_append]
    · show NeverSwaps s.outputs ↔ _
      rw [h.sides, aligned_concat]
      simp [room]
    · rcases List.mem_append.1 hn with hn | hn
      · exact h.even n hn
      · obtain rfl : n = d.samples.length := by simpa using hn
        exact d.dvd_length
  · exact h

theorem Kept.pull (h : Kept s) {pcm : List α} {rest : List (List α)}
    (hchannel : s.channel = pcm :: rest) :
    Kept { s with channel := rest, buf := s.buf ++ pcm } := by
  have hwaiting : State.waiting { s with channel := rest, buf := s.buf ++ pcm } = s.waiting := by
    simp [State.waiting, hchannel]
  exact ⟨by rw [hwaiting]; exact h.order, h.silence, h.arrived, by rw [hwaiting]; exact h.waiting,
    h.sides, h.even⟩

theorem Kept.fill (h : Kept s) (hchannel : s.channel = []) (rawBytes : ℕ) :
    Kept (s.fill rawBytes) := by
  have hbuf : s.waiting = s.buf := by simp [State.waiting, hchannel]
  have hwaiting : (s.fill rawBytes).waiting = s.buf.drop (min (rawBytes / 4) s.buf.length) := by
    simp [State.waiting, State.fill, hchannel]
  refine ⟨?_, fun o ho hsilence => ?_, ?_, ?_, ?_, fun n hn => ?_⟩
  · rw [hwaiting]
    show (s.outputs ++ [_]).flatMap _ ++ _ = _
    rw [List.flatMap_append, List.append_assoc]
    simp only [List.flatMap_singleton, List.take_append_drop]
    rw [← hbuf]
    exact h.order
  · rcases List.mem_append.1 ho with ho | ho
    · exact h.silence o ho hsilence
    · -- there is silence only when all of the buffer fits
      rw [List.mem_singleton.1 ho] at hsilence ⊢
      refine List.drop_eq_nil_of_le ?_
      simp only at hsilence
      omega
  · simp [State.fill, h.arrived, arrival]
  · rw [hwaiting, State.fill, backlog_serve, h.waiting, hbuf, List.length_drop]
    omega
  · show NeverSwaps (s.outputs ++ [_]) ↔ Aligned _ (s.flows ++ [_])
    rw [neverSwaps_concat, aligned_concat, h.sides, h.taken, h.waiting, hbuf]
    simp [State.played, room]
  · rcases List.mem_append.1 hn with hn | hn
    · exact h.even n hn
    · simp at hn

/-- **One step** keeps the account, and adds no more than one amount. -/
theorem Kept.step (h : Kept s) (hstep : s.step a = some s') :
    Kept s' ∧ (s'.flows = s.flows ∨ ∃ e, s'.flows = s.flows ++ [e]) := by
  cases a with
  | push decoded =>
    cases decoded with
    | none =>
      cases hstep
      exact ⟨h, .inl rfl⟩
    | some d =>
      cases hstep
      refine ⟨h.push d, ?_⟩
      unfold State.push
      split
      · exact .inr ⟨_, rfl⟩
      · exact .inl rfl
  | pull =>
    simp only [State.step] at hstep
    split at hstep
    · cases hstep
    · rename_i pcm rest hchannel
      cases hstep
      exact ⟨h.pull hchannel, .inl rfl⟩
  | fill rawBytes =>
    simp only [State.step] at hstep
    split at hstep
    · cases hstep
    · cases hstep
      exact ⟨h, .inl rfl⟩
    · rename_i rawBytes hchannel
      cases hstep
      exact ⟨h.fill hchannel rawBytes, .inr ⟨_, rfl⟩⟩

theorem kept_initial : Kept (initial : State α) :=
  ⟨rfl, fun o ho => (by cases ho), rfl, rfl,
    iff_of_true (fun before o after h => by simp [initial] at h) aligned_nil,
    fun n hn => (by cases hn)⟩

/-! ## When it is faithful -/

/-- With the account kept, the sides and the bound are left. -/
theorem Kept.faithful_iff_aligned (h : Kept s) :
    s.Faithful bound ↔ Aligned CHANNELS s.flows ∧ backlog s.flows ≤ bound := by
  rw [← h.sides, h.waiting]
  exact ⟨fun hf => ⟨hf.sides, hf.bounded⟩, fun ⟨hsides, hbound⟩ =>
    ⟨h.order, h.silence, hsides, hbound⟩⟩

/-- What was aligned and within the bound stays so while playback is
faithful, and no longer. -/
theorem Kept.sums (h : Kept s) (hstep : s.step a = some s') :
    (Aligned CHANNELS s'.flows ∧ Within bound s'.flows) ↔
      (Aligned CHANNELS s.flows ∧ Within bound s.flows) ∧ s'.Faithful bound := by
  obtain ⟨hkept, hflows⟩ := h.step hstep
  rw [hkept.faithful_iff_aligned]
  rcases hflows with hsame | ⟨e, hnext⟩
  · rw [hsame]
    exact ⟨fun hP => ⟨hP, hP.1, hP.2 _ List.prefix_rfl⟩, And.left⟩
  · rw [hnext, within_concat, aligned_concat]
    constructor
    · rintro ⟨⟨halign, hlast⟩, hwithin, hbound⟩
      exact ⟨⟨halign, hwithin⟩, ⟨halign, hlast⟩, hbound⟩
    · rintro ⟨⟨-, hwithin⟩, ⟨halign, hlast⟩, hbound⟩
      exact ⟨⟨halign, hlast⟩, hwithin, hbound⟩

/-- **When playback is faithful**, all through a run and with at most so
many samples waiting: exactly when no output buffer with room comes after
one shorter than what was waiting and odd, and no stretch of the run
accepts more samples than its output buffers have room for, and so many. -/
theorem playback_iff (acts : List (Action α)) (hexec : (machine α).exec initial acts = some s) :
    (machine α).Throughout (State.Faithful bound) initial acts ↔
      ¬ Splits CHANNELS s.flows ∧
        ∀ stretch, stretch <:+: s.flows → arrived stretch ≤ offered stretch + bound := by
  have hkept : Kept s := by
    have hreach := (machine α).reach_of_exec acts (.start rfl) hexec
    refine hreach.invariant (fun t ht => ?_) fun t a t' hstep ht => (ht.step hstep).1
    obtain rfl : t = initial := ht
    exact kept_initial
  have hstart : Aligned CHANNELS (initial : State α).flows ∧
      Within bound (initial : State α).flows := ⟨aligned_nil, within_nil⟩
  have hsum := (machine α).iff_throughout (P := fun t => Aligned CHANNELS t.flows ∧
      Within bound t.flows) (R := State.Faithful bound) (Q := Kept)
    (fun t a t' ht hstep => (ht.step hstep).1) (fun t a t' ht hstep => ht.sums hstep)
    kept_initial
    (fun hP => kept_initial.faithful_iff_aligned.2 ⟨hP.1, hP.2 _ List.prefix_rfl⟩) hexec
  rw [← aligned_iff hkept.even, ← within_iff]
  exact ⟨fun h => hsum.2 ⟨hstart, h⟩, fun h => (hsum.1 h).2⟩

/-- Two samples of each channel. -/
def stereo : Decoded ℕ where
  pcm := [10, 11, 20, 21] ++ List.replicate 1916 0
  nPerCh := 2
  length_pcm := by rw [List.length_append, List.length_replicate]; rfl
  nPerCh_le := by decide

/-- Half of a packet is played, then the rest and silence. -/
theorem playback_iff_halves : (machine ℕ).Throughout (State.Faithful 4) initial
    [.push (some stereo), .pull, .fill (some 8), .fill (some 16)] := by
  have hrun : (machine ℕ).exec initial
      [.push (some stereo), .pull, .fill (some 8), .fill (some 16)] = some _ := rfl
  have hflows : [Flow.arrive 4, .serve 2, .serve 4]
      = [] ++ [.arrive 4] ++ [.serve 2] ++ [.serve 4] := rfl
  refine (playback_iff _ hrun).2 ⟨?_, within_iff.1 ?_⟩
  · show ¬ Splits 2 [.arrive 4, .serve 2, .serve 4]
    rw [hflows, splits_concat, splits_concat, splits_concat, cut_concat, cut_concat, cut_concat]
    simp [not_splits_nil, not_cut_nil, room]
  · show Within 4 [.arrive 4, .serve 2, .serve 4]
    rw [hflows, within_concat, within_concat, within_concat]
    exact ⟨⟨⟨within_nil, by decide⟩, by decide⟩, by decide⟩

/-- However many samples are pushed, no callback stops before it has them
all: packet after packet goes into its buffer. -/
theorem exists_waiting (n : ℕ) :
    ∃ s, (machine ℕ).Reachable s ∧ s.channel = [] ∧ n ≤ s.buf.length := by
  induction n with
  | zero => exact ⟨initial, .start rfl, rfl, Nat.zero_le _⟩
  | succ n ih =>
    obtain ⟨s, hs, hchannel, hlen⟩ := ih
    have hroom : s.channel.length < channelCapacity := by rw [hchannel]; decide
    have hpush : (machine ℕ).step s (.push (some stereo)) = some (s.push stereo) := rfl
    have hqueued : (s.push stereo).channel = [[10, 11, 20, 21]] := by
      rw [State.push, if_pos hroom]
      simp [hchannel]
      rfl
    have hbuf : (s.push stereo).buf = s.buf := by rw [State.push, if_pos hroom]
    have hpull : (machine ℕ).step (s.push stereo) .pull = some { s.push stereo with
        channel := [], buf := (s.push stereo).buf ++ [10, 11, 20, 21] } := by
      show (s.push stereo).step .pull = _
      rw [State.step, hqueued]
    refine ⟨_, (hs.next hpush).next hpull, rfl, ?_⟩
    rw [hbuf, List.length_append]
    exact Nat.add_le_add hlen (by decide)

/-- **Neither the bound nor the sides hold** of every run: any number of
samples can be waiting, and after an output buffer of three samples a
right one is played on the left. -/
theorem not_faithful : (∀ bound, ∃ s, (machine ℕ).Reachable s ∧ bound < s.waiting.length) ∧
    ∃ s, (machine ℕ).Reachable s ∧ s.outputs.map (·.samples) = [[10, 11, 20], [21]] ∧
      ∀ bound, ¬ s.Faithful bound := by
  constructor
  · intro bound
    obtain ⟨s, hs, -, hlen⟩ := exists_waiting (bound + 1)
    refine ⟨s, hs, ?_⟩
    rw [State.waiting, List.length_append]
    omega
  · have hrun : (machine ℕ).exec initial
        [.push (some stereo), .pull, .fill (some 12), .fill (some 4)] = some _ := rfl
    refine ⟨_, (machine ℕ).reach_of_exec _ (.start rfl) hrun, rfl, fun bound hf => ?_⟩
    have hside := hf.sides [_] _ [] rfl 0 (by decide)
    exact absurd hside (by decide)

end Playback

end Native

end WaylandWebStream
