import WaylandWebStream.Lib.Blocks
import WaylandWebStream.Lib.Bytes
import Mathlib.Data.List.Induction

/-!
# Capture — from PipeWire's buffers to Opus frames

Each process callback takes a buffer, appends its samples to what is left
from the ones before and encodes as many 20 ms frames as there are. The
clock goes on with every frame, encoded or not. How many samples a buffer
has is read off its chunk; where they begin is not, so the frames are those
of the stream exactly as long as the samples begin where the memory does
(`faithful_iff`).
-/

namespace WaylandWebStream

namespace Audio

def SAMPLE_RATE : ℕ := 48000
def CHANNELS : ℕ := 2
/-- A 20 ms frame. -/
def OPUS_FRAME_SAMPLES : ℕ := 960

/-- Samples of all channels in one frame. -/
def frameLen : ℕ := OPUS_FRAME_SAMPLES * CHANNELS

/-- What a frame moves the clock by, in microseconds. -/
def frameUs : ℕ := OPUS_FRAME_SAMPLES * 1000000 / SAMPLE_RATE

/-- The bits of an `f32`. -/
abbrev Sample := ℕ

/-- The whole samples of some bytes, `F32LE`. -/
def samples : Bytes → List Sample
  | a :: b :: c :: d :: rest => Bytes.leNat [a, b, c, d] :: samples rest
  | _ => []

/-- **A data block of a buffer**: its memory, if mapped, and the part of it
that is valid. -/
structure Data where
  offset : UInt32
  size : UInt32
  data : Option Bytes
  within : ∀ raw ∈ data, offset.toNat + size.toNat ≤ raw.length

/-- What the callback reads of a data block. -/
def Data.read (d : Data) : List Sample :=
  if d.size = 0 then []
  else
    match d.data with
    | none => []
    -- `from_raw_parts` at the start of the memory, `size / 4` samples of it
    | some raw => samples (raw.take (d.size.toNat / 4 * 4))

/-- The samples of the valid region. -/
def Data.valid (d : Data) : List Sample :=
  match d.data with
  | none => []
  | some raw => samples ((raw.drop d.offset.toNat).take d.size.toNat)

/-- A dequeued buffer: its data blocks. -/
abbrev Buffer := List Data

/-- What a callback reads: the first block of its buffer. -/
def readOf : Option Buffer → List Sample
  | some (d :: _) => d.read
  | some [] | none => []

/-- The valid samples of a callback's buffer. -/
def validOf : Option Buffer → List Sample
  | some (d :: _) => d.valid
  | some [] | none => []

structure AudioPacket where
  data : Bytes
  ptsUs : UInt64

/-- The Opus encoder: a state, and what it makes of a frame, if anything. -/
structure OpusEncoder (ε : Type*) where
  encodeFloat : ε → List Sample → ε × Option Bytes

/-- A block handed to the encoder, and the packet sent for it. -/
structure Block where
  pcm : List Sample
  packet : Option AudioPacket

/-- **The callback's state**, and the blocks so far. -/
structure State (ε : Type*) where
  encoder : ε
  pcmBuf : List Sample
  ptsUs : UInt64
  blocks : List Block

section Callback

variable {ε : Type*} (opus : OpusEncoder ε)

/-- One frame off the front of the buffer. -/
def State.encodeFrame (st : State ε) : State ε :=
  let pcm := st.pcmBuf.take frameLen
  let (encoder, result) := opus.encodeFloat st.encoder pcm
  { encoder
    pcmBuf := st.pcmBuf.drop frameLen
    ptsUs := st.ptsUs + UInt64.ofNat frameUs
    blocks := st.blocks ++ [⟨pcm, result.map fun data => ⟨data, st.ptsUs⟩⟩] }

/-- Frames as long as there are any. -/
def State.drain (st : State ε) : State ε :=
  if frameLen ≤ st.pcmBuf.length then (st.encodeFrame opus).drain else st
termination_by st.pcmBuf.length
decreasing_by
  have hpos : 0 < frameLen := by decide
  simp only [encodeFrame, List.length_drop]
  omega

/-- **The process callback**, with the buffer it dequeues, if any. A buffer
without samples ends it early. -/
def State.process (st : State ε) (buffer : Option Buffer) : State ε :=
  match buffer with
  | none | some [] => st
  | some (d :: _) =>
    if d.size = 0 then st
    else
      match d.data with
      | none => st
      | some raw =>
        State.drain opus
          { st with pcmBuf := st.pcmBuf ++ samples (raw.take (d.size.toNat / 4 * 4)) }

/-- The capture stream begins. -/
def State.start (encoder : ε) : State ε := ⟨encoder, [], 0, []⟩

/-- The callbacks of a stream, one after the other. -/
def capture (encoder : ε) (buffers : List (Option Buffer)) : State ε :=
  buffers.foldl (State.process opus) (State.start encoder)

end Callback

/-- **A faithful capture** of a stream: the `k`-th block is the `k`-th
stretch of it, stamped with its time; what is in no block is still in the
buffer, and is less than a block. -/
structure Faithful {ε : Type*} (st : State ε) (stream : List Sample) : Prop where
  block : ∀ k b, st.blocks[k]? = some b → frameLen * (k + 1) ≤ stream.length ∧
    b.pcm = (stream.drop (frameLen * k)).take frameLen
  stamp : ∀ k b, st.blocks[k]? = some b →
    ∀ packet ∈ b.packet, packet.ptsUs.toNat = frameUs * k % 2 ^ 64
  conserved : (st.blocks.map Block.pcm).flatten ++ st.pcmBuf = stream
  rest : st.pcmBuf.length < frameLen

example : frameLen = 1920 ∧ frameUs = 20000 := by decide

/-! ## Samples -/

variable {ε : Type*} {opus : OpusEncoder ε} {st : State ε} {stream : List Sample} {encoder : ε}

@[simp] theorem length_samples (bs : Bytes) : (samples bs).length = bs.length / 4 := by
  fun_induction samples bs with
  | case1 a b c d rest ih => simp only [List.length_cons, ih]; omega
  | case2 bs hshort =>
    have hlen : bs.length < 4 := by
      rcases bs with _ | ⟨a, _ | ⟨b, _ | ⟨c, _ | ⟨d, rest⟩⟩⟩⟩
      · decide
      · simp
      · simp
      · simp
      · exact absurd rfl (hshort a b c d rest)
    rw [List.length_nil, Nat.div_eq_of_lt hlen]

/-- As many samples are read as are valid. -/
theorem length_read (d : Data) : d.read.length = d.valid.length := by
  unfold Data.read Data.valid
  have hzero : d.size = 0 → d.size.toNat = 0 := fun h0 => by rw [h0]; rfl
  rcases hdata : d.data with _ | raw
  · simp
  · have hwithin := d.within raw (by simp [hdata])
    split
    · rename_i h0
      simp [hzero h0]
    · simp only [length_samples, List.length_take, List.length_drop]
      omega

theorem length_readOf (buffer : Option Buffer) :
    (readOf buffer).length = (validOf buffer).length := by
  rcases buffer with _ | _ | ⟨d, _⟩
  · rfl
  · rfl
  · exact length_read d

/-! ## Frames -/

/-- What holds of the state between two frames, of what was fed so far. -/
structure Carried (st : State ε) (stream : List Sample) : Prop where
  conserved : (st.blocks.map Block.pcm).flatten ++ st.pcmBuf = stream
  length : ∀ b ∈ st.blocks, b.pcm.length = frameLen
  clock : st.ptsUs.toNat = frameUs * st.blocks.length % 2 ^ 64
  stamp : ∀ k b, st.blocks[k]? = some b →
    ∀ packet ∈ b.packet, packet.ptsUs.toNat = frameUs * k % 2 ^ 64

theorem frameLen_pos : 0 < frameLen := by decide

theorem carried_start : Carried (State.start encoder) [] where
  conserved := rfl
  length b hb := by cases hb
  clock := rfl
  stamp k b hb := by cases hb

/-- More is fed. -/
theorem Carried.feed (h : Carried st stream) (new : List Sample) :
    Carried { st with pcmBuf := st.pcmBuf ++ new } (stream ++ new) where
  conserved := by rw [← h.conserved, List.append_assoc]
  length := h.length
  clock := h.clock
  stamp := h.stamp

/-- **One frame**: the block is off the buffer's front, at the clock's time. -/
theorem Carried.encodeFrame (h : Carried st stream) (hfull : frameLen ≤ st.pcmBuf.length) :
    Carried (st.encodeFrame opus) stream where
  conserved := by
    rw [← h.conserved, State.encodeFrame]
    simp only [List.map_append, List.map_cons, List.map_nil, List.flatten_append,
      List.flatten_cons, List.flatten_nil, List.append_nil, List.append_assoc,
      List.take_append_drop]
  length b hb := by
    rcases List.mem_append.1 hb with hb | hb
    · exact h.length b hb
    · rw [List.mem_singleton.1 hb, List.length_take]
      omega
  clock := by
    have hclock := h.clock
    have hlen : (st.encodeFrame opus).blocks.length = st.blocks.length + 1 := by
      simp [State.encodeFrame]
    have hadd : (st.encodeFrame opus).ptsUs = st.ptsUs + UInt64.ofNat frameUs := rfl
    have hus : (UInt64.ofNat frameUs).toNat = frameUs := rfl
    rw [hlen, hadd, UInt64.toNat_add, hclock, hus, Nat.mul_succ, Nat.mod_add_mod]
  stamp k b hb packet hpacket := by
    rw [State.encodeFrame] at hb
    simp only [List.getElem?_append] at hb
    split at hb
    · exact h.stamp k b hb packet hpacket
    · -- the new block is the last, stamped before the clock goes on
      rename_i hge
      obtain ⟨hlt, hget⟩ := List.getElem?_eq_some_iff.1 hb
      have hk : k = st.blocks.length := by
        simp only [List.length_singleton] at hlt
        omega
      rw [List.getElem_singleton] at hget
      rw [← hget, Option.mem_def, Option.map_eq_some_iff] at hpacket
      obtain ⟨data, -, rfl⟩ := hpacket
      rw [hk]
      exact h.clock

/-- **The loop** encodes until less than a frame is left. -/
theorem Carried.drain (h : Carried st stream) :
    Carried (st.drain opus) stream ∧ (st.drain opus).pcmBuf.length < frameLen := by
  fun_induction State.drain opus st with
  | case1 st hfull ih => exact ih (h.encodeFrame hfull)
  | case2 st hshort => exact ⟨h, Nat.lt_of_not_le hshort⟩

/-- **One callback** feeds what it reads. -/
theorem Carried.process (h : Carried st stream) (hrest : st.pcmBuf.length < frameLen)
    (buffer : Option Buffer) : Carried (st.process opus buffer) (stream ++ readOf buffer) ∧
      (st.process opus buffer).pcmBuf.length < frameLen := by
  have hnothing : Carried st (stream ++ []) ∧ st.pcmBuf.length < frameLen := by
    rw [List.append_nil]
    exact ⟨h, hrest⟩
  unfold State.process readOf
  rcases buffer with _ | _ | ⟨d, _⟩
  · exact hnothing
  · exact hnothing
  · dsimp only [Data.read]
    split
    · exact hnothing
    · split
      · exact hnothing
      · exact (h.feed _).drain

/-- **A whole stream**: the blocks are those of what was read. -/
theorem carried_capture (opus : OpusEncoder ε) (encoder : ε) (buffers : List (Option Buffer)) :
    Carried (capture opus encoder buffers) (buffers.flatMap readOf) ∧
      (capture opus encoder buffers).pcmBuf.length < frameLen := by
  induction buffers using List.reverseRecOn with
  | nil => exact ⟨carried_start, frameLen_pos⟩
  | append_singleton buffers buffer ih =>
    rw [capture, List.foldl_append, List.flatMap_append, List.flatMap_singleton]
    exact ih.1.process ih.2 buffer

theorem Carried.faithful (h : Carried st stream) (hrest : st.pcmBuf.length < frameLen) :
    Faithful st stream where
  block k b hb := by
    have hlen : ∀ pcm ∈ st.blocks.map Block.pcm, pcm.length = frameLen := by
      intro pcm hpcm
      obtain ⟨b, hb, rfl⟩ := List.mem_map.1 hpcm
      exact h.length b hb
    have hget : (st.blocks.map Block.pcm)[k]? = some b.pcm := by
      rw [List.getElem?_map, hb, Option.map_some]
    have hblock := Blocks.getElem?_eq st.pcmBuf hlen hget
    rw [h.conserved] at hblock
    refine ⟨?_, hblock⟩
    have hfull := h.length b (List.mem_of_getElem? hb)
    have hpos := frameLen_pos
    rw [hblock, List.length_take, List.length_drop] at hfull
    rw [Nat.mul_succ]
    omega
  stamp := h.stamp
  conserved := h.conserved
  rest := hrest

/-- **The capture is faithful exactly when each buffer's samples begin where
its memory does**: what is read of it, the first samples of the memory, is
what is valid. -/
theorem faithful_iff {ε : Type*} (opus : OpusEncoder ε) (encoder : ε)
    (buffers : List (Option Buffer)) :
    Faithful (capture opus encoder buffers) (buffers.flatMap validOf) ↔
      ∀ buffer ∈ buffers, readOf buffer = validOf buffer := by
  obtain ⟨hcarried, hrest⟩ := carried_capture opus encoder buffers
  rw [← Blocks.flatMap_eq_iff fun buffer _ => length_readOf buffer]
  constructor
  · intro h
    exact hcarried.conserved.symm.trans h.conserved
  · intro heq
    rw [← heq]
    exact hcarried.faithful hrest

/-- An encoder that has no packet for any frame. -/
def silent : OpusEncoder Unit := ⟨fun _ _ => ((), none)⟩

/-- Memory of two samples, of which the second is valid. -/
def shifted : Data where
  offset := 4
  size := 4
  data := some [1, 0, 0, 0, 0, 0, 0, 0]
  within raw hraw := by
    obtain rfl := Option.some.inj hraw
    decide

/-- **The wrong sample is captured**: one before the valid region. -/
theorem not_faithful_shifted : ¬ ∀ buffers : List (Option Buffer),
    Faithful (capture silent () buffers) (buffers.flatMap validOf) := by
  intro hall
  have hread := hall [some [shifted]]
  have hcarried := (carried_capture silent () [some [shifted]]).1
  have heq := hcarried.conserved.symm.trans hread.conserved
  revert heq
  decide

end Audio

end WaylandWebStream
