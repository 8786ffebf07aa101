import WaylandWebStream.Encoder.Vaapi
import WaylandWebStream.Pipeline.Model
import Mathlib.Data.List.Nodup
import Mathlib.Data.List.Perm.Subperm

/-!
# Framebuffers — who has them

A framebuffer goes round: the render loop draws into it, the frame queue
carries it, the encoder thread encodes it and sends it back, and the loop
keeps it until the next capture. The loop allocates one only when none has
come back, which is when the queue and the encoder thread have them all. A
step here is one access to the queue or the return channel; `Move` says
what a step can do to a buffer, and the invariants follow from that.
-/

namespace WaylandWebStream

namespace Pipeline

open Encoder

/-- A framebuffer with a frame in it: the number of the frame and the
allocation it is in. -/
structure Tag where
  serial : ℕ
  buffer : ℕ
  deriving DecidableEq

/-- A frame on its way to the encoder. -/
structure TaggedFrame where
  tag : Tag
  raw : RawFrame

namespace Buffers

/-! ## Custody -/

/-- What the render loop has to do with buffers: nothing, the next pop of
a spare one, a buffer it draws into, or a frame it sends. -/
inductive Holding
  | nothing
  | popping
  | drawing (buffer : ℕ)
  | sending (tag : Tag)

/-- The buffer in hand. -/
def Holding.held : Holding → List ℕ
  | drawing buffer => [buffer]
  | sending tag => [tag.buffer]
  | nothing | popping => []

/-- The number of the frame in hand. -/
def Holding.numbered : Holding → List ℕ
  | sending tag => [tag.serial]
  | nothing | popping | drawing _ => []

/-- **Who has which buffer**: the loop's spare ones, the return channel, the
frame queue, the encoder thread and the loop itself; how many buffers were
allocated and frames rendered; and the frames taken from the queue and
those whose buffer was sent back, by their numbers. -/
structure Custody where
  spare : List ℕ
  returned : List ℕ
  queued : List Tag
  hand : List Tag
  loop : Holding
  allocated : ℕ
  rendered : ℕ
  taken : List ℕ
  given : List ℕ

namespace Custody

variable (c : Custody)

/-- The buffers that are alive. -/
def alive : List ℕ :=
  c.spare ++ c.returned ++ c.queued.map Tag.buffer ++ c.hand.map Tag.buffer ++ c.loop.held

/-- The frames that are taken, queued or about to be sent. -/
def numbers : List ℕ := c.taken ++ c.queued.map Tag.serial ++ c.loop.numbered

/-- **What can happen to a buffer.** -/
inductive Move : Custody → Custody → Prop
  | stay {c : Custody} : Move c c
  /-- The loop turns to another buffer than it has: it is done, or has
  found the return channel empty. -/
  | turn {c : Custody} {loop : Holding} : (loop = .popping → c.returned = []) → loop.held = [] →
      Move c { c with loop }
  | collect {c : Custody} {buffer : ℕ} {returned : List ℕ} : c.returned = buffer :: returned →
      Move c { c with returned, spare := c.spare ++ [buffer] }
  | reuse {c : Custody} {buffer : ℕ} {spare : List ℕ} : c.loop = .popping →
      c.spare = spare ++ [buffer] → Move c { c with spare, loop := .drawing buffer }
  | allocate {c : Custody} : c.loop = .popping → c.spare = [] →
      Move c { c with allocated := c.allocated + 1, loop := .drawing c.allocated }
  | number {c : Custody} {buffer : ℕ} : c.loop = .drawing buffer →
      Move c { c with loop := .sending ⟨c.rendered, buffer⟩, rendered := c.rendered + 1 }
  | accept {c : Custody} {tag : Tag} : c.loop = .sending tag → c.queued.length < frameCapacity →
      Move c { c with queued := c.queued ++ [tag], loop := .nothing }
  | take {c : Custody} {tag : Tag} {queued : List Tag} : c.queued = tag :: queued →
      c.hand.length ≤ 1 →
      Move c { c with queued, hand := tag :: c.hand, taken := c.taken ++ [tag.serial] }
  | give {c : Custody} {tag : Tag} {l₁ l₂ : List Tag} : c.hand = l₁ ++ tag :: l₂ →
      Move c { c with
        hand := l₁ ++ l₂
        returned := c.returned ++ [tag.buffer]
        given := c.given ++ [tag.serial] }
  | close {c : Custody} : Move c { c with queued := [] }

variable {c c' : Custody}

/-- **Buffers are moved, dropped or, with none to spare, made.** -/
theorem Move.alive (h : Move c c') :
    (c'.alive.Subperm c.alive ∧ c.allocated = c'.allocated) ∨
      (c.loop = .popping ∧ c.spare = [] ∧ c'.loop ≠ .popping ∧
        c'.alive.Perm (c.allocated :: c.alive) ∧ c'.allocated = c.allocated + 1) := by
  cases h with
  | stay => exact Or.inl ⟨List.Subperm.refl _, rfl⟩
  | turn hempty hheld =>
    refine Or.inl ⟨List.Sublist.subperm ?_, rfl⟩
    rw [Custody.alive, Custody.alive, hheld]
    exact List.Sublist.append_left (List.nil_sublist _) _
  | collect hreturned =>
    refine Or.inl ⟨List.Perm.subperm (List.Perm.of_eq ?_), rfl⟩
    simp [Custody.alive, hreturned]
  | reuse hloop hspare =>
    refine Or.inl ⟨List.Perm.subperm (List.perm_iff_count.2 fun b => ?_), rfl⟩
    simp only [Custody.alive, hspare, hloop, Holding.held, List.count_append, List.count_nil]
    omega
  | allocate hloop hspare =>
    refine Or.inr ⟨hloop, hspare, by simp, List.perm_iff_count.2 fun b => ?_, rfl⟩
    simp only [Custody.alive, hspare, hloop, Holding.held, List.count_append, List.count_nil,
      List.count_cons]
    omega
  | number hloop =>
    refine Or.inl ⟨List.Perm.subperm (List.Perm.of_eq ?_), rfl⟩
    simp [Custody.alive, hloop, Holding.held]
  | accept hloop hroom =>
    refine Or.inl ⟨List.Perm.subperm (List.perm_iff_count.2 fun b => ?_), rfl⟩
    simp only [Custody.alive, hloop, Holding.held, List.map_append, List.map_cons, List.map_nil,
      List.count_append, List.count_nil]
    omega
  | take hqueued hhand =>
    refine Or.inl ⟨List.Perm.subperm (List.perm_iff_count.2 fun b => ?_), rfl⟩
    simp only [Custody.alive, hqueued, List.map_cons, List.count_append, List.count_cons]
    omega
  | give hhand =>
    refine Or.inl ⟨List.Perm.subperm (List.perm_iff_count.2 fun b => ?_), rfl⟩
    simp only [Custody.alive, hhand, List.map_append, List.map_cons, List.count_append,
      List.count_cons, List.count_nil]
    omega
  | close =>
    refine Or.inl ⟨List.Sublist.subperm ?_, rfl⟩
    simp only [Custody.alive, List.map_nil, List.append_nil]
    exact ((List.sublist_append_left _ _).append_right _).append_right _

/-- **Frames keep their numbers**, each its own. -/
theorem Move.numbers (h : Move c c') :
    (c'.numbers.Sublist c.numbers ∧ c.rendered = c'.rendered) ∨
      (c'.numbers = c.numbers ++ [c.rendered] ∧ c'.rendered = c.rendered + 1) := by
  have hall : ∀ d : Custody, d.numbers = c.numbers → d.numbers.Sublist c.numbers :=
    fun d hd => hd ▸ List.Sublist.refl _
  cases h with
  | stay => exact Or.inl ⟨List.Sublist.refl _, rfl⟩
  | turn hempty hheld =>
    rename_i loop
    have hnumbered : loop.numbered = [] := by
      cases loop with
      | sending tag => cases hheld
      | _ => rfl
    refine Or.inl ⟨?_, rfl⟩
    rw [Custody.numbers, Custody.numbers, hnumbered]
    exact List.Sublist.append_left (List.nil_sublist _) _
  | collect hreturned => exact Or.inl ⟨List.Sublist.refl _, rfl⟩
  | reuse hloop hspare =>
    refine Or.inl ⟨hall _ ?_, rfl⟩
    simp [Custody.numbers, hloop, Holding.numbered]
  | allocate hloop hspare =>
    refine Or.inl ⟨hall _ ?_, rfl⟩
    simp [Custody.numbers, hloop, Holding.numbered]
  | number hloop =>
    refine Or.inr ⟨?_, rfl⟩
    simp [Custody.numbers, hloop, Holding.numbered]
  | accept hloop hroom =>
    refine Or.inl ⟨hall _ ?_, rfl⟩
    simp [Custody.numbers, hloop, Holding.numbered]
  | take hqueued hhand =>
    refine Or.inl ⟨hall _ ?_, rfl⟩
    simp [Custody.numbers, hqueued]
  | give hhand => exact Or.inl ⟨List.Sublist.refl _, rfl⟩
  | close =>
    refine Or.inl ⟨?_, rfl⟩
    simp only [Custody.numbers, List.map_nil, List.append_nil]
    exact (List.sublist_append_left _ _).append_right _

/-- What is taken is in hand or was given back. -/
theorem Move.balance (h : Move c c')
    (hbalance : c.taken.Perm (c.given ++ c.hand.map Tag.serial)) :
    c'.taken.Perm (c'.given ++ c'.hand.map Tag.serial) := by
  rw [List.perm_iff_count] at hbalance ⊢
  cases h with
  | take hqueued hhand =>
    intro n
    have hn := hbalance n
    simp only [List.map_cons, List.count_append, List.count_cons, List.count_nil] at hn ⊢
    omega
  | give hhand =>
    intro n
    have hn := hbalance n
    simp only [hhand, List.map_append, List.map_cons, List.count_append, List.count_cons,
      List.count_nil] at hn ⊢
    omega
  | _ => exact hbalance

/-- **Buffers are conserved**: no buffer is in two places and none but the
allocated ones are in any; the queue and the encoder thread have at most
six, so there are at most seven; frames are numbered apart, and those
taken are given back or in hand. -/
structure Conserved (c : Custody) : Prop where
  nodup : c.alive.Nodup
  fresh : ∀ b ∈ c.alive, b < c.allocated
  queued_le : c.queued.length ≤ frameCapacity
  hand_le : c.hand.length ≤ 2
  alive_le : c.alive.length ≤ 7
  room : c.loop = .popping → c.spare = [] → c.alive.length ≤ 6
  numbered : c.numbers.Nodup
  old : ∀ n ∈ c.numbers, n < c.rendered
  balance : c.taken.Perm (c.given ++ c.hand.map Tag.serial)

/-- With nothing spare or returned, and none in the loop's hand, what is
alive is queued or with the encoder thread. -/
theorem length_alive : c.alive.length =
    c.spare.length + c.returned.length + c.queued.length + c.hand.length + c.loop.held.length := by
  simp only [alive, List.length_append, List.length_map]

/-- Queue and hand keep their bounds. -/
theorem Move.bounds (h : Move c c') (hqueued : c.queued.length ≤ frameCapacity)
    (hhand : c.hand.length ≤ 2) : c'.queued.length ≤ frameCapacity ∧ c'.hand.length ≤ 2 := by
  cases h with
  | accept hloop hroom =>
    simp only [List.length_append, List.length_singleton]
    omega
  | take htake hone =>
    rw [htake, List.length_cons] at hqueued
    simp only [List.length_cons]
    omega
  | give hgive =>
    rw [hgive, List.length_append, List.length_cons] at hhand
    simp only [List.length_append]
    omega
  | close => exact ⟨Nat.zero_le _, hhand⟩
  | _ => exact ⟨hqueued, hhand⟩

/-- The loop turns to its spare buffers when none is on its way back. -/
theorem Move.room (h : Move c c') (hc : Conserved c) (hpopping : c'.loop = .popping)
    (hspare : c'.spare = []) : c'.alive.length ≤ 6 := by
  have hbounds := h.bounds hc.queued_le hc.hand_le
  have hstill : c.loop = .popping → c.spare = [] → c'.alive.Subperm c.alive →
      c'.alive.length ≤ 6 := fun hp hs hsub => hsub.length_le.trans (hc.room hp hs)
  rcases h.alive with ⟨hsub, -⟩ | ⟨-, -, hne, -⟩
  · cases h with
    | stay => exact hc.room hpopping hspare
    | turn hempty hheld =>
      rw [length_alive]
      have hreturned : c.returned = [] := hempty hpopping
      have hnone : c.spare = [] := hspare
      dsimp only at hbounds ⊢
      rw [hnone, hreturned, hheld, List.length_nil]
      have hcap : frameCapacity = 4 := rfl
      omega
    | collect hreturned =>
      exact absurd hspare (by simp)
    | take hqueued hhand => exact hstill hpopping hspare hsub
    | give hhand => exact hstill hpopping hspare hsub
    | close => exact hstill hpopping hspare hsub
    | reuse hloop _ => cases hpopping
    | allocate hloop _ => cases hpopping
    | number hloop => cases hpopping
    | accept hloop _ => cases hpopping
  · exact absurd hpopping hne

/-- **Every move conserves the buffers.** -/
theorem Conserved.move (hc : Conserved c) (h : Move c c') : Conserved c' := by
  obtain ⟨hqueued, hhand⟩ := h.bounds hc.queued_le hc.hand_le
  have halive : c'.alive.Nodup ∧ (∀ b ∈ c'.alive, b < c'.allocated) ∧ c'.alive.length ≤ 7 := by
    rcases h.alive with ⟨hsub, hsame⟩ | ⟨hpopping, hspare, -, hperm, hmore⟩
    · obtain ⟨l, hl, hsublist⟩ := hsub
      refine ⟨hl.nodup_iff.1 (hsublist.nodup hc.nodup), fun b hb => ?_, ?_⟩
      · rw [← hsame]
        exact hc.fresh b (hsublist.subset (hl.mem_iff.2 hb))
      · exact (hl.length_eq ▸ hsublist.length_le).trans hc.alive_le
    · have hnew : c.allocated ∉ c.alive := fun hmem => Nat.lt_irrefl _ (hc.fresh _ hmem)
      refine ⟨hperm.nodup_iff.2 (List.nodup_cons.2 ⟨hnew, hc.nodup⟩), fun b hb => ?_, ?_⟩
      · rcases List.mem_cons.1 (hperm.mem_iff.1 hb) with rfl | hb
        · omega
        · have hlt := hc.fresh b hb
          omega
      · have hroom := hc.room hpopping hspare
        rw [hperm.length_eq, List.length_cons]
        omega
  have hnumbers : c'.numbers.Nodup ∧ ∀ n ∈ c'.numbers, n < c'.rendered := by
    rcases h.numbers with ⟨hsub, hsame⟩ | ⟨heq, hmore⟩
    · exact ⟨hsub.nodup hc.numbered, fun n hn => hsame ▸ hc.old n (hsub.subset hn)⟩
    · have hnew : c.rendered ∉ c.numbers := fun hmem => Nat.lt_irrefl _ (hc.old _ hmem)
      refine ⟨?_, fun n hn => ?_⟩
      · rw [heq]
        refine List.nodup_append.2 ⟨hc.numbered, List.pairwise_singleton _ _, ?_⟩
        intro a ha b hb hab
        rw [← List.mem_singleton.1 hb, ← hab] at hnew
        exact hnew ha
      · rw [heq] at hn
        rcases List.mem_append.1 hn with hn | hn
        · have hlt := hc.old n hn
          omega
        · have heq := List.mem_singleton.1 hn
          omega
  exact ⟨halive.1, halive.2.1, hqueued, hhand, halive.2.2, h.room hc, hnumbers.1, hnumbers.2,
    h.balance hc.balance⟩

end Custody

/-! ## The two threads -/

/-- Where the render loop stands. -/
inductive LoopStage
  | top
  /-- Drains the return channel. -/
  | collecting
  /-- About to pop a spare buffer. -/
  | collected
  | rendering (buffer : ℕ)
  | sending (frame : TaggedFrame)
  | stopped

/-- What it has to do with buffers. -/
def LoopStage.holding : LoopStage → Holding
  | collected => .popping
  | rendering buffer => .drawing buffer
  | sending frame => .sending frame.tag
  | top | collecting | stopped => .nothing

/-- Where the encoder thread stands. -/
inductive Stage
  | control
  | checkResize
  | draining (width height : ℕ)
  /-- Has taken a frame captured at the old size. -/
  | drained (width height : ℕ) (stale : TaggedFrame)
  | receiving
  | skipping (newest : TaggedFrame)
  /-- Has replaced the newest frame. -/
  | skipped (newest stale : TaggedFrame)
  | matching (frame : TaggedFrame)
  /-- Could not be rebuilt for the frame's size. -/
  | mismatched (frame : TaggedFrame)
  | failed
  | controlAgain (frame : TaggedFrame)
  | submitting (frame : TaggedFrame)
  /-- In `submit`, with the frame encoded or refused. -/
  | encoded (frame : TaggedFrame) (packets : Option (List EncodedPacket))
  | delivering (packets : Option (List EncodedPacket))
  | exited

/-- What the encoder thread has in hand. -/
def Stage.hand : Stage → List Tag
  | drained _ _ frame => [frame.tag]
  | skipped newest stale => [newest.tag, stale.tag]
  | skipping frame | matching frame | mismatched frame | controlAgain frame | submitting frame
  | encoded frame _ => [frame.tag]
  | control | checkResize | draining _ _ | receiving | failed | delivering _ | exited => []

/-- The encoder thread is gone. -/
def Stage.isExited : Stage → Bool
  | exited => true
  | _ => false

/-- What the encoder thread meets in one step. -/
structure Outcome where
  /-- The control messages found, and whether the rebuild for each succeeds. -/
  messages : List (EncoderControl × Bool) := []
  /-- The resize notification found. -/
  resize : Option (ℕ × ℕ) := none
  ffmpeg : Ffmpeg := {}
  vaapi : Vaapi := {}
  /-- The packet channel is open. -/
  delivers : Bool := true

/-- The loop's spare buffers, the return channel, the frame queue and the
two threads; how many buffers were allocated and frames rendered; and the
frames taken from the queue and sent back, by their numbers. -/
structure State where
  spare : List ℕ
  returned : List ℕ
  frames : List TaggedFrame
  loop : LoopStage
  thread : Stage
  encoder : LiveEncoder
  forceKeyframe : Bool
  allocated : ℕ
  rendered : ℕ
  taken : List ℕ
  given : List ℕ

/-- The steps: the loop begins a capture or ends, and goes on with what it
finds; the encoder thread goes on with what it meets. -/
inductive Action
  | trigger
  | stop
  | loop (work : Bool) (raw : RawFrame)
  | encoder (outcome : Outcome)

namespace State

variable (scaler : Scaler) (s : State)

/-- The encoder thread sends a buffer back, and goes on. -/
def giveBack (frame : TaggedFrame) (next : Stage) : State :=
  { s with
    returned := s.returned ++ [frame.tag.buffer]
    given := s.given ++ [frame.tag.serial]
    thread := next }

/-- It ends, and with it the queue. -/
def exit : State := { s with frames := [], thread := .exited }

/-- `drain_control_messages`. -/
def drainControlMessages (messages : List (EncoderControl × Bool)) : State :=
  messages.foldl (fun s m =>
    match m with
    | (.forceKeyframe, _) => { s with forceKeyframe := true }
    | (.changeBitrate bitrate, opens) =>
      { s with encoder := s.encoder.changeBitrate bitrate opens }) s

/-- The render loop goes on. -/
def stepLoop (work : Bool) (raw : RawFrame) : Option State :=
  match s.loop with
  | .top | .stopped => none
  | .collecting =>
    match s.returned with
    | buffer :: returned => some { s with returned, spare := s.spare ++ [buffer] }
    | [] => some { s with loop := if work then .collected else .top }
  | .collected =>
    match s.spare.getLast? with
    | some buffer => some { s with spare := s.spare.dropLast, loop := .rendering buffer }
    | none =>
      some { s with allocated := s.allocated + 1, loop := .rendering s.allocated }
  | .rendering buffer =>
    some { s with loop := .sending ⟨⟨s.rendered, buffer⟩, raw⟩, rendered := s.rendered + 1 }
  | .sending frame =>
    if s.thread.isExited || decide (frameCapacity ≤ s.frames.length) then
      some { s with loop := .top }
    else some { s with frames := s.frames ++ [frame], loop := .top }

/-- The encoder thread goes on. -/
def stepEncoder (o : Outcome) : Option State :=
  match s.thread with
  | .control => some { s.drainControlMessages o.messages with thread := .checkResize }
  | .checkResize =>
    match o.resize with
    | some (width, height) => some { s with thread := .draining width height }
    | none => some { s with thread := .receiving }
  | .draining width height =>
    match s.frames with
    | stale :: frames =>
      some { s with
        frames
        taken := s.taken ++ [stale.tag.serial]
        thread := .drained width height stale }
    | [] =>
      match s.encoder.reinitialize width height o.ffmpeg with
      | some encoder => some { s with encoder, thread := .receiving }
      | none => some s.exit
  | .drained width height stale => some (s.giveBack stale (.draining width height))
  | .receiving =>
    match s.frames with
    | frame :: frames =>
      some { s with
        frames
        taken := s.taken ++ [frame.tag.serial]
        thread := .skipping frame }
    | [] =>
      match s.loop with
      | .stopped => some s.exit
      | _ => none
  | .skipping newest =>
    match s.frames with
    | newer :: frames =>
      let damage := if newer.raw.damage.isEmpty || newest.raw.damage.isEmpty then []
        else newer.raw.damage ++ newest.raw.damage
      some { s with
        frames
        taken := s.taken ++ [newer.tag.serial]
        thread := .skipped { newer with raw := { newer.raw with damage } } newest }
    | [] => some { s with thread := .matching newest }
  | .skipped newest stale => some (s.giveBack stale (.skipping newest))
  | .matching frame =>
    if frame.raw.width = s.encoder.width ∧ frame.raw.height = s.encoder.height then
      some { s with thread := .controlAgain frame }
    else
      match s.encoder.reinitialize frame.raw.width frame.raw.height o.ffmpeg with
      | some encoder => some { s with encoder, thread := .controlAgain frame }
      | none => some { s with thread := .mismatched frame }
  | .mismatched frame => some (s.giveBack frame .failed)
  | .failed => some s.exit
  | .controlAgain frame =>
    some { s.drainControlMessages o.messages with thread := .submitting frame }
  | .submitting frame =>
    let (encoder, packets) :=
      s.encoder.submit scaler (.cpu frame.raw) s.forceKeyframe o.ffmpeg o.vaapi
    some { s with
      encoder
      forceKeyframe := false
      thread := if s.encoder.returnsBuffer (.cpu frame.raw) then .encoded frame packets
        else .delivering packets }
  | .encoded frame packets => some (s.giveBack frame (.delivering packets))
  | .delivering packets =>
    if !o.delivers && !(packets.getD []).isEmpty then some s.exit
    else some { s with thread := .control }
  | .exited => none

/-- One step of one of the two. -/
def step : Action → Option State
  | .trigger =>
    match s.loop with
    | .top => some { s with loop := .collecting }
    | _ => none
  | .stop =>
    match s.loop with
    | .top => some { s with loop := .stopped }
    | _ => none
  | .loop work raw => s.stepLoop work raw
  | .encoder outcome => s.stepEncoder scaler outcome

/-- Both threads at their start, with nothing allocated. -/
def start (encoder : LiveEncoder) : State where
  spare := []
  returned := []
  frames := []
  loop := .top
  thread := .control
  encoder
  forceKeyframe := false
  allocated := 0
  rendered := 0
  taken := []
  given := []

/-- The render loop and the encoder thread, with the software compositor. -/
def machine : Machine State Action where
  init s := ∃ encoder, encoder.Started ∧ s = start encoder
  step s a := s.step scaler a

/-- Who has which buffer. -/
def custody : Custody where
  spare := s.spare
  returned := s.returned
  queued := s.frames.map TaggedFrame.tag
  hand := s.thread.hand
  loop := s.loop.holding
  allocated := s.allocated
  rendered := s.rendered
  taken := s.taken
  given := s.given

variable {scaler s} {s' : State} {a : Action} {o : Outcome}

/-! ## What a step does to the buffers -/

/-- Control messages are about the encoder. -/
theorem drain_custody (messages : List (EncoderControl × Bool)) (thread : Stage) :
    ({ s.drainControlMessages messages with thread } : State).custody =
      { s.custody with hand := thread.hand } := by
  induction messages generalizing s with
  | nil => rfl
  | cons m messages ih =>
    obtain ⟨message, opens⟩ := m
    cases message with
    | forceKeyframe => exact ih
    | changeBitrate bitrate => exact ih

/-- A move that only the stage of the encoder thread shows. -/
theorem move_of_hand {d : State} (hd : d.custody = { s.custody with hand := d.thread.hand })
    (hhand : d.thread.hand = s.thread.hand) : s.custody.Move d.custody := by
  have heq : d.custody = s.custody := by
    rw [hd, hhand]
    rfl
  rw [heq]
  exact .stay

theorem stepLoop_move {work : Bool} {raw : RawFrame} (h : s.stepLoop work raw = some s') :
    s.custody.Move s'.custody := by
  unfold stepLoop at h
  split at h
  · cases h
  · cases h
  · split at h
    · rename_i buffer returned hreturned
      cases h
      exact .collect hreturned
    · rename_i hreturned
      cases h
      refine .turn (fun _ => hreturned) ?_
      cases work <;> rfl
  -- a spare buffer is used again, and one more is allocated only where there is none
  · rename_i hloop
    have hpopping : s.custody.loop = .popping := by
      rw [custody, hloop]
      rfl
    split at h
    · rename_i buffer hlast
      cases h
      have hspare : s.custody.spare = s.spare.dropLast ++ [buffer] :=
        (List.dropLast_append_getLast? buffer hlast).symm
      exact .reuse hpopping hspare
    · rename_i hlast
      cases h
      exact .allocate hpopping (List.getLast?_eq_none_iff.1 hlast)
  · rename_i buffer hloop
    cases h
    have hdrawing : s.custody.loop = .drawing buffer := by
      rw [custody, hloop]
      rfl
    exact .number hdrawing
  · rename_i frame hloop
    have hsending : s.custody.loop = .sending frame.tag := by
      rw [custody, hloop]
      rfl
    split_ifs at h with hfull
    · cases h
      exact .turn (fun hpopping => by cases hpopping) rfl
    · cases h
      simp only [Bool.or_eq_true, decide_eq_true_eq, not_or, not_le] at hfull
      have hroom : s.custody.queued.length < frameCapacity := by
        simpa [custody] using hfull.2
      have hqueued : (s.frames ++ [frame]).map TaggedFrame.tag =
          s.custody.queued ++ [frame.tag] := List.map_append
      have hmove := Custody.Move.accept hsending hroom
      rw [← hqueued] at hmove
      exact hmove

/-- A frame is taken from the queue. -/
theorem move_take {frame : TaggedFrame} {frames : List TaggedFrame} {thread : Stage}
    (hframes : s.frames = frame :: frames) (hone : s.thread.hand.length ≤ 1)
    (hhand : thread.hand = frame.tag :: s.thread.hand) :
    s.custody.Move ({ s with
      frames
      taken := s.taken ++ [frame.tag.serial]
      thread } : State).custody := by
  have hqueued : s.custody.queued = frame.tag :: frames.map TaggedFrame.tag := by
    rw [custody, hframes]
    rfl
  have hmove := Custody.Move.take hqueued hone
  have hcons : frame.tag :: s.custody.hand = thread.hand := hhand.symm
  rw [hcons] at hmove
  exact hmove

/-- A frame's buffer is given back. -/
theorem move_give {frame : TaggedFrame} {next : Stage} {l₂ : List Tag} (l₁ : List Tag)
    (hhand : s.thread.hand = l₁ ++ frame.tag :: l₂) (hnext : next.hand = l₁ ++ l₂) :
    s.custody.Move (s.giveBack frame next).custody := by
  have hmove := Custody.Move.give (c := s.custody) hhand
  rw [← hnext] at hmove
  exact hmove

/-- The thread ends with nothing in hand. -/
theorem move_exit (hhand : s.thread.hand = []) : s.custody.Move s.exit.custody := by
  have hclosed : s.exit.custody = { s.custody with queued := [] } := by
    rw [custody, custody, hhand]
    rfl
  rw [hclosed]
  exact .close

theorem stepEncoder_move (h : s.stepEncoder scaler o = some s') : s.custody.Move s'.custody := by
  cases hthread : s.thread <;> simp only [stepEncoder, hthread] at h <;>
    have hhand := congrArg Stage.hand hthread
  case control =>
    cases h
    exact move_of_hand (drain_custody _ _) hhand.symm
  case checkResize =>
    split at h
    · cases h
      exact move_of_hand rfl hhand.symm
    · cases h
      exact move_of_hand rfl hhand.symm
  case draining width height =>
    split at h
    · rename_i stale frames hframes
      cases h
      exact move_take hframes (by rw [hhand]; exact Nat.zero_le _) (by rw [hhand]; rfl)
    · split at h
      · cases h
        exact move_of_hand rfl hhand.symm
      · cases h
        exact move_exit hhand
  case drained width height stale =>
    cases h
    exact move_give [] hhand rfl
  case receiving =>
    split at h
    · rename_i frame frames hframes
      cases h
      exact move_take hframes (by rw [hhand]; exact Nat.zero_le _) (by rw [hhand]; rfl)
    · split at h
      · cases h
        exact move_exit hhand
      · cases h
  case skipping newest =>
    split at h
    · rename_i newer frames hframes
      cases h
      exact move_take hframes (by rw [hhand]; exact le_rfl) (by rw [hhand]; rfl)
    · cases h
      exact move_of_hand rfl hhand.symm
  case skipped newest stale =>
    cases h
    exact move_give [newest.tag] hhand rfl
  case matching frame =>
    split_ifs at h
    · cases h
      exact move_of_hand rfl hhand.symm
    · split at h
      · cases h
        exact move_of_hand rfl hhand.symm
      · cases h
        exact move_of_hand rfl hhand.symm
  case mismatched frame =>
    cases h
    exact move_give [] hhand rfl
  case failed =>
    cases h
    exact move_exit hhand
  case controlAgain frame =>
    cases h
    exact move_of_hand (drain_custody _ _) hhand.symm
  case submitting frame =>
    -- either backend is about to send the buffer back
    simp only [LiveEncoder.returnsBuffer_cpu, ↓reduceIte] at h
    cases h
    exact move_of_hand rfl hhand.symm
  case encoded frame packets =>
    cases h
    exact move_give [] hhand rfl
  case delivering packets =>
    split_ifs at h
    · cases h
      exact move_exit hhand
    · cases h
      exact move_of_hand rfl hhand.symm
  case exited => cases h

theorem step_move (h : (machine scaler).step s a = some s') : s.custody.Move s'.custody := by
  cases a with
  | trigger =>
    simp only [machine, step] at h
    split at h
    · cases h
      exact .turn (fun hpopping => by cases hpopping) rfl
    · cases h
  | stop =>
    simp only [machine, step] at h
    split at h
    · cases h
      exact .turn (fun hpopping => by cases hpopping) rfl
    · cases h
  | loop work raw => exact stepLoop_move h
  | encoder outcome => exact stepEncoder_move h

/-- With a frame in hand the encoder thread never waits. -/
theorem stepEncoder_isSome (o : Outcome) (hhand : s.thread.hand ≠ []) :
    (s.stepEncoder scaler o).isSome = true := by
  cases hthread : s.thread with
  | control | checkResize | draining | receiving | failed | delivering | exited =>
    rw [hthread] at hhand
    exact absurd rfl hhand
  | drained | skipped | mismatched | controlAgain | submitting | encoded =>
    simp only [stepEncoder, hthread, Option.isSome_some]
  | skipping newest =>
    simp only [stepEncoder, hthread]
    split <;> rfl
  | matching frame =>
    simp only [stepEncoder, hthread]
    split_ifs
    · rfl
    · split <;> rfl

/-- **Buffers are kept**: at most seven are alive and no two are one; each
frame taken from the queue is in the encoder thread's hand or its buffer
was sent back, once, and no other buffer was; and the thread does not wait
with a frame in hand. -/
structure Kept (scaler : Scaler) (s : State) : Prop where
  alive_le : s.custody.alive.length ≤ 7
  apart : s.custody.alive.Nodup
  once : ∀ n ∈ s.taken, s.given.count n + (s.thread.hand.map Tag.serial).count n = 1
  only_taken : ∀ n ∈ s.given, n ∈ s.taken
  goes_on : s.thread.hand ≠ [] → ∀ o, (s.stepEncoder scaler o).isSome = true

theorem conserved_of_reachable (h : (machine scaler).Reachable s) : s.custody.Conserved := by
  refine Machine.Reachable.invariant (P := fun s => s.custody.Conserved) ?_ ?_ h
  · rintro s ⟨encoder, -, rfl⟩
    have hnil : ∀ n ∈ ([] : List ℕ), n < 0 := fun n hn => absurd hn List.not_mem_nil
    exact ⟨List.nodup_nil, hnil, Nat.zero_le _, Nat.zero_le _, Nat.zero_le _,
      fun _ _ => Nat.zero_le _, List.nodup_nil, hnil, List.Perm.refl _⟩
  · intro s a s' hstep hs
    exact hs.move (step_move hstep)

/-- **Encoder buffers are conserved and bounded**, in every run of the
render loop and the encoder thread, with either backend. -/
theorem buffers_conserved (h : (machine scaler).Reachable s) : Kept scaler s := by
  have hs := conserved_of_reachable h
  have htaken : s.taken.Nodup :=
    hs.numbered.sublist (((List.sublist_append_left _ _)).trans (List.sublist_append_left _ _))
  have hbalance : s.taken.Perm (s.given ++ s.thread.hand.map Tag.serial) := hs.balance
  refine ⟨hs.alive_le, hs.nodup, fun n hn => ?_, fun n hn => ?_, fun hhand o => ?_⟩
  · rw [← List.count_append, ← hbalance.count_eq]
    exact List.count_eq_one_of_mem htaken hn
  · exact hbalance.mem_iff.2 (List.mem_append_left _ hn)
  · exact stepEncoder_isSome o hhand

/-- One frame rendered, taken, encoded and its buffer sent back. -/
theorem buffers_conserved_one :
    ∃ s, s.taken = [0] ∧ s.given = [0] ∧ s.returned = [0] ∧ Kept someScaler s := by
  refine ⟨_, rfl, rfl, rfl, buffers_conserved (Machine.reach_of_exec
    (s := start (.x264 someEncoder))
    ([.trigger] ++ List.replicate 4 (.loop true ⟨[0, 0, 0, 0], 1, 1, []⟩) ++
      List.replicate 8 (.encoder {})) (.start ⟨_, Or.inl ⟨_, _, rfl⟩, rfl⟩) rfl)⟩

end State

end Buffers

end Pipeline

end WaylandWebStream
