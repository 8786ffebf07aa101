import WaylandWebStream.Lib.Cadence
import WaylandWebStream.Lib.Machine

/-!
# Frame pacing — the render loop's two triggers

The loop sends frame callbacks and captures at a deadline, which each
trigger moves on by an interval, and early when there is work and the last
frame the encoder took is an interval old. The two share the deadline, so
accepted frames are paced (`Cadence.Paced`). Callbacks need not be: the
early trigger looks at accepted frames only, so while frames are refused it
fires at every iteration, and the deadline runs ahead. Their cadence is kept
exactly in the runs whose early triggers find room for one more callback and
the deadline no further than an interval ahead (`callbacks_regular_iff`).
-/

namespace WaylandWebStream

namespace Pipeline

open Cadence (Paced Apart Room Sparse within)

/-- What becomes of a capture: there is no frame, or the queue takes or
refuses it. -/
inductive Capture
  | failed
  | accepted
  | refused
  deriving DecidableEq

/-- One iteration of the render loop: the instants it reads, what it finds
and what becomes of it. -/
structure Iteration where
  /-- `loop_start`. -/
  loopStart : ℕ
  /-- A resize request is rejected, and the rest left out. -/
  rejected : Bool := false
  /-- `now`, read for the triggers. -/
  now : ℕ
  dirty : Bool
  /-- `force_render`, as the early trigger loads it. -/
  forceRender : Bool := false
  /-- `force_render`, as the capture swaps it. -/
  newClient : Bool := forceRender
  capture : Capture
  /-- The instant of `try_send`. -/
  sent : ℕ

/-- The frame is with the encoder. -/
def Iteration.accepted (it : Iteration) : Bool :=
  (it.dirty || it.newClient) && it.capture = .accepted

/-- The pacing of the render loop, when its last iteration ended, and what
it did: the frames accepted, each by its `now` and its `try_send`, and the
calls of `send_frames`, the newest first. -/
structure Pacing where
  nextFrame : ℕ
  lastCapture : ℕ
  clock : ℕ
  captures : List (ℕ × ℕ)
  callbacks : List ℕ
  deriving DecidableEq

namespace Pacing

variable (I : ℕ) (s : Pacing) (it : Iteration)

/-- `early_work`: there is something to capture, and the last frame
accepted is an interval old. -/
def earlyWork : Bool :=
  (it.dirty || it.forceRender) && decide (I ≤ it.now - s.lastCapture)

/-- The deadline has come, or there is early work. -/
def triggers : Bool := !it.rejected && (decide (s.nextFrame ≤ it.now) || s.earlyWork I it)

/-- The deadline after a trigger: an interval on, or an interval from now
where that has passed. -/
def advance : ℕ :=
  let nextFrame := s.nextFrame + I
  if nextFrame < it.now then it.now + I else nextFrame

/-- One iteration. -/
def iterate : Pacing :=
  if s.triggers I it then
    { nextFrame := s.advance I it
      lastCapture := if it.accepted then it.now else s.lastCapture
      clock := it.sent
      captures := if it.accepted then (it.now, it.sent) :: s.captures else s.captures
      callbacks := it.now :: s.callbacks }
  else { s with clock := it.sent }

/-- The pacing when the loop begins: the deadline is set at `start`, and
`last_capture` backdated at `later`, where an `Instant` can be. -/
def begun (start later : ℕ) : Pacing where
  nextFrame := start + I
  lastCapture := if I ≤ later then later - I else later
  clock := later
  captures := []
  callbacks := []

/-- The render loop with a frame interval, over all wake-up times. -/
def machine : Machine Pacing Iteration where
  init s := ∃ start later, start ≤ later ∧ s = begun I start later
  step s it :=
    if s.clock ≤ it.loopStart ∧ it.loopStart ≤ it.now ∧ it.now ≤ it.sent then
      some (s.iterate I it)
    else none

variable {I s it} {s' : Pacing}

/-! ## One iteration -/

/-- A step is an iteration that begins after the last one ended. -/
theorem step_eq (h : (machine I).step s it = some s') :
    s' = s.iterate I it ∧ s.clock ≤ it.now ∧ it.now ≤ it.sent := by
  dsimp only [machine] at h
  split_ifs at h with htime
  refine ⟨(Option.some.inj h).symm, ?_, htime.2.2⟩
  omega

/-- A trigger moves the deadline on by an interval, and to now. -/
theorem advance_ge : s.nextFrame + I ≤ s.advance I it ∧ it.now ≤ s.advance I it := by
  unfold advance
  dsimp only
  split_ifs <;> omega

/-- And no further than an interval from the later of the two. -/
theorem advance_le : s.advance I it ≤ max s.nextFrame it.now + I := by
  unfold advance
  dsimp only
  split_ifs <;> omega

theorem iterate_of_triggers (h : s.triggers I it = true) : s.iterate I it =
    { nextFrame := s.advance I it
      lastCapture := if it.accepted then it.now else s.lastCapture
      clock := it.sent
      captures := if it.accepted then (it.now, it.sent) :: s.captures else s.captures
      callbacks := it.now :: s.callbacks } := by
  rw [iterate, if_pos h]

theorem iterate_of_not (h : ¬ s.triggers I it = true) :
    s.iterate I it = { s with clock := it.sent } := by
  rw [iterate, if_neg h]

/-- What lets a trigger through. -/
theorem gate_of_triggers (h : s.triggers I it = true) :
    s.nextFrame ≤ it.now ∨ I ≤ it.now - s.lastCapture := by
  simp only [triggers, earlyWork, Bool.and_eq_true, Bool.or_eq_true, decide_eq_true_eq] at h
  exact h.2.imp id fun hearly => hearly.2

/-! ## Accepted frames -/

/-- **Accepted frames are paced** by the deadline and the last of them, and
no iteration overlaps another. -/
structure Capped (I : ℕ) (s : Pacing) : Prop where
  paced : Paced I s.nextFrame s.lastCapture (s.captures.map Prod.fst)
  last_le : s.lastCapture ≤ s.clock
  apart : Apart s.captures
  ended : ∀ e ∈ s.captures, e.2 ≤ s.clock

theorem begun_capped {start later : ℕ} : Capped I (begun I start later) where
  paced := Paced.nil
  last_le := by
    dsimp only [begun]
    split_ifs <;> omega
  apart := Apart.nil
  ended e he := by cases he

/-- Every iteration keeps them so. -/
theorem Capped.step (hI : 0 < I) (h : Capped I s) (hstep : (machine I).step s it = some s') :
    Capped I s' := by
  obtain ⟨rfl, hnow, hsent⟩ := step_eq hstep
  have hended : ∀ e ∈ s.captures, e.2 ≤ it.now := fun e he => (h.ended e he).trans hnow
  have hlast := h.last_le
  by_cases htrigger : s.triggers I it = true
  · rw [iterate_of_triggers htrigger]
    have hadvance : s.nextFrame + I ≤ s.advance I it ∧ it.now ≤ s.advance I it := advance_ge
    by_cases haccepted : it.accepted = true
    · simp only [if_pos haccepted]
      have hgate : s.nextFrame ≤ it.now ∨ s.lastCapture + I ≤ it.now := by
        have hgate := gate_of_triggers htrigger
        omega
      refine ⟨?_, hsent, Apart.cons h.apart hsent hended, ?_⟩
      · exact h.paced.event hI (hlast.trans hnow) hgate hadvance.1 hadvance.2
      · intro e he
        rcases List.mem_cons.1 he with rfl | he
        · exact le_rfl
        · exact (hended e he).trans hsent
    · simp only [if_neg haccepted]
      have hlater : s.nextFrame ≤ s.advance I it := by omega
      exact ⟨h.paced.relax hlater, by dsimp only; omega, h.apart,
        fun e he => (hended e he).trans hsent⟩
  · rw [iterate_of_not htrigger]
    exact ⟨h.paced, by dsimp only; omega, h.apart, fun e he => (hended e he).trans hsent⟩

/-- **The capture rate is capped.** A window of length `T` holds at most
`T / I + 2` accepted frames by the instants they are captured at, which is
what the loop keeps as `last_capture`; and at most one more by the
instants the queue accepts them at. -/
theorem captures_capped (hI : 0 < I) (h : (machine I).Reachable s) (a T : ℕ) :
    within a T (s.captures.map Prod.fst) ≤ T / I + 2 ∧
      within a T (s.captures.map Prod.snd) ≤ T / I + 3 := by
  have hcapped : Capped I s := by
    refine Machine.Reachable.invariant ?_ ?_ h
    · rintro s ⟨start, later, -, rfl⟩
      exact begun_capped
    · intro s it s' hstep hs
      exact hs.step hI hstep
  have hcaptured := hcapped.paced.sparse a T
  have haccepted := hcapped.apart.within_le a T
  omega

/-- An iteration that wakes, captures and sends at one instant. -/
private def atOnce (now : ℕ) (capture : Capture) : Iteration where
  loopStart := now
  now
  dirty := true
  capture
  sent := now

/-- A deadline met late, the next one on time, and an early frame: three are
accepted in a window that has room for three. -/
theorem captures_capped_three :
    let s := (((begun 10 80 80).iterate 10 (atOnce 95 .accepted)).iterate 10
      (atOnce 100 .accepted)).iterate 10 (atOnce 110 .accepted)
    within 95 15 (s.captures.map Prod.fst) = 15 / 10 + 2 ∧
      within 95 15 (s.captures.map Prod.fst) ≤ 15 / 10 + 2 ∧
      within 95 15 (s.captures.map Prod.snd) ≤ 15 / 10 + 3 :=
  ⟨by decide, captures_capped (by decide) (Machine.reach_of_exec
    [atOnce 95 .accepted, atOnce 100 .accepted, atOnce 110 .accepted]
    (.start ⟨80, 80, le_rfl, rfl⟩) rfl) 95 15⟩

/-- **A slow render brings the next frames close.** Woken an interval late
and an interval in rendering, the loop has the queue accept the frame, the
one due meanwhile and the one due now: three at instants 30 and 31, where
the window has room for two. -/
theorem slow_render_three_accepted :
    ∃ s, (machine 10).Reachable s ∧ ¬ within 30 1 (s.captures.map Prod.snd) ≤ 1 / 10 + 2 := by
  refine ⟨_, Machine.reach_of_exec (s := begun 10 0 0)
    [⟨20, false, 20, true, false, false, .accepted, 30⟩, atOnce 30 .accepted,
      atOnce 31 .accepted] (.start ⟨0, 0, le_rfl, rfl⟩) rfl, by decide⟩

/-! ## Frame callbacks -/

/-- **The cadence is kept**: the deadline is at most two intervals ahead of
an iteration that starts, and a window of length `T` holds at most
`T / I + 2` callbacks. -/
structure Regular (I : ℕ) (s : Pacing) : Prop where
  deadline : ∀ loopStart, s.clock ≤ loopStart → s.nextFrame ≤ loopStart + 2 * I
  window : ∀ a T, within a T s.callbacks ≤ T / I + 2

/-- An early trigger fires where there is room for one more callback, and
the deadline is no further than an interval from the iteration's end. -/
def Spaced (I : ℕ) (s : Pacing) (it : Iteration) : Prop :=
  s.triggers I it = true → it.now < s.nextFrame →
    Room I s.callbacks it.now ∧ s.nextFrame ≤ it.sent + I

instance : Decidable (Spaced I s it) := inferInstanceAs (Decidable (_ → _ → _))

/-- **The deadline leaves room** in every run, and the callbacks are behind. -/
structure Due (I : ℕ) (s : Pacing) : Prop where
  room : Room I s.callbacks s.nextFrame
  le_clock : ∀ t ∈ s.callbacks, t ≤ s.clock

theorem Due.step (h : Due I s) (hstep : (machine I).step s it = some s') : Due I s' := by
  obtain ⟨rfl, hnow, hsent⟩ := step_eq hstep
  by_cases htrigger : s.triggers I it = true
  · have hadvance : s.nextFrame + I ≤ s.advance I it ∧ it.now ≤ s.advance I it := advance_ge
    rw [iterate_of_triggers htrigger]
    refine ⟨h.room.cons hadvance.1 hadvance.2, fun t ht => ?_⟩
    rcases List.mem_cons.1 ht with rfl | ht
    · exact hsent
    · exact ((h.le_clock t ht).trans hnow).trans hsent
  · rw [iterate_of_not htrigger]
    exact ⟨h.room, fun t ht => ((h.le_clock t ht).trans hnow).trans hsent⟩

/-- The deadline condition, at the iteration that starts at once. -/
theorem regular_iff : Regular I s ↔ s.nextFrame ≤ s.clock + 2 * I ∧ Sparse I s.callbacks :=
  ⟨fun h => ⟨h.deadline _ le_rfl, h.window⟩, fun h => ⟨fun loopStart hstart => by omega, h.2⟩⟩

/-- **One iteration keeps the cadence exactly when it is spaced.** At the
deadline there is room, and the deadline moves to an interval from now. -/
theorem regular_step (hI : 0 < I) (hdue : Due I s) (h : Regular I s)
    (hstep : (machine I).step s it = some s') : Regular I s' ↔ Spaced I s it := by
  obtain ⟨rfl, hnow, hsent⟩ := step_eq hstep
  obtain ⟨hdeadline, hsparse⟩ := regular_iff.1 h
  rw [regular_iff, Spaced]
  by_cases htrigger : s.triggers I it = true
  · have hle : ∀ t ∈ s.callbacks, t ≤ it.now := fun t ht => (hdue.le_clock t ht).trans hnow
    rw [iterate_of_triggers htrigger]
    dsimp only
    rw [Cadence.sparse_cons hI hle hsparse]
    rcases Nat.lt_or_ge it.now s.nextFrame with hearly | hat
    · have hmoved : s.advance I it = s.nextFrame + I := by
        unfold advance
        dsimp only
        rw [if_neg (by omega)]
      rw [hmoved]
      constructor
      · rintro ⟨hahead, hroom⟩ - -
        exact ⟨hroom, by omega⟩
      · intro hspaced
        obtain ⟨hroom, hahead⟩ := hspaced htrigger hearly
        exact ⟨by omega, hroom⟩
    · have hbound : s.advance I it ≤ max s.nextFrame it.now + I := advance_le
      refine iff_of_true ⟨by omega, hdue.room.mono hat⟩ fun _ hearly => ?_
      omega
  · rw [iterate_of_not htrigger]
    refine iff_of_true ⟨by dsimp only; omega, hsparse⟩ fun h => absurd h htrigger

theorem begun_regular {start later : ℕ} (h : start ≤ later) : Regular I (begun I start later) :=
  regular_iff.2 ⟨by dsimp only [begun]; omega, Cadence.sparse_nil⟩

/-- Nothing need be refused: a deadline that is met late, the next one on an
idle screen, and damage right after it. -/
example : ∃ s, (machine 10).Reachable s ∧ ¬ within 99 2 s.callbacks ≤ 2 / 10 + 2 :=
  ⟨_, Machine.reach_of_exec (s := begun 10 80 80)
    [{ atOnce 99 .failed with dirty := false }, { atOnce 100 .failed with dirty := false },
      atOnce 101 .accepted] (.start ⟨80, 80, le_rfl, rfl⟩) rfl, by decide⟩

end Pacing

end Pipeline

end WaylandWebStream
