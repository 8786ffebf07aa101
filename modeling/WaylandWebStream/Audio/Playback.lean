import WaylandWebStream.Lib.Machine
import WaylandWebStream.Lib.Sums

/-!
# Playback — when the browser plays what it has decoded

Each decoded buffer is put after the one before, at the playback head, or a
little ahead of the clock if the head has fallen behind. The head is put
back to zero on four occasions, and on one of them, the resync, what is
already scheduled is stopped. On the others it plays on, and the next buffer
goes over it, unless what plays is about over (`disjoint_step`). Buffers
that follow each other without that never meet: the head is where the last
one ends. Times are doubles, in seconds, and a sum of two is rounded; so the
end of a source is read in both ways, as the code has it and exactly.
-/

namespace WaylandWebStream

namespace WebAudio

open Binary64

def SCHEDULE_AHEAD_S : Float := 0.05
def MAX_LEAD_S : Float := 0.3

/-- **A decoded buffer**, as far as it is read. Its length is at least one
frame, and fits 32 bits; there is at least one frame a second. -/
structure AudioBuffer where
  duration : Float
  pos : 0 < duration
  most : duration ≤ 4294967296

/-- **A scheduled source**: its buffer, when it starts, and whether it was
stopped since. -/
structure Source where
  startAt : Float
  buffer : AudioBuffer
  /-- It is in `pendingSources`: its `onended` has not come. -/
  pending : Bool
  stopped : Bool

/-- How the end of a source is read: as the double `nextPlayTime` takes of
it, or exactly. -/
inductive Reading
  | computed
  | exact

/-- Where the source's sound ends. -/
def Source.endAt : Reading → Source → ℚ
  | .computed, x => toRat (x.startAt + x.buffer.duration)
  | .exact, x => toRat x.startAt + toRat x.buffer.duration

/-- A queued source is stopped, and forgotten. -/
def Source.stop (x : Source) : Source :=
  if x.pending then { x with pending := false, stopped := true } else x

structure AudioStream where
  /-- The `AudioContext` exists. -/
  audioCtx : Bool
  currentTime : Float
  nextPlayTime : Float
  /-- Every source scheduled, in order. -/
  sources : List Source
  /-- The head was put back after the last buffer was scheduled, if any was.
  The page does not note it, and no function reads it. -/
  rewound : Bool

namespace AudioStream

variable (s : AudioStream)

/-- The head is put back. -/
def rewind : AudioStream := { s with nextPlayTime := 0, rewound := true }

def start : AudioStream := s.rewind

/-- The handler of the context's `statechange`. -/
def statechange (running : Bool) : AudioStream :=
  if s.audioCtx && running then s.rewind else s

def recoverDecoder : AudioStream := s.rewind

/-- The head is too far ahead of the clock. -/
def drifted : Bool := MAX_LEAD_S < s.nextPlayTime - s.currentTime

/-- The queued audio is discarded. -/
def resync : AudioStream :=
  if s.drifted then { s with sources := s.sources.map Source.stop, nextPlayTime := 0 } else s

/-- A buffer is put at the head, or ahead of the clock. -/
def append (buffer : AudioBuffer) : AudioStream :=
  let startAt := max (s.currentTime + SCHEDULE_AHEAD_S) s.nextPlayTime
  { s with
    nextPlayTime := startAt + buffer.duration
    sources := s.sources ++ [⟨startAt, buffer, true, false⟩]
    rewound := false }

/-- **`scheduleAudio`**, of a buffer. One of no frames cannot be made, and
the call ends there. -/
def scheduleAudio (buffer : Option AudioBuffer) : AudioStream :=
  if s.audioCtx then
    match buffer with
    | none => s
    | some buffer => s.resync.append buffer
  else s

end AudioStream

inductive Action
  /-- The first gesture makes the context. -/
  | gesture
  | start
  | statechange (running : Bool)
  /-- The decoder fails, in a callback or in `decode`. -/
  | recoverDecoder
  /-- A buffer comes out of the decoder. -/
  | decoded (buffer : Option AudioBuffer)
  /-- The context's clock goes on, to this time. -/
  | tick (time : Float)
  /-- The `onended` of a source: it has played out, or was stopped. -/
  | ended (n : ℕ)

namespace AudioStream

variable (s : AudioStream)

def step : Action → Option AudioStream
  | .gesture => some { s with audioCtx := true }
  | .start => some s.start
  | .statechange running => some (s.statechange running)
  | .recoverDecoder => some s.recoverDecoder
  | .decoded buffer => some (s.scheduleAudio buffer)
  | .tick time =>
    if s.audioCtx && time.isFinite && decide (s.currentTime ≤ time) then
      some { s with currentTime := time }
    else none
  | .ended n =>
    match s.sources[n]? with
    | none => none
    | some x =>
      if x.stopped || decide (x.endAt .exact ≤ toRat s.currentTime) then
        some { s with sources := s.sources.set n { x with pending := false } }
      else none

end AudioStream

/-- **Playback as a machine**, from the page's load. -/
def playback : Machine AudioStream Action where
  init s := s = ⟨false, 0, 0, [], true⟩
  step := AudioStream.step

/-! ## What is promised of the sources -/

/-- The sources not stopped do not overlap, and play in the order they came. -/
def AudioStream.Disjoint (reading : Reading) (s : AudioStream) : Prop :=
  s.sources.Pairwise fun x y =>
    x.stopped = false → y.stopped = false → x.endAt reading ≤ toRat y.startAt

/-- **In time**: a source does not start in the past, and moves the head to
its end; its start is ahead of the clock by the lead at most, and the head
by its duration more, up to the rounding. -/
structure Source.InTime (x : Source) (s s' : AudioStream) : Prop where
  notPast : toRat s.currentTime ≤ toRat x.startAt
  head : s'.nextPlayTime = x.startAt + x.buffer.duration
  lead : x.startAt - s.currentTime ≤ MAX_LEAD_S
  ahead : toRat s'.nextPlayTime ≤
    (toRat s.currentTime + 3 / 10 + toRat x.buffer.duration) * (1 + 2 ^ (-51 : ℤ))

/-- **What plays is over in time.** Once the head was put back, all that was
not stopped ends before the lookahead does. Where it was not, the last
source's end was not rounded down, or is before the lookahead's. A resync
needs neither. -/
def Clear (reading : Reading) (s : AudioStream) : Action → Prop
  | .decoded (some _) => s.audioCtx = true → s.drifted = false →
    if s.rewound then
      ∀ x ∈ s.sources, x.stopped = false →
        x.endAt reading ≤ toRat (s.currentTime + SCHEDULE_AHEAD_S)
    else
      ∀ x, s.sources.getLast? = some x →
        x.endAt reading ≤ x.endAt .computed ∨
          x.endAt reading ≤ toRat (s.currentTime + SCHEDULE_AHEAD_S)
  | .gesture | .start | .statechange _ | .recoverDecoder | .decoded none | .tick _
  | .ended _ => True

variable {s s' : AudioStream} {a : Action} {x : Source} {buffer : AudioBuffer}
  {reading : Reading}

/-! ## Times -/

theorem AudioBuffer.isTime (buffer : AudioBuffer) :
    IsTime buffer.duration ∧ toRat buffer.duration ≤ 2 ^ (100 : ℤ) := by
  have hmax : (4294967296 : Float).isFinite = true := rfl
  have hfinite := isFinite_of_le_of_le isFinite_zero hmax (Binary64.le_of_lt buffer.pos) buffer.most
  have hpos := (lt_iff isFinite_zero hfinite).1 buffer.pos
  have hmost := (le_iff hfinite hmax).1 buffer.most
  rw [toRat_zero] at hpos
  have hunpack : (4294967296 : Float).toModel.unpack =
      .finite .positive (2 ^ 52) (-20) (by decide) := rfl
  refine ⟨⟨hfinite, hpos.le⟩, hmost.trans ?_⟩
  rw [toRat, hunpack, value_positive]
  norm_num

theorem toRat_ahead : 1 / 1024 ≤ toRat SCHEDULE_AHEAD_S ∧
    toRat SCHEDULE_AHEAD_S ≤ 1 / 16 := by
  have hunpack : SCHEDULE_AHEAD_S.toModel.unpack =
      .finite .positive 7205759403792794 (-57) (by decide) := rfl
  rw [toRat, hunpack, value_positive]
  norm_num

theorem toRat_lead : 1 / 4 ≤ toRat MAX_LEAD_S ∧ toRat MAX_LEAD_S ≤ 3 / 10 := by
  have hunpack : MAX_LEAD_S.toModel.unpack =
      .finite .positive 5404319552844595 (-54) (by decide) := rfl
  rw [toRat, hunpack, value_positive]
  norm_num

theorem isTime_ahead : IsTime SCHEDULE_AHEAD_S := ⟨rfl, by linarith [toRat_ahead.1]⟩

theorem isFinite_lead : MAX_LEAD_S.isFinite = true := rfl

/-- The time from which on a buffer may start. -/
structure Lookahead (t : Float) : Prop where
  isTime : IsTime (t + SCHEDULE_AHEAD_S)
  later : toRat t ≤ toRat (t + SCHEDULE_AHEAD_S)
  normal : 1 / 1024 ≤ toRat (t + SCHEDULE_AHEAD_S)
  near : toRat (t + SCHEDULE_AHEAD_S) ≤ toRat t + 1 / 8

theorem lookahead {t : Float} (ht : IsTime t) : Lookahead t := by
  have hmost : toRat SCHEDULE_AHEAD_S ≤ 2 ^ (100 : ℤ) := toRat_ahead.2.trans (by norm_num)
  obtain ⟨hlater, hnormal⟩ := le_add ht isTime_ahead hmost
  have hnear := add_le ht isTime_ahead hmost
  exact ⟨(add_spec ht isTime_ahead hmost).1, hlater, toRat_ahead.1.trans hnormal, by
    linarith [toRat_ahead.2]⟩

/-- Not ahead by more than the lead, as the code measures it: the exact
difference is off by the rounding. -/
theorem le_of_not_drifted {h t : Float} (hh : IsTime h) (ht : IsTime t)
    (hle : h - t ≤ MAX_LEAD_S) : toRat h ≤ toRat t + 3 / 10 * (1 + 2 ^ (-52 : ℤ)) := by
  obtain ⟨hfinite, hnearest⟩ := sub_spec hh ht
  rw [le_iff hfinite isFinite_lead] at hle
  have hlead := hle.trans toRat_lead.2
  rcases le_or_gt (toRat h - toRat t) (3 / 10) with hsmall | hbig
  · have : (0 : ℚ) ≤ 2 ^ (-52 : ℤ) := (two_zpow_pos _).le
    linarith
  · have hnormal : (2 : ℚ) ^ (-1022 : ℤ) ≤ toRat h - toRat t :=
      (two_zpow_le (by decide : (-1022 : ℤ) ≤ -2)).trans (by norm_num; linarith)
    have herror := (abs_le.1 (hnearest.relative hnormal)).1
    have hscale : (2 : ℚ) ^ (-53 : ℤ) = 1 / 9007199254740992 := by norm_num
    have hscale' : (2 : ℚ) ^ (-52 : ℤ) = 1 / 4503599627370496 := by norm_num
    rw [hscale] at herror
    rw [hscale']
    linarith

/-- **The two readings** of an end differ by the rounding of it: what is
exactly over is over as computed. -/
theorem Source.endAt_le {t : Float} (hx : IsTime x.startAt) (ht : t.isFinite = true)
    (hle : x.endAt .exact ≤ toRat t) : x.endAt reading ≤ toRat t := by
  cases reading with
  | exact => exact hle
  | computed =>
    exact (add_spec hx x.buffer.isTime.1 x.buffer.isTime.2).2.le_toRat ht hle

@[simp] theorem Source.endAt_stop : x.stop.endAt reading = x.endAt reading := by
  unfold Source.stop
  split
  · cases reading <;> rfl
  · rfl

/-! ## The resync -/

/-- What a resync leaves unstopped was not pending. -/
theorem Source.stop_stopped : x.stop.stopped = false ↔ x.pending = false ∧ x.stopped = false := by
  unfold Source.stop
  split
  · rename_i hpending
    simp [hpending]
  · rename_i hpending
    simp [hpending]

theorem Source.startAt_stop : x.stop.startAt = x.startAt := by
  unfold Source.stop
  split <;> rfl

theorem resync_of_drifted (h : s.drifted = true) :
    s.resync = { s with sources := s.sources.map Source.stop, nextPlayTime := 0 } := if_pos h

theorem resync_of_not (h : s.drifted = false) : s.resync = s := if_neg (by simp [h])

@[simp] theorem resync_currentTime : s.resync.currentTime = s.currentTime := by
  unfold AudioStream.resync
  split <;> rfl

theorem AudioStream.Disjoint.resync (h : s.Disjoint reading) : s.resync.Disjoint reading := by
  unfold AudioStream.resync
  split
  · refine List.pairwise_map.2 (h.imp fun hxy hx hy => ?_)
    rw [Source.endAt_stop, Source.startAt_stop]
    exact hxy (Source.stop_stopped.1 hx).2 (Source.stop_stopped.1 hy).2
  · exact h

/-- A resync does nothing to a source but stop it. -/
theorem mem_resync (hx : x ∈ s.resync.sources) : ∃ y ∈ s.sources, x = y ∨ x = y.stop := by
  unfold AudioStream.resync at hx
  split at hx
  · obtain ⟨y, hy, rfl⟩ := List.mem_map.1 hx
    exact ⟨y, hy, .inr rfl⟩
  · exact ⟨x, hx, .inl rfl⟩

/-! ## What every run keeps -/

/-- All of a source but whether it is pending. -/
def Source.span (x : Source) : Float × AudioBuffer × Bool := (x.startAt, x.buffer, x.stopped)

/-- An end changes nothing else. -/
theorem map_span_set {n : ℕ} (hget : s.sources[n]? = some x) :
    (s.sources.set n { x with pending := false }).map Source.span = s.sources.map Source.span := by
  obtain ⟨hlt, rfl⟩ := List.getElem?_eq_some_iff.1 hget
  have hself : Source.span { s.sources[n] with pending := false }
      = (s.sources.map Source.span).get ⟨n, by simpa using hlt⟩ := by
    rw [List.get_eq_getElem, List.getElem_map]
    rfl
  rw [List.map_set, hself, List.get_eq_getElem, List.set_getElem_self]

/-- **What every run keeps.** The clock and the head are times; a source
neither pending nor stopped has played out; and the head is zero once it was
put back, and until then where the last source ends. -/
structure AudioStream.Kept (s : AudioStream) : Prop where
  clock : IsTime s.currentTime
  head : IsTime s.nextPlayTime
  starts : ∀ x ∈ s.sources, IsTime x.startAt
  played : ∀ x ∈ s.sources, x.pending = false → x.stopped = false →
    x.endAt .exact ≤ toRat s.currentTime
  back : s.rewound = true → s.nextPlayTime = 0
  last : s.rewound = false → ∃ x, s.sources.getLast? = some x ∧ x.stopped = false ∧
    s.nextPlayTime = x.startAt + x.buffer.duration

/-- The head is put back. -/
theorem AudioStream.Kept.rewind (h : s.Kept) : s.rewind.Kept :=
  ⟨h.clock, isTime_zero, h.starts, h.played, fun _ => rfl, fun hrewound => by cases hrewound⟩

/-- **A resync keeps the times**, whatever it stops. -/
theorem AudioStream.Kept.resync (h : s.Kept) :
    IsTime s.resync.nextPlayTime ∧ (∀ x ∈ s.resync.sources, IsTime x.startAt) ∧
      ∀ x ∈ s.resync.sources, x.pending = false → x.stopped = false →
        x.endAt .exact ≤ toRat s.currentTime := by
  refine ⟨?_, fun x hx => ?_, fun x hx hpending hstopped => ?_⟩
  · unfold AudioStream.resync
    split
    · exact isTime_zero
    · exact h.head
  · obtain ⟨y, hy, rfl | rfl⟩ := mem_resync hx
    · exact h.starts x hy
    · rw [Source.startAt_stop]
      exact h.starts y hy
  · obtain ⟨y, hy, rfl | rfl⟩ := mem_resync hx
    · exact h.played x hy hpending hstopped
    · obtain ⟨hypending, hystopped⟩ := Source.stop_stopped.1 hstopped
      rw [Source.endAt_stop]
      exact h.played y hy hypending hystopped

/-- The source a buffer becomes. -/
def AudioStream.appended (s : AudioStream) (buffer : AudioBuffer) : Source :=
  ⟨max (s.currentTime + SCHEDULE_AHEAD_S) s.nextPlayTime, buffer, true, false⟩

theorem append_sources : (s.append buffer).sources = s.sources ++ [s.appended buffer] := rfl

/-- **When a buffer starts**: at the later of lookahead and head. -/
theorem appended_spec (buffer : AudioBuffer) (hclock : IsTime s.currentTime)
    (hhead : IsTime s.nextPlayTime) :
    IsTime (s.appended buffer).startAt ∧ toRat (s.appended buffer).startAt =
      max (toRat (s.currentTime + SCHEDULE_AHEAD_S)) (toRat s.nextPlayTime) :=
  max_spec (lookahead hclock).isTime hhead

theorem scheduleAudio_of_not (hctx : s.audioCtx = false) (buffer : Option AudioBuffer) :
    s.scheduleAudio buffer = s := if_neg (by simp [hctx])

theorem scheduleAudio_none : s.scheduleAudio none = s := by
  unfold AudioStream.scheduleAudio
  split <;> rfl

theorem scheduleAudio_some (hctx : s.audioCtx = true) :
    s.scheduleAudio (some buffer) = s.resync.append buffer := if_pos hctx

theorem AudioStream.Kept.scheduleAudio (h : s.Kept) (buffer : Option AudioBuffer) :
    (s.scheduleAudio buffer).Kept := by
  unfold AudioStream.scheduleAudio
  split
  · split
    · exact h
    · rename_i buffer
      obtain ⟨hhead, hstarts, hplayed⟩ := h.resync
      have hclock : IsTime s.resync.currentTime := by
        rw [resync_currentTime]
        exact h.clock
      have hstart := (appended_spec buffer hclock hhead).1
      refine ⟨hclock, (add_spec hstart buffer.isTime.1 buffer.isTime.2).1, fun x hx => ?_,
        fun x hx hpending hstopped => ?_, fun hrewound => ?_, fun _ => ?_⟩
      · rcases List.mem_append.1 hx with hx | hx
        · exact hstarts x hx
        · rw [List.mem_singleton.1 hx]
          exact hstart
      · rcases List.mem_append.1 hx with hx | hx
        · have hended := hplayed x hx hpending hstopped
          rwa [← resync_currentTime] at hended
        · rw [List.mem_singleton.1 hx] at hpending
          cases hpending
      · cases hrewound
      · exact ⟨s.resync.appended buffer, List.getLast?_concat .., rfl, rfl⟩
  · exact h

theorem AudioStream.Kept.tick {time : Float} (h : s.Kept) (hfinite : time.isFinite = true)
    (hle : s.currentTime ≤ time) : AudioStream.Kept { s with currentTime := time } := by
  have hle' := (le_iff h.clock.finite hfinite).1 hle
  exact ⟨⟨hfinite, h.clock.nonneg.trans hle'⟩, h.head, h.starts,
    fun x hx hpending hstopped => (h.played x hx hpending hstopped).trans hle', h.back, h.last⟩

/-- A source that is over ends. -/
theorem AudioStream.Kept.ended {n : ℕ} (h : s.Kept) (hget : s.sources[n]? = some x)
    (hover : x.stopped = false → x.endAt .exact ≤ toRat s.currentTime) :
    AudioStream.Kept { s with sources := s.sources.set n { x with pending := false } } := by
  refine ⟨h.clock, h.head, fun y hy => ?_, fun y hy hpending hstopped => ?_, h.back,
    fun hrewound => ?_⟩
  · rcases List.mem_or_eq_of_mem_set hy with hy | rfl
    · exact h.starts y hy
    · exact h.starts x (List.mem_of_getElem? hget)
  · rcases List.mem_or_eq_of_mem_set hy with hy | rfl
    · exact h.played y hy hpending hstopped
    · exact hover hstopped
  · obtain ⟨y, hlast, hstopped, hhead⟩ := h.last hrewound
    have hspan := congrArg List.getLast? (map_span_set hget)
    rw [List.getLast?_map, List.getLast?_map, hlast, Option.map_some,
      Option.map_eq_some_iff] at hspan
    obtain ⟨z, hz, hzy⟩ := hspan
    simp only [Source.span, Prod.mk.injEq] at hzy
    obtain ⟨hstart, hbuffer, hzstopped⟩ := hzy
    exact ⟨z, hz, hzstopped.trans hstopped, by rw [hstart, hbuffer]; exact hhead⟩

/-- **Steps keep what every run keeps.** -/
theorem AudioStream.Kept.step (h : s.Kept) (hstep : s.step a = some s') : s'.Kept := by
  cases a with
  | gesture =>
    cases hstep
    exact ⟨h.clock, h.head, h.starts, h.played, h.back, h.last⟩
  | start | recoverDecoder =>
    cases hstep
    exact h.rewind
  | statechange running =>
    cases hstep
    unfold AudioStream.statechange
    split
    · exact h.rewind
    · exact h
  | decoded buffer =>
    cases hstep
    exact h.scheduleAudio buffer
  | tick time =>
    simp only [AudioStream.step] at hstep
    split at hstep
    · rename_i htick
      cases hstep
      simp only [Bool.and_eq_true, decide_eq_true_eq] at htick
      obtain ⟨⟨-, hfinite⟩, hle⟩ := htick
      exact h.tick hfinite hle
    · cases hstep
  | ended n =>
    simp only [AudioStream.step] at hstep
    split at hstep
    · cases hstep
    · rename_i x hget
      split at hstep
      · rename_i hended
        cases hstep
        simp only [Bool.or_eq_true, decide_eq_true_eq] at hended
        exact h.ended hget fun hstopped => hended.resolve_left (by rw [hstopped]; nofun)
      · cases hstep

/-! ## Putting a buffer after the others -/

/-- **A buffer goes after the others exactly when they are over** by the
head, or by the time the lookahead is. -/
theorem disjoint_append (hclock : IsTime s.currentTime) (hhead : IsTime s.nextPlayTime) :
    (s.append buffer).Disjoint reading ↔ s.Disjoint reading ∧
      ∀ x ∈ s.sources, x.stopped = false →
        x.endAt reading ≤ toRat (s.currentTime + SCHEDULE_AHEAD_S) ∨
          x.endAt reading ≤ toRat s.nextPlayTime := by
  have hstart := (appended_spec buffer hclock hhead).2
  unfold AudioStream.Disjoint
  rw [append_sources, List.pairwise_append]
  constructor
  · rintro ⟨hold, -, hnew⟩
    refine ⟨hold, fun x hx hstopped => ?_⟩
    have hle := hnew x hx _ (List.mem_singleton_self _) hstopped rfl
    rw [hstart] at hle
    exact le_max_iff.1 hle
  · rintro ⟨hold, hnew⟩
    refine ⟨hold, List.pairwise_singleton _ _, fun x hx y hy hstopped _ => ?_⟩
    rw [List.mem_singleton.1 hy, hstart]
    exact le_max_iff.2 (hnew x hx hstopped)

/-- Where the head was not put back, all before the last source is over by
the head, and of the last one what is not rounded off. -/
theorem AudioStream.Kept.ends (h : s.Kept) (hdisjoint : s.Disjoint reading)
    (hrewound : s.rewound = false) : ∃ x, s.sources.getLast? = some x ∧ x.stopped = false ∧
      x ∈ s.sources ∧ x.endAt .computed = toRat s.nextPlayTime ∧
        ∀ y ∈ s.sources, y.stopped = false → y.endAt reading ≤ toRat s.nextPlayTime ∨ y = x := by
  obtain ⟨x, hlast, hstopped, hhead⟩ := h.last hrewound
  obtain ⟨before, hsources⟩ := List.getLast?_eq_some_iff.1 hlast
  have hx : x ∈ s.sources := List.mem_of_getLast? hlast
  have hcomputed : x.endAt .computed = toRat s.nextPlayTime := by
    rw [hhead]
    rfl
  refine ⟨x, hlast, hstopped, hx, hcomputed, fun y hy hy' => ?_⟩
  rw [hsources] at hy
  rcases List.mem_append.1 hy with hy | hy
  · left
    have hdisjoint' := hdisjoint
    rw [AudioStream.Disjoint, hsources, List.pairwise_append] at hdisjoint'
    have hbefore := hdisjoint'.2.2 y hy x (List.mem_singleton_self x) hy' hstopped
    -- the last source ends after it starts, and so does the one before
    have hstart := (le_add (h.starts x hx) x.buffer.isTime.1 x.buffer.isTime.2).1
    rw [← hhead] at hstart
    exact hbefore.trans hstart
  · exact .inr (List.mem_singleton.1 hy)

/-- **Scheduling a buffer**: disjoint sources stay disjoint exactly when the
step is clear. -/
theorem disjoint_scheduleAudio (hkept : s.Kept) (hdisjoint : s.Disjoint reading)
    (hctx : s.audioCtx = true) :
    (s.scheduleAudio (some buffer)).Disjoint reading ↔
      Clear reading s (.decoded (some buffer)) := by
  have hclock : IsTime s.resync.currentTime := by
    rw [resync_currentTime]
    exact hkept.clock
  have hahead := lookahead hkept.clock
  rw [scheduleAudio_some hctx, disjoint_append hclock hkept.resync.1,
    and_iff_right hdisjoint.resync, resync_currentTime]
  cases hdrifted : s.drifted with
  | true =>
    -- after a resync whatever still counts is over by now
    refine iff_of_true (fun x hx hstopped => .inl ?_) (fun _ hnot => ?_)
    · have hpending : x.pending = false := by
        rw [resync_of_drifted hdrifted] at hx
        obtain ⟨y, hy, rfl⟩ := List.mem_map.1 hx
        have hy' := (Source.stop_stopped.1 hstopped).1
        unfold Source.stop
        rw [if_neg (by simp [hy'])]
        exact hy'
      have hended := hkept.resync.2.2 x hx hpending hstopped
      exact (Source.endAt_le (hkept.resync.2.1 x hx) hkept.clock.finite hended).trans hahead.later
    · rw [hdrifted] at hnot
      cases hnot
  | false =>
    rw [resync_of_not hdrifted]
    simp only [Clear, hctx, hdrifted, forall_const]
    cases hrewound : s.rewound with
    | true =>
      rw [if_pos rfl]
      refine forall₃_congr fun x _ _ => ⟨fun hle => hle.elim id fun hle => ?_, .inl⟩
      rw [hkept.back hrewound, toRat_zero] at hle
      exact hle.trans hahead.isTime.nonneg
    | false =>
      rw [if_neg Bool.false_ne_true]
      obtain ⟨x, hlast, hstopped, hx, hcomputed, hends⟩ := hkept.ends hdisjoint hrewound
      constructor
      · intro hall y hy
        rw [hlast] at hy
        obtain rfl := Option.some.inj hy
        rw [hcomputed]
        exact (hall x hx hstopped).symm
      · intro hclear y hy hy'
        rcases hends y hy hy' with hle | rfl
        · exact .inr hle
        · rw [← hcomputed]
          exact (hclear y hlast).symm

/-- Where disjointness looks. -/
theorem disjoint_iff_span : s.Disjoint reading ↔ (s.sources.map Source.span).Pairwise fun u v =>
    u.2.2 = false → v.2.2 = false →
      (Source.mk u.1 u.2.1 true u.2.2).endAt reading ≤ toRat v.1 := by
  rw [List.pairwise_map]
  cases reading <;> exact Iff.rfl

/-- **One step**: disjoint sources stay disjoint exactly when the step is
clear. -/
theorem disjoint_step (hkept : s.Kept) (hdisjoint : s.Disjoint reading)
    (hstep : s.step a = some s') : s'.Disjoint reading ↔ Clear reading s a := by
  cases a with
  | gesture | start | recoverDecoder =>
    cases hstep
    exact iff_of_true hdisjoint trivial
  | statechange running =>
    cases hstep
    refine iff_of_true ?_ trivial
    unfold AudioStream.statechange
    split
    · exact hdisjoint
    · exact hdisjoint
  | decoded buffer =>
    cases hstep
    cases hctx : s.audioCtx with
    | false =>
      rw [scheduleAudio_of_not hctx]
      refine iff_of_true hdisjoint ?_
      cases buffer with
      | none => trivial
      | some buffer =>
        intro hnot
        rw [hctx] at hnot
        cases hnot
    | true =>
      cases buffer with
      | none =>
        rw [scheduleAudio_none]
        exact iff_of_true hdisjoint trivial
      | some buffer => exact disjoint_scheduleAudio hkept hdisjoint hctx
  | tick time =>
    simp only [AudioStream.step] at hstep
    split at hstep
    · cases hstep
      exact iff_of_true hdisjoint trivial
    · cases hstep
  | ended n =>
    simp only [AudioStream.step] at hstep
    split at hstep
    · cases hstep
    · rename_i x hget
      split at hstep
      · cases hstep
        refine iff_of_true ?_ trivial
        rw [disjoint_iff_span] at hdisjoint ⊢
        rw [map_span_set hget]
        exact hdisjoint
      · cases hstep

/-! ## In time -/

/-- The head as a resync leaves it is ahead by the lead at most. -/
theorem AudioStream.Kept.lead (h : s.Kept) :
    s.resync.nextPlayTime - s.currentTime ≤ MAX_LEAD_S := by
  have hhead := h.resync.1
  obtain ⟨hfinite, hnearest⟩ := sub_spec hhead h.clock
  rw [le_iff hfinite isFinite_lead]
  cases hdrifted : s.drifted with
  | true =>
    rw [resync_of_drifted hdrifted] at hnearest ⊢
    have hle := hnearest.nonpos (by rw [toRat_zero]; linarith [h.clock.nonneg])
    have hlead := toRat_lead.1
    exact hle.trans (by linarith)
  | false =>
    rw [resync_of_not hdrifted] at hfinite ⊢
    rw [AudioStream.drifted, decide_eq_false_iff_not, lt_iff isFinite_lead hfinite, not_lt]
      at hdrifted
    exact hdrifted

/-- **The head after a start** that is ahead by the lead at most: the two
sums' roundings are four parts in 2⁵³. -/
theorem add_duration_le {start t : Float} (hstart : IsTime start) (ht : IsTime t)
    (hnormal : 1 / 1024 ≤ toRat start) (hlead : start - t ≤ MAX_LEAD_S) (buffer : AudioBuffer) :
    toRat (start + buffer.duration) ≤
      (toRat t + 3 / 10 + toRat buffer.duration) * (1 + 2 ^ (-51 : ℤ)) := by
  have hsum : (2 : ℚ) ^ (-1022 : ℤ) ≤ toRat start + toRat buffer.duration :=
    calc (2 : ℚ) ^ (-1022 : ℤ) ≤ 2 ^ (-10 : ℤ) := two_zpow_le (by decide)
      _ = 1 / 1024 := by norm_num
      _ ≤ toRat start := hnormal
      _ ≤ _ := le_add_of_nonneg_right buffer.isTime.1.nonneg
  have hle := le_of_not_drifted hstart ht hlead
  have hclock := ht.nonneg
  have hduration := buffer.isTime.1.nonneg
  calc toRat (start + buffer.duration)
      ≤ (toRat start + toRat buffer.duration) * (1 + 2 ^ (-53 : ℤ)) :=
        add_le_mul hstart buffer.isTime.1 buffer.isTime.2 hsum
    _ ≤ (toRat t + 3 / 10 + toRat buffer.duration) * (1 + 2 ^ (-52 : ℤ)) *
          (1 + 2 ^ (-53 : ℤ)) := by
        refine mul_le_mul_of_nonneg_right ?_ (by positivity)
        have hε : (0 : ℚ) < 2 ^ (-52 : ℤ) := two_zpow_pos _
        nlinarith
    _ = (toRat t + 3 / 10 + toRat buffer.duration) *
          ((1 + 2 ^ (-52 : ℤ)) * (1 + 2 ^ (-53 : ℤ))) := mul_assoc _ _ _
    _ ≤ (toRat t + 3 / 10 + toRat buffer.duration) * (1 + 2 ^ (-51 : ℤ)) := by
        refine mul_le_mul_of_nonneg_left (by norm_num) (by linarith)

/-- **Every buffer is scheduled in time.** -/
theorem AudioStream.Kept.inTime (h : s.Kept) (hctx : s.audioCtx = true) :
    ∃ x, (s.scheduleAudio (some buffer)).sources.getLast? = some x ∧ x.buffer = buffer ∧
      x.InTime s (s.scheduleAudio (some buffer)) := by
  obtain ⟨hhead, -, -⟩ := h.resync
  have hahead := lookahead h.clock
  have hclock : IsTime s.resync.currentTime := by
    rw [resync_currentTime]
    exact h.clock
  obtain ⟨htime, hmax⟩ := appended_spec buffer hclock hhead
  rw [resync_currentTime] at hmax
  have hlater : toRat (s.currentTime + SCHEDULE_AHEAD_S) ≤
      toRat (s.resync.appended buffer).startAt := hmax ▸ le_max_left _ _
  -- the start is the lookahead, or the head
  have hlead : (s.resync.appended buffer).startAt - s.currentTime ≤ MAX_LEAD_S := by
    rcases max_eq_or (s.resync.currentTime + SCHEDULE_AHEAD_S) s.resync.nextPlayTime with hor | hor
    · obtain ⟨hfinite, hnearest⟩ := sub_spec hahead.isTime h.clock
      rw [AudioStream.appended, hor, resync_currentTime, le_iff hfinite isFinite_lead]
      refine hnearest.le_toRat isFinite_lead ?_
      linarith [hahead.near, toRat_lead.1]
    · rw [AudioStream.appended, hor]
      exact h.lead
  rw [scheduleAudio_some hctx]
  exact ⟨s.resync.appended buffer, List.getLast?_concat .., rfl, hahead.later.trans hlater, rfl,
    hlead, add_duration_le htime h.clock (hahead.normal.trans hlater) hlead buffer⟩

/-! ## Runs -/

theorem kept_of_reachable (h : playback.Reachable s) : s.Kept := by
  refine h.invariant (fun s hs => ?_) fun s a s' hstep hkept => hkept.step hstep
  obtain rfl := hs
  exact ⟨isTime_zero, isTime_zero, fun x hx => (by cases hx), fun x hx => (by cases hx),
    fun _ => rfl, fun hrewound => (by cases hrewound)⟩

theorem disjoint_of_reach (h : playback.Reach (Clear reading) s) : s.Disjoint reading := by
  refine h.invariant_of (Q := AudioStream.Kept) (fun s hs => kept_of_reachable hs.reachable)
    (fun s hs => ?_) fun s a s' hkept _ hclear hstep hdisjoint => ?_
  · obtain rfl := hs
    exact List.Pairwise.nil
  · exact (disjoint_step hkept hdisjoint hstep).2 hclear

/-- Rounded sums pass the lead: the clock stands, and the 26th buffer of
10 ms finds the head drifted, where decimals would just reach the lead. -/
example : ((List.replicate 25 (some (AudioBuffer.mk 0.01 (by decide +kernel) (by decide +kernel)))
    ).foldl AudioStream.scheduleAudio ⟨true, 0, 0, [], true⟩).drifted = true := by
  decide +kernel

/-- A buffer of one second. -/
def second : AudioBuffer := ⟨1, by decide +kernel, by decide +kernel⟩

/-- A buffer, and a decoder error a second later. -/
def oneBuffer : List Action := [.decoded (some second), .tick 1, .recoverDecoder]

end WebAudio

end WaylandWebStream
