import WaylandWebStream.Lib.Casts

/-!
# Adaptive bitrate — the decision algorithm

`BitrateAlgorithm` turns congestion signals, latency reports and ticks
into target rates: slow start until the first congestion cut, additive
increase and multiplicative decrease afterwards. A client's burst report
(`ArrivalStall`) cuts only next to a recent server-side `SendBacklog`.

A rate is a `usize` of 64 bits and a factor a double: a product is rounded
as doubles are and cut off to a `usize`, and a sum wraps round, as it does in
a release build. An `Instant` counts nanoseconds, and the subtraction that
saturates is `duration_since`. A latency is anything that can be compared
with the ceiling.
-/

namespace WaylandWebStream

namespace Bitrate

/-- `Duration::from_secs`, in nanoseconds. -/
def fromSecs (secs : ℕ) : ℕ := secs * 1000000000

/-- `ARRIVAL_STALL_CORROBORATION_WINDOW`. -/
def arrivalStallCorroborationWindow : ℕ := fromSecs 5

variable {Ms : Type*}

/-- The controller's configuration. -/
structure AdaptiveBitrateConfig (Ms : Type*) where
  minBitrate : ℕ
  maxBitrate : ℕ
  initialBitrate : ℕ
  /-- The multiplicative cut of a congestion signal. -/
  decreaseFactor : Float
  /-- The least spacing between two cuts, and from a cut to growth. -/
  decreaseCooldown : ℕ
  /-- The growth of a tick in slow start. -/
  slowStartFactor : Float
  /-- The growth of a tick in congestion avoidance. -/
  additiveIncrease : ℕ
  /-- The latency above which growth is held off. -/
  latencyCeilingMs : Ms

/-- The configurations the algorithm is meant for, in `usize`s. -/
structure AdaptiveBitrateConfig.Valid (cfg : AdaptiveBitrateConfig Ms) : Prop where
  min_le_initial : cfg.minBitrate ≤ cfg.initialBitrate
  initial_le_max : cfg.initialBitrate ≤ cfg.maxBitrate
  max_lt : cfg.maxBitrate < 2 ^ 64
  increase_lt : cfg.additiveIncrease < 2 ^ 64
  decrease_pos : 0 < cfg.decreaseFactor
  decrease_lt_one : cfg.decreaseFactor < 1
  one_le_slowStart : 1 ≤ cfg.slowStartFactor

/-- `AdaptiveBitrateConfig::default`. -/
def AdaptiveBitrateConfig.default [OfNat Ms 150] : AdaptiveBitrateConfig Ms where
  minBitrate := 500000
  maxBitrate := 12000000
  initialBitrate := 2000000
  decreaseFactor := 0.75
  decreaseCooldown := fromSecs 2
  slowStartFactor := 1.4
  additiveIncrease := 150000
  latencyCeilingMs := 150

/-- The default factors, in order. -/
theorem default_factors : (0 : Float) < 0.75 ∧ (0.75 : Float) < 1 ∧ (1 : Float) < 1.4 := by
  decide +kernel

/-- The defaults are such a configuration. -/
theorem AdaptiveBitrateConfig.default_valid [OfNat Ms 150] :
    (AdaptiveBitrateConfig.default : AdaptiveBitrateConfig Ms).Valid where
  min_le_initial := by norm_num [AdaptiveBitrateConfig.default]
  initial_le_max := by norm_num [AdaptiveBitrateConfig.default]
  max_lt := by norm_num [AdaptiveBitrateConfig.default]
  increase_lt := by norm_num [AdaptiveBitrateConfig.default]
  decrease_pos := default_factors.1
  decrease_lt_one := default_factors.2.1
  one_le_slowStart := Binary64.le_of_lt default_factors.2.2

/-- The growth rule in force. -/
inductive Phase
  | slowStart
  | congestionAvoidance
  deriving DecidableEq

/-- The decision state. -/
structure BitrateAlgorithm (Ms : Type*) where
  config : AdaptiveBitrateConfig Ms
  currentBitrate : ℕ
  ssthresh : ℕ
  phase : Phase
  lastDecrease : Option ℕ
  lastLatencyMs : Option Ms
  lastBacklog : Option ℕ

/-- `(rate as f64 * factor) as usize`. -/
def scaled (rate : ℕ) (factor : Float) : ℕ :=
  ((UInt64.ofNat rate).toFloat * factor).toUInt64.toNat

/-- `rate as f64 as usize`. -/
def asDouble (rate : ℕ) : ℕ := (UInt64.ofNat rate).toFloat.toUInt64.toNat

section Scaled

variable {rate : ℕ} {factor : Float}

theorem toNat_ofNat_rate (hrate : rate < 2 ^ 64) : (UInt64.ofNat rate).toNat = rate :=
  UInt64.toNat_ofNat_of_lt' hrate

/-- A factor between zero and one does not raise a rate. -/
theorem scaled_le (hrate : rate < 2 ^ 64) (h0 : 0 < factor) (h1 : factor < 1) :
    scaled rate factor ≤ rate := by
  have hfinite : factor.isFinite = true := Binary64.isFinite_of_le_of_le Binary64.isFinite_zero
    Binary64.isFinite_one (Binary64.le_of_lt h0) (Binary64.le_of_lt h1)
  have hle := Binary64.cast_mul_le (n := UInt64.ofNat rate) hfinite
    ((Binary64.lt_iff Binary64.isFinite_zero hfinite).1 h0).le
    (Binary64.toRat_one ▸ (Binary64.lt_iff hfinite Binary64.isFinite_one).1 h1)
  rwa [toNat_ofNat_rate hrate] at hle

/-- A factor above one does not lower a rate. -/
theorem le_scaled (hrate : rate < 2 ^ 64) (h : 1 < factor) : rate ≤ scaled rate factor := by
  have hle := Binary64.le_cast_mul (n := UInt64.ofNat rate) h
  rwa [toNat_ofNat_rate hrate] at hle

/-- A factor of one may, where the rate has no double of its own. -/
theorem scaled_one (h1 : 1 ≤ factor) (h : ¬ 1 < factor) : scaled rate factor = asDouble rate := by
  obtain ⟨hfinite, hone⟩ := Binary64.eq_one_of_le h1 h
  exact Binary64.cast_mul_one hfinite hone

end Scaled

/-- What is fed into the algorithm: the `BitrateEvent`s and the tick. -/
inductive Signal (Ms : Type*)
  | sendBacklog
  | arrivalStall
  | latency (ms : Ms)
  | tick

/-- A signal at an instant. -/
structure Call (Ms : Type*) where
  signal : Signal Ms
  now : ℕ

namespace BitrateAlgorithm

/-- `BitrateAlgorithm::new`. -/
def new (config : AdaptiveBitrateConfig Ms) : BitrateAlgorithm Ms where
  config := config
  currentBitrate := config.initialBitrate
  ssthresh := config.maxBitrate
  phase := .slowStart
  lastDecrease := none
  lastLatencyMs := none
  lastBacklog := none

variable (a : BitrateAlgorithm Ms) (now : ℕ)

/-- The last cut is less than the cooldown ago. -/
def inCooldown : Bool :=
  a.lastDecrease.any fun last => now - last < a.config.decreaseCooldown

/-- The rate a cut goes to. -/
def cutRate : ℕ := max (scaled a.currentBitrate a.config.decreaseFactor) a.config.minBitrate

/-- The multiplicative cut both congestion signals share. -/
def cut : BitrateAlgorithm Ms × Option ℕ :=
  if a.inCooldown now then (a, none)
  else
    let newRate := a.cutRate
    let a' := { a with
      ssthresh := newRate
      phase := .congestionAvoidance
      lastDecrease := some now }
    if newRate ≠ a.currentBitrate then ({ a' with currentBitrate := newRate }, some newRate)
    else (a', none)

/-- The server's own send backpressure: recorded, and cut for at once. -/
def onSendBacklog : BitrateAlgorithm Ms × Option ℕ :=
  { a with lastBacklog := some now }.cut now

/-- A `SendBacklog` was seen less than the window ago. -/
def corroborated : Bool :=
  a.lastBacklog.any fun t => now - t < arrivalStallCorroborationWindow

/-- A client's burst report: a cut where it is corroborated. -/
def onArrivalStall : BitrateAlgorithm Ms × Option ℕ :=
  if a.corroborated now then a.cut now else (a, none)

/-- Records a client's decode latency. -/
def onLatencyReport (ms : Ms) : BitrateAlgorithm Ms := { a with lastLatencyMs := some ms }

variable [LT Ms] [DecidableLT Ms]

/-- The last reported latency is above the ceiling. -/
def latencyElevated : Bool := a.lastLatencyMs.any fun ms => a.config.latencyCeilingMs < ms

/-- The rate a tick proposes, before the ceiling. -/
def proposed : ℕ :=
  match a.phase with
  | .slowStart => min (scaled a.currentBitrate a.config.slowStartFactor) a.ssthresh
  | .congestionAvoidance => (a.currentBitrate + a.config.additiveIncrease) % 2 ^ 64

/-- The rate a tick goes to. -/
def growRate : ℕ := min a.proposed a.config.maxBitrate

/-- The periodic growth check. -/
def tick : BitrateAlgorithm Ms × Option ℕ :=
  if a.inCooldown now then (a, none)
  else if a.latencyElevated then (a, none)
  else
    let newRate := a.growRate
    let a' := if a.phase = .slowStart ∧ a.ssthresh ≤ newRate then
      { a with phase := .congestionAvoidance } else a
    if newRate ≠ a.currentBitrate then ({ a' with currentBitrate := newRate }, some newRate)
    else (a', none)

/-- One call, and the target it returns. -/
def call (c : Call Ms) : BitrateAlgorithm Ms × Option ℕ :=
  match c.signal with
  | .sendBacklog => a.onSendBacklog c.now
  | .arrivalStall => a.onArrivalStall c.now
  | .latency ms => (a.onLatencyReport ms, none)
  | .tick => a.tick c.now

/-- A sequence of calls: the state it ends in and the targets returned. -/
def run (a : BitrateAlgorithm Ms) : List (Call Ms) → BitrateAlgorithm Ms × List ℕ
  | [] => (a, [])
  | c :: calls =>
    let (a', target) := a.call c
    let (b, targets) := a'.run calls
    (b, target.toList ++ targets)

/-- The state a sequence of calls ends in. -/
def after (cfg : AdaptiveBitrateConfig Ms) (calls : List (Call Ms)) : BitrateAlgorithm Ms :=
  ((new cfg).run calls).1

/-! ## What a call does -/

/-- The call is a congestion signal: a backlog, or a burst next to one. -/
def congestion (c : Call Ms) : Bool :=
  match c.signal with
  | .sendBacklog => true
  | .arrivalStall => a.corroborated c.now
  | _ => false

/-- The call is a congestion signal that is not coalesced into an earlier
one. -/
def cuts (c : Call Ms) : Bool := a.congestion c && !a.inCooldown c.now

/-- The call is a tick that nothing holds off. -/
def grows (c : Call Ms) : Bool :=
  match c.signal with
  | .tick => !a.inCooldown c.now && !a.latencyElevated
  | _ => false

/-- The state with the call recorded, whatever comes of it. -/
def heard (c : Call Ms) : BitrateAlgorithm Ms :=
  { a with
    lastBacklog := match c.signal with
      | .sendBacklog => some c.now
      | _ => a.lastBacklog
    lastLatencyMs := match c.signal with
      | .latency ms => some ms
      | _ => a.lastLatencyMs }

/-- The state after a cut. -/
def lowered : BitrateAlgorithm Ms :=
  { a with
    currentBitrate := a.cutRate
    ssthresh := a.cutRate
    phase := .congestionAvoidance
    lastDecrease := some now }

/-- The state after a growth step. -/
def raised : BitrateAlgorithm Ms :=
  { a with
    currentBitrate := a.growRate
    phase := if a.phase = .slowStart ∧ a.ssthresh ≤ a.growRate then .congestionAvoidance
      else a.phase }

variable {a now} {c : Call Ms} {cfg : AdaptiveBitrateConfig Ms}

omit [LT Ms] [DecidableLT Ms] in
/-- A cut outside the cooldown, whether or not it moves the rate. -/
theorem cut_state : (a.cut now).1 = if a.inCooldown now then a else a.lowered now := by
  unfold cut
  split_ifs with hc
  · rfl
  · dsimp only
    split_ifs with hr
    · rfl
    · rw [lowered, not_not.1 hr]

omit [LT Ms] [DecidableLT Ms] in
theorem cut_target : (a.cut now).2 = if (a.cut now).1.currentBitrate = a.currentBitrate then none
    else some (a.cut now).1.currentBitrate := by
  rw [cut_state]
  unfold cut
  dsimp only
  split_ifs <;> simp_all [lowered]

theorem tick_state : (a.tick now).1 =
    if a.inCooldown now ∨ a.latencyElevated then a else a.raised := by
  unfold tick
  by_cases hc : a.inCooldown now
  · simp [hc]
  by_cases hl : a.latencyElevated
  · simp [hl]
  rw [if_neg hc, if_neg hl, if_neg (not_or.2 ⟨hc, hl⟩), raised]
  dsimp only
  split_ifs with hmove hphase hphase
  · rfl
  · rfl
  · rw [not_not.1 hmove]
  · rw [not_not.1 hmove]

theorem tick_target : (a.tick now).2 = if (a.tick now).1.currentBitrate = a.currentBitrate then none
    else some (a.tick now).1.currentBitrate := by
  rw [tick_state]
  unfold tick
  dsimp only
  split_ifs <;> simp_all [raised]

/-- **What a call does**: it is recorded, and then it cuts, or grows, or
does nothing more. -/
theorem call_state : (a.call c).1 =
    if a.cuts c then (a.heard c).lowered c.now else if a.grows c then a.raised else a.heard c := by
  obtain ⟨signal, now⟩ := c
  cases signal with
  | sendBacklog =>
    have hcut : (a.call ⟨.sendBacklog, now⟩).1 = if a.inCooldown now then a.heard ⟨.sendBacklog, now⟩
        else (a.heard ⟨.sendBacklog, now⟩).lowered now := cut_state
    rw [hcut]
    by_cases hc : a.inCooldown now <;> simp [cuts, congestion, grows, hc]
  | arrivalStall =>
    have hheard : a.heard ⟨.arrivalStall, now⟩ = a := rfl
    simp only [call, onArrivalStall, cuts, congestion, grows, hheard]
    by_cases hr : a.corroborated now <;> by_cases hc : a.inCooldown now <;>
      simp [hr, hc, cut_state]
  | latency ms => rfl
  | tick =>
    have hheard : a.heard ⟨.tick, now⟩ = a := rfl
    simp only [call, tick_state, cuts, congestion, grows, hheard]
    by_cases hc : a.inCooldown now <;> by_cases hl : a.latencyElevated <;> simp [hc, hl]

/-- The configuration never changes. -/
@[simp] theorem call_config : (a.call c).1.config = a.config := by
  rw [call_state]
  split_ifs <;> rfl

/-- **The rate a call leaves.** A cut and a growth each go to their own
rate, and nothing else moves it. -/
theorem call_currentBitrate :
    (a.call c).1.currentBitrate =
      if a.cuts c then a.cutRate else if a.grows c then a.growRate else a.currentBitrate := by
  rw [call_state]
  split_ifs <;> rfl

/-- Only a cut moves the instant of the last decrease. -/
theorem call_lastDecrease :
    (a.call c).1.lastDecrease = if a.cuts c then some c.now else a.lastDecrease := by
  rw [call_state]
  split_ifs <;> rfl

/-- Only a cut moves the slow-start threshold. -/
theorem call_ssthresh :
    (a.call c).1.ssthresh = if a.cuts c then a.cutRate else a.ssthresh := by
  rw [call_state]
  split_ifs <;> rfl

/-- **Slow start is left for good**, by a cut at the latest. -/
theorem call_phase (h : (a.call c).1.phase = .slowStart) :
    a.phase = .slowStart ∧ a.cuts c = false := by
  rw [call_state] at h
  split_ifs at h with hcuts hgrows
  · cases h
  · refine ⟨?_, Bool.eq_false_iff.2 hcuts⟩
    by_contra hphase
    simp [raised, hphase] at h
  · exact ⟨h, Bool.eq_false_iff.2 hcuts⟩

/-- What grows is a tick. -/
theorem signal_of_grows (h : a.grows c) : c.signal = .tick ∧ a.inCooldown c.now = false := by
  obtain ⟨signal, now⟩ := c
  cases signal with
  | sendBacklog => cases h
  | arrivalStall => cases h
  | latency ms => cases h
  | tick =>
    simp only [grows, Bool.and_eq_true, Bool.not_eq_true'] at h
    exact ⟨rfl, h.1⟩

/-- What grows does not cut. -/
theorem cuts_of_grows (h : a.grows c) : a.cuts c = false := by
  simp [cuts, congestion, (signal_of_grows h).1]

/-- A call records a backlog exactly when it reports one. -/
theorem call_lastBacklog :
    (a.call c).1.lastBacklog =
      match c.signal with
      | .sendBacklog => some c.now
      | _ => a.lastBacklog := by
  rw [call_state]
  split_ifs with hcuts hgrows
  · rfl
  · rw [(signal_of_grows hgrows).1]
    rfl
  · rfl

/-- **The target a call returns** is the rate it leaves, where that is a
new one. -/
theorem call_target :
    (a.call c).2 = if (a.call c).1.currentBitrate = a.currentBitrate then none
      else some (a.call c).1.currentBitrate := by
  obtain ⟨signal, now⟩ := c
  cases signal with
  | sendBacklog => exact cut_target
  | arrivalStall =>
    simp only [call, onArrivalStall]
    split_ifs with hr ht ht
    · rw [cut_target, if_pos ht]
    · rw [cut_target, if_neg ht]
    · rfl
    · exact absurd rfl ht
  | latency ms => simp [call, onLatencyReport]
  | tick => exact tick_target

end BitrateAlgorithm

end Bitrate

end WaylandWebStream
