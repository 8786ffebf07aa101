import WaylandWebStream.Bitrate.Decisions

/-!
# Adaptive bitrate — coalescing what the encoder is told

A new rate costs the encoder a rebuild and a keyframe, so the controller
passes a growth step on only once the target has climbed a band past the
rate last applied. The target runs ahead of the applied rate meanwhile;
the band is narrow enough that a cut of the target still lands at or
below the applied rate, and is therefore passed on at once. That needs the
applied rate on or above the floor, where every growth leaves it but one: a
sum that wraps round to below the floor (`min_le_growRate_iff`).
-/

namespace WaylandWebStream

namespace Bitrate

/-- `APPLY_THRESHOLD_FRACTION`. -/
def applyThresholdFraction : Float := 0.15

/-- The climb of the target that is worth passing on. -/
def applyThreshold (lastApplied : ℕ) : ℕ := max 1 (scaled lastApplied applyThresholdFraction)

/-- Whether a fresh target is worth pushing to the encoder. -/
def shouldActuate (target lastApplied maxBitrate : ℕ) : Bool :=
  if target ≤ lastApplied ∨ maxBitrate ≤ target then true
  else applyThreshold lastApplied ≤ target - lastApplied

/-- The configuration `main` builds from its options. -/
def AdaptiveBitrateConfig.ofMain {Ms : Type*} [OfNat Ms 150]
    (minBitrate maxBitrate initialBitrate : ℕ) : AdaptiveBitrateConfig Ms :=
  { AdaptiveBitrateConfig.default with
    minBitrate := minBitrate
    maxBitrate := maxBitrate
    initialBitrate := initialBitrate }

/-- A valid configuration with the factors of `main`. -/
structure AdaptiveBitrateConfig.Standard {Ms : Type*} (cfg : AdaptiveBitrateConfig Ms) : Prop
    extends cfg.Valid where
  decrease_eq : cfg.decreaseFactor = 0.75
  one_lt_slowStart : 1 < cfg.slowStartFactor

/-- `main`'s is one wherever the rates are in order. -/
theorem AdaptiveBitrateConfig.ofMain_standard {Ms : Type*} [OfNat Ms 150] {lo hi initial : ℕ}
    (hlo : lo ≤ initial) (hhi : initial ≤ hi) (hsize : hi < 2 ^ 64) :
    (AdaptiveBitrateConfig.ofMain lo hi initial : AdaptiveBitrateConfig Ms).Standard :=
  { @AdaptiveBitrateConfig.default_valid Ms _ with
    min_le_initial := hlo
    initial_le_max := hhi
    max_lt := hsize
    decrease_eq := rfl
    one_lt_slowStart := default_factors.2.2 }

/-- The two signals of congestion. -/
def Signal.isCongestion {Ms : Type*} (s : Signal Ms) : Bool := s.isSendBacklog || s.isArrivalStall

variable {Ms : Type*}

namespace BitrateAlgorithm

variable {cfg : AdaptiveBitrateConfig Ms} {a : BitrateAlgorithm Ms}

/-- The sum of the growth in force wraps round to below the floor. -/
def WrapsBelow (a : BitrateAlgorithm Ms) : Prop :=
  a.phase = .congestionAvoidance ∧ 2 ^ 64 ≤ a.currentBitrate + a.config.additiveIncrease ∧
    a.currentBitrate + a.config.additiveIncrease < 2 ^ 64 + a.config.minBitrate

/-- **A growth step leaves the floor exactly so.** -/
theorem Bounded.min_le_growRate_iff (hcfg : cfg.Standard) (h : Bounded cfg a)
    (hmin : cfg.minBitrate ≤ a.currentBitrate) :
    cfg.minBitrate ≤ a.growRate ↔ ¬ a.WrapsBelow := by
  have hmm := hcfg.min_le_initial.trans hcfg.initial_le_max
  cases hphase : a.phase with
  | slowStart =>
    have hfits : a.Fits := by
      rw [Fits, hphase, h.config_eq]
      exact .inl hcfg.one_lt_slowStart
    have hgrow := (h.le_growRate_iff hcfg.toValid).2 hfits
    exact iff_of_true (hmin.trans hgrow) fun hwraps => by
      rw [WrapsBelow, hphase] at hwraps
      cases hwraps.1
  | congestionAvoidance =>
    have hlt := h.lt_size hcfg.toValid
    have hincrease := hcfg.increase_lt
    simp only [growRate, proposed, WrapsBelow, hphase, h.config_eq, le_min_iff, and_iff_left hmm,
      true_and]
    omega

end BitrateAlgorithm

/-- The driver: the algorithm, the telemetry watch and the rate last
pushed to the encoder. -/
structure AdaptiveBitrateController (Ms : Type*) where
  algo : BitrateAlgorithm Ms
  bitrateTx : ℕ
  lastAppliedBitrate : ℕ

namespace AdaptiveBitrateController

/-- `AdaptiveBitrateController::new`; the watch starts at the configured
rate too. -/
def new (config : AdaptiveBitrateConfig Ms) : AdaptiveBitrateController Ms where
  algo := .new config
  bitrateTx := config.initialBitrate
  lastAppliedBitrate := config.initialBitrate

/-- Pushes a rate: the `ChangeBitrate` sent to the encoder is the second
component. -/
def apply (k : AdaptiveBitrateController Ms) (newRate : ℕ) :
    AdaptiveBitrateController Ms × Option ℕ :=
  ({ k with bitrateTx := newRate, lastAppliedBitrate := newRate }, some newRate)

/-- Pushes a rate where that is worth it, and defers it otherwise. -/
def maybeApply (k : AdaptiveBitrateController Ms) (newRate : ℕ) :
    AdaptiveBitrateController Ms × Option ℕ :=
  if shouldActuate newRate k.lastAppliedBitrate k.algo.config.maxBitrate then k.apply newRate
  else (k, none)

variable [LT Ms] [DecidableLT Ms]

/-- One turn of `run`'s loop, an event or a tick. -/
def step (k : AdaptiveBitrateController Ms) (c : Call Ms) :
    AdaptiveBitrateController Ms × Option ℕ :=
  let (algo, target) := k.algo.call c
  match target with
  | some newRate => { k with algo := algo }.maybeApply newRate
  | none => ({ k with algo := algo }, none)

/-- The controller after a sequence of turns. -/
def run (cfg : AdaptiveBitrateConfig Ms) (calls : List (Call Ms)) :
    AdaptiveBitrateController Ms :=
  calls.foldl (fun k c => (k.step c).1) (new cfg)

/-! ## One turn -/

variable {cfg : AdaptiveBitrateConfig Ms} {k : AdaptiveBitrateController Ms} {c : Call Ms}

/-- The turn makes a new target and pushes it. -/
def actuates (k : AdaptiveBitrateController Ms) (c : Call Ms) : Bool :=
  let target := (k.algo.call c).1.currentBitrate
  target ≠ k.algo.currentBitrate &&
    shouldActuate target k.lastAppliedBitrate k.algo.config.maxBitrate

/-- **What a turn does**: the algorithm's own call, and a push of the
target it leaves. -/
theorem step_eq : k.step c =
    if k.actuates c then
      ({ algo := (k.algo.call c).1
         bitrateTx := (k.algo.call c).1.currentBitrate
         lastAppliedBitrate := (k.algo.call c).1.currentBitrate },
        some (k.algo.call c).1.currentBitrate)
    else ({ k with algo := (k.algo.call c).1 }, none) := by
  have htarget := BitrateAlgorithm.call_target (a := k.algo) (c := c)
  have hconfig := BitrateAlgorithm.call_config (a := k.algo) (c := c)
  simp only [step, actuates]
  by_cases hmoved : (k.algo.call c).1.currentBitrate = k.algo.currentBitrate
  · rw [if_pos hmoved] at htarget
    simp [htarget, hmoved]
  · rw [if_neg hmoved] at htarget
    rw [htarget]
    simp only [maybeApply, apply, hconfig]
    split_ifs <;> simp_all

/-- The algorithm moves as it does on its own. -/
theorem step_algo : (k.step c).1.algo = (k.algo.call c).1 := by
  rw [step_eq]
  split_ifs <;> rfl

/-- Over a run too. -/
theorem run_algo (cfg : AdaptiveBitrateConfig Ms) (calls : List (Call Ms)) :
    (run cfg calls).algo = .after cfg calls := by
  induction calls using List.reverseRecOn with
  | nil => rfl
  | append_singleton calls c ih =>
    rw [run, List.foldl_concat, ← run, step_algo, ih, BitrateAlgorithm.after_concat]

theorem run_concat (calls : List (Call Ms)) (c : Call Ms) :
    run cfg (calls ++ [c]) = ((run cfg calls).step c).1 := by
  rw [run, List.foldl_concat]
  rfl

/-- What a turn leaves applied is what was, or the new target. -/
theorem step_applied : (k.step c).1.lastAppliedBitrate = k.lastAppliedBitrate ∨
    (k.step c).1.lastAppliedBitrate = (k.algo.call c).1.currentBitrate := by
  rw [step_eq]
  split_ifs
  · exact .inr rfl
  · exact .inl rfl

/-! ## The applied rate tracks the target -/

/-- **The applied rate tracks the target**: from below, within the band,
and exactly at the ceiling. The telemetry watch shows the applied rate. -/
structure Tracks (cfg : AdaptiveBitrateConfig Ms) (k : AdaptiveBitrateController Ms) : Prop where
  bounded : BitrateAlgorithm.Bounded cfg k.algo
  applied_le : k.lastAppliedBitrate ≤ k.algo.currentBitrate
  gap_lt : k.algo.currentBitrate - k.lastAppliedBitrate < applyThreshold k.lastAppliedBitrate
  at_max : k.algo.currentBitrate = cfg.maxBitrate → k.lastAppliedBitrate = cfg.maxBitrate
  shown : k.bitrateTx = k.lastAppliedBitrate

/-- No band is empty. -/
theorem applyThreshold_pos (lastApplied : ℕ) : 0 < applyThreshold lastApplied :=
  lt_of_lt_of_le one_pos (le_max_left _ _)

/-- Every turn keeps the applied rate in step. -/
theorem Tracks.step (hcfg : cfg.Valid) (h : Tracks cfg k) (c : Call Ms) :
    Tracks cfg (k.step c).1 := by
  have hbounded : BitrateAlgorithm.Bounded cfg (k.algo.call c).1 := h.bounded.call hcfg
  have hconfig := h.bounded.config_eq
  rw [step_eq]
  split_ifs with hact
  · refine ⟨hbounded, le_rfl, ?_, id, rfl⟩
    simp only [Nat.sub_self]
    exact applyThreshold_pos _
  · by_cases hmoved : (k.algo.call c).1.currentBitrate = k.algo.currentBitrate
    · refine ⟨hbounded, ?_, ?_, fun hmax => ?_, h.shown⟩
      · rw [hmoved]
        exact h.applied_le
      · rw [hmoved]
        exact h.gap_lt
      · exact h.at_max (by rw [← hmoved]; exact hmax)
    · -- A deferred target is above the applied rate, inside the band and below the ceiling.
      have hdefer : shouldActuate (k.algo.call c).1.currentBitrate k.lastAppliedBitrate
          cfg.maxBitrate = false := by
        simpa [actuates, hmoved, hconfig] using hact
      unfold shouldActuate at hdefer
      split_ifs at hdefer with hnow
      rw [not_or, not_le, not_le] at hnow
      rw [decide_eq_false_iff_not, not_le] at hdefer
      exact ⟨hbounded, hnow.1.le, hdefer, fun hmax => absurd hmax hnow.2.ne, h.shown⟩

/-- **The applied rate tracks the target in every run.** -/
theorem tracks_run (hcfg : cfg.Valid) (calls : List (Call Ms)) :
    Tracks cfg (run cfg calls) := by
  induction calls using List.reverseRecOn with
  | nil =>
    refine ⟨BitrateAlgorithm.bounded_after hcfg [], le_rfl, ?_, id, rfl⟩
    simp only [run, List.foldl_nil, new, BitrateAlgorithm.new, Nat.sub_self]
    exact applyThreshold_pos _
  | append_singleton calls c ih =>
    rw [run_concat]
    exact ih.step hcfg c

/-! ## The floor -/

section Floor

open BitrateAlgorithm (WrapsBelow after bounded_after)

variable (cfg) in
/-- At no tick of the run that is not held off does the sum wrap round to
below the floor. -/
def KeepsFloor (calls : List (Call Ms)) : Prop :=
  ∀ before c rest, calls = before ++ c :: rest → (run cfg before).algo.grows c →
    ¬ (run cfg before).algo.WrapsBelow

variable {calls : List (Call Ms)}

theorem KeepsFloor.init (h : KeepsFloor cfg (calls ++ [c])) : KeepsFloor cfg calls :=
  fun before d rest hsplit => h before d (rest ++ [c]) (by rw [hsplit, List.append_assoc,
    List.cons_append])

/-- **The target keeps to the floor**, -/
theorem KeepsFloor.min_le (hcfg : cfg.Standard) (h : KeepsFloor cfg calls) :
    cfg.minBitrate ≤ (run cfg calls).algo.currentBitrate := by
  rw [run_algo]
  refine BitrateAlgorithm.min_le_after hcfg.toValid fun before c rest hsplit hgrows hmin => ?_
  have hwraps := h before c rest hsplit
  rw [run_algo] at hwraps
  exact ((bounded_after hcfg.toValid before).min_le_growRate_iff hcfg hmin).2 (hwraps hgrows)

/-- and so does the applied rate. -/
theorem KeepsFloor.min_le_applied (hcfg : cfg.Standard) (h : KeepsFloor cfg calls) :
    cfg.minBitrate ≤ (run cfg calls).lastAppliedBitrate := by
  induction calls using List.reverseRecOn with
  | nil => exact hcfg.min_le_initial
  | append_singleton calls c ih =>
    have htarget := h.min_le hcfg
    rw [run_concat, step_algo] at htarget
    rw [run_concat]
    rcases step_applied (k := run cfg calls) (c := c) with hkept | hnew
    · rw [hkept]
      exact ih h.init
    · rw [hnew]
      exact htarget

/-- A ceiling an increase below 64 bits keeps any run from wrapping. -/
theorem keepsFloor_of_max_lt (hcfg : cfg.Valid)
    (hmax : cfg.maxBitrate + cfg.additiveIncrease < 2 ^ 64) (calls : List (Call Ms)) :
    KeepsFloor cfg calls := by
  rintro before c rest - - ⟨-, hwraps, -⟩
  have hb := (tracks_run hcfg before).bounded
  have hle := hb.le_max
  rw [hb.config_eq] at hwraps
  omega

end Floor

/-! ## Cuts -/

/-- The band's fraction is a double just below its decimal value. -/
theorem toRat_applyThresholdFraction : applyThresholdFraction.isFinite = true ∧
    1 / 8 ≤ Binary64.toRat applyThresholdFraction ∧
      Binary64.toRat applyThresholdFraction ≤ 3 / 20 := by
  have hunpack : applyThresholdFraction.toModel.unpack =
      .finite .positive 5404319552844595 (-55) (by decide) := rfl
  refine ⟨rfl, ?_⟩
  rw [Binary64.toRat, hunpack, Binary64.value_positive]
  norm_num

/-- The cut's factor is its decimal value. -/
theorem toRat_three_quarters : (0.75 : Float).isFinite = true ∧ Binary64.toRat 0.75 = 3 / 4 := by
  have hunpack : (0.75 : Float).toModel.unpack =
      .finite .positive (3 * 2 ^ 51) (-53) (by decide) := rfl
  refine ⟨rfl, ?_⟩
  rw [Binary64.toRat, hunpack, Binary64.value_positive]
  norm_num

/-- **The band is narrower than a cut.** A target within the band of the
applied rate is cut to that rate or below. -/
theorem scaled_le_applied {target lastApplied : ℕ} (htarget : target < 2 ^ 64)
    (hle : lastApplied ≤ target)
    (hgap : target - lastApplied < applyThreshold lastApplied) :
    scaled target 0.75 ≤ lastApplied := by
  rcases lt_max_iff.1 hgap with hone | hband
  · have heq : lastApplied = target := by omega
    rw [heq]
    exact scaled_le htarget default_factors.1 default_factors.2.1
  · -- The target is below 7/6 of the applied rate, and 3/4 of that is below the rate.
    obtain ⟨hfinite, hlow, hhigh⟩ := toRat_applyThresholdFraction
    obtain ⟨hfinite', hcut⟩ := toRat_three_quarters
    have hlast := toNat_ofNat_rate (lt_of_le_of_lt hle htarget)
    have hband' := Binary64.cast_mul_le_exact (n := UInt64.ofNat lastApplied) hfinite
      ((by norm_num : (2 : ℚ) ^ (-100 : ℤ) ≤ 1 / 8).trans hlow) (hhigh.trans (by norm_num))
    have hcut' := Binary64.cast_mul_le_exact (n := UInt64.ofNat target) hfinite'
      (by rw [hcut]; norm_num) (by rw [hcut]; norm_num)
    rw [toNat_ofNat_rate htarget, hcut] at hcut'
    rw [hlast] at hband'
    have hpos : (0 : ℚ) ≤ lastApplied := by positivity
    have hfraction : (lastApplied : ℚ) * Binary64.toRat applyThresholdFraction ≤
        lastApplied * (3 / 20) := mul_le_mul_of_nonneg_left hhigh hpos
    have hbandRate : (scaled lastApplied applyThresholdFraction : ℚ) ≤ lastApplied * (1 / 6) := by
      refine hband'.trans ?_
      have hε : (2 : ℚ) ^ (-51 : ℤ) ≤ 1 / 100 := by norm_num
      nlinarith
    have htargetRate : (target : ℚ) ≤ lastApplied + scaled lastApplied applyThresholdFraction := by
      have hsum : target ≤ lastApplied + scaled lastApplied applyThresholdFraction := by omega
      exact_mod_cast hsum
    have hresult : (scaled target 0.75 : ℚ) ≤ lastApplied := by
      refine hcut'.trans ?_
      have hε : (2 : ℚ) ^ (-51 : ℤ) ≤ 1 / 100 := by norm_num
      nlinarith
    exact_mod_cast hresult

omit [LT Ms] [DecidableLT Ms] in
/-- A cut of a tracked target lands at or below an applied rate that is not
below the floor. -/
theorem Tracks.cutRate_le (hcfg : cfg.Standard) (h : Tracks cfg k)
    (hmin : cfg.minBitrate ≤ k.lastAppliedBitrate) : k.algo.cutRate ≤ k.lastAppliedBitrate := by
  rw [BitrateAlgorithm.cutRate, h.bounded.config_eq, hcfg.decrease_eq]
  exact max_le (scaled_le_applied (h.bounded.lt_size hcfg.toValid) h.applied_le h.gap_lt) hmin

/-- **A target lowered by congestion is at or below the applied rate.** -/
theorem Tracks.le_applied_of_lt (hcfg : cfg.Standard) (h : Tracks cfg k)
    (hmin : cfg.minBitrate ≤ k.lastAppliedBitrate) (hc : c.signal.isCongestion)
    (hlt : (k.algo.call c).1.currentBitrate < k.algo.currentBitrate) :
    (k.algo.call c).1.currentBitrate ≤ k.lastAppliedBitrate := by
  have hgrows : ¬ k.algo.grows c := by
    intro hgrows
    rw [(BitrateAlgorithm.signal_of_grows hgrows).1] at hc
    cases hc
  rw [BitrateAlgorithm.call_currentBitrate, if_neg hgrows] at hlt ⊢
  split_ifs at hlt ⊢
  · exact h.cutRate_le hcfg hmin
  · exact absurd hlt (lt_irrefl _)

/-- Up to 51 bits the band is no wider than the exact fraction. -/
theorem applyThreshold_le {lastApplied : ℕ} (h : lastApplied < 2 ^ 51) :
    applyThreshold lastApplied ≤ max 1 ⌊(lastApplied : ℚ) * (3 / 20)⌋₊ := by
  obtain ⟨hfinite, hlow, hhigh⟩ := toRat_applyThresholdFraction
  have hlast := toNat_ofNat_rate (h.trans (by norm_num))
  have hlt : (lastApplied : ℚ) < 2 ^ 51 := by exact_mod_cast h
  -- a twentieth at least is missing to the next integer
  have hfrac : (lastApplied : ℚ) * (3 / 20) + 1 / 32 <
      (⌊(lastApplied : ℚ) * (3 / 20)⌋₊ : ℚ) + 1 := by
    have hnext := Nat.lt_floor_add_one ((lastApplied : ℚ) * (3 / 20))
    have hint : 3 * lastApplied + 1 ≤ 20 * (⌊(lastApplied : ℚ) * (3 / 20)⌋₊ + 1) := by
      have hrat : (3 * lastApplied : ℚ) < 20 * (⌊(lastApplied : ℚ) * (3 / 20)⌋₊ + 1) := by linarith
      exact_mod_cast hrat
    have hrat : (3 * lastApplied + 1 : ℚ) ≤ 20 * (⌊(lastApplied : ℚ) * (3 / 20)⌋₊ + 1) := by
      exact_mod_cast hint
    linarith
  have hle := Binary64.cast_mul_le_floor (n := UInt64.ofNat lastApplied) (c := 3 / 20) hfinite
    ((by norm_num : (0 : ℚ) ≤ 1 / 8).trans hlow) hhigh (by rw [hlast]; omega)
    (by rw [hlast]; norm_num; linarith) (by rw [hlast]; exact hfrac)
  rw [hlast] at hle
  exact max_le_max le_rfl hle

/-! ## Coalescing -/

/-- **What coalescing promises**: the applied rate follows the target from
below, less than the band behind it and equal to it at the ceiling, and a
congestion signal that lowers the target sends it on, at or below the rate
applied before. -/
structure Coalesced (cfg : AdaptiveBitrateConfig Ms) (k : AdaptiveBitrateController Ms) :
    Prop where
  applied_le : k.lastAppliedBitrate ≤ k.algo.currentBitrate
  gap_lt : k.algo.currentBitrate - k.lastAppliedBitrate <
    max 1 (scaled k.lastAppliedBitrate 0.15)
  /-- Where a double is fine enough, the band is the exact one. -/
  gap_lt_exact : k.lastAppliedBitrate < 2 ^ 51 → k.algo.currentBitrate - k.lastAppliedBitrate <
    max 1 ⌊(k.lastAppliedBitrate : ℚ) * (3 / 20)⌋₊
  at_max : k.algo.currentBitrate = cfg.maxBitrate →
    k.lastAppliedBitrate = k.algo.currentBitrate
  passed_on : ∀ c : Call Ms, c.signal.isCongestion →
    (k.step c).1.algo.currentBitrate < k.algo.currentBitrate →
      (k.step c).2 = some (k.step c).1.algo.currentBitrate ∧
        (k.step c).1.lastAppliedBitrate = (k.step c).1.algo.currentBitrate ∧
        (k.step c).1.algo.currentBitrate ≤ k.lastAppliedBitrate

/-- **Coalescing never hides a cut**, in every run of a configuration with
`main`'s factors in which no sum wraps round to below the floor. -/
theorem coalescing_never_hides_a_cut (cfg : AdaptiveBitrateConfig Ms) (hcfg : cfg.Standard)
    (calls : List (Call Ms)) (hfloor : KeepsFloor cfg calls) : Coalesced cfg (run cfg calls) := by
  have h := tracks_run hcfg.toValid calls
  refine ⟨h.applied_le, h.gap_lt, fun hlast => h.gap_lt.trans_le (applyThreshold_le hlast),
    fun hmax => by rw [h.at_max hmax, hmax], fun c hc hlt => ?_⟩
  rw [step_algo] at hlt ⊢
  have hle := h.le_applied_of_lt hcfg (hfloor.min_le_applied hcfg) hc hlt
  have hact : (run cfg calls).actuates c = true := by
    simp [actuates, shouldActuate, hle, hlt.ne]
  rw [step_eq, if_pos hact]
  exact ⟨rfl, rfl, hle⟩

/-- In `main`'s default configuration a tick leaves the target ahead of
the applied rate; a backlog then is passed on, below that rate. -/
theorem coalescing_never_hides_a_cut_ofMain :
    let cfg : AdaptiveBitrateConfig ℕ := .ofMain 500000 12000000 2000000
    let k := run cfg [⟨.sendBacklog, 0⟩, ⟨.tick, fromSecs 3⟩]
    k.lastAppliedBitrate < k.algo.currentBitrate ∧
      (k.step ⟨.sendBacklog, fromSecs 4⟩).1.algo.currentBitrate ≤ k.lastAppliedBitrate := by
  refine ⟨by decide +kernel, ?_⟩
  have hcfg : (AdaptiveBitrateConfig.ofMain 500000 12000000 2000000 :
      AdaptiveBitrateConfig ℕ).Standard :=
    AdaptiveBitrateConfig.ofMain_standard (by norm_num) (by norm_num) (by norm_num)
  have hrun := coalescing_never_hides_a_cut _ hcfg [⟨.sendBacklog, 0⟩, ⟨.tick, fromSecs 3⟩]
    (keepsFloor_of_max_lt hcfg.toValid (by decide) _)
  exact (hrun.passed_on ⟨.sendBacklog, fromSecs 4⟩ rfl (by decide +kernel)).2.2

/-- A congestion signal that lowers the target and sends nothing. -/
theorem not_coalesced (hc : c.signal.isCongestion)
    (hlt : (k.step c).1.algo.currentBitrate < k.algo.currentBitrate)
    (hkept : (k.step c).2.isNone = true) : ¬ Coalesced cfg k := by
  intro h
  rw [(h.passed_on c hc hlt).1] at hkept
  cases hkept

/-- **A cut is hidden** after a sum that wrapped round: the target is back
above the applied rate, both under the floor, and the cut goes up to it. -/
theorem wrapped_hides_a_cut :
    let cfg : AdaptiveBitrateConfig ℕ := .ofMain 1100000 (2 ^ 64 - 1) 2000000
    let k := run cfg (BitrateAlgorithm.ticks ℕ 97)
    let k' := k.step ⟨.sendBacklog, fromSecs 97⟩
    (k.lastAppliedBitrate = 1049999 ∧ k.algo.currentBitrate = 1199999 ∧
      k'.1.algo.currentBitrate = 1100000 ∧ k'.2.isNone = true) ∧ ¬ Coalesced cfg k := by
  intro cfg k k'
  have hrates : k.lastAppliedBitrate = 1049999 ∧ k.algo.currentBitrate = 1199999 ∧
      k'.1.algo.currentBitrate = 1100000 ∧ k'.2.isNone = true := by decide +kernel
  refine ⟨hrates, ?_⟩
  clear_value k
  refine not_coalesced (c := ⟨.sendBacklog, fromSecs 97⟩) rfl ?_ hrates.2.2.2
  rw [hrates.2.1]
  exact lt_of_eq_of_lt hrates.2.2.1 (by norm_num)

end AdaptiveBitrateController

end Bitrate

end WaylandWebStream
