import WaylandWebStream.Bitrate.Controller
import WaylandWebStream.Encoder.X264

/-!
# Adaptive bitrate — the rates the options admit

Three options set the rates: the one the encoder starts with, and the two
the controller is to stay between. `main` compares the bounds with each
other and not with the start. From a start between them the rate in force
leaves them only by a sum that wraps round, which takes an upper bound
within an increase of 64 bits, and only a tick raises it. A start outside
them is a rate outside them, and from below the floor a cut is an increase.
-/

namespace WaylandWebStream

namespace Bitrate

open Encoder (RateControl)

/-- The options of `Config` that the rates depend on. -/
structure Config where
  bitrate : ℕ := 2000000
  crf : Option ℕ := none
  noAdaptiveBitrate : Bool := false
  minBitrate : ℕ := 500000
  maxBitrate : ℕ := 12000000

namespace Config

variable (config : Config)

/-- `main` goes on only with a lower bound below the upper one. -/
def accepted : Bool := !decide (config.maxBitrate ≤ config.minBitrate)

/-- The `rate_control` the encoder is opened with. -/
def rateControl : RateControl :=
  match config.crf with
  | some crf => .quality crf
  | none => .bitrate config.bitrate

/-- Only a bitrate can be adapted. -/
def adaptiveBitrateEnabled : Bool := !config.noAdaptiveBitrate && config.crf.isNone

/-- The controller's configuration. -/
def adaptiveConfig (Ms : Type*) [OfNat Ms 150] : AdaptiveBitrateConfig Ms :=
  .ofMain config.minBitrate config.maxBitrate config.bitrate

end Config

variable {Ms : Type*} [LT Ms] [DecidableLT Ms]

/-- The `ChangeBitrate`s a sequence of turns sends. -/
def AdaptiveBitrateController.pushes (k : AdaptiveBitrateController Ms) :
    List (Call Ms) → List ℕ
  | [] => []
  | c :: calls => (k.step c).2.toList ++ (k.step c).1.pushes calls

namespace AdaptiveBitrateController

variable {cfg : AdaptiveBitrateConfig Ms} {k : AdaptiveBitrateController Ms} {c : Call Ms}

/-- A turn that pushes a rate records it as the applied one. -/
theorem step_push : (k.step c).2.toList.foldl (fun _ rate => RateControl.bitrate rate)
    (.bitrate k.lastAppliedBitrate) = .bitrate (k.step c).1.lastAppliedBitrate := by
  rw [step_eq]
  split_ifs <;> rfl

/-- **The applied rate is the last one pushed.** -/
theorem pushes_foldl (k : AdaptiveBitrateController Ms) (calls : List (Call Ms)) :
    (k.pushes calls).foldl (fun _ rate => RateControl.bitrate rate)
        (.bitrate k.lastAppliedBitrate) =
      .bitrate (calls.foldl (fun k c => (k.step c).1) k).lastAppliedBitrate := by
  induction calls generalizing k with
  | nil => rfl
  | cons c calls ih =>
    rw [pushes, List.foldl_append, List.foldl_cons, step_push]
    exact ih _

/-- **A congestion signal does not raise the applied rate** where that is
not below the floor: it moves the target by a cut or not at all. -/
theorem Tracks.congestion_le (hcfg : cfg.Standard) (h : Tracks cfg k)
    (hmin : cfg.minBitrate ≤ k.lastAppliedBitrate) (hc : c.signal.isCongestion) :
    (k.step c).1.lastAppliedBitrate ≤ k.lastAppliedBitrate := by
  have hcut := h.cutRate_le hcfg hmin
  have hgrows : ¬ k.algo.grows c := by
    intro hgrows
    rw [(BitrateAlgorithm.signal_of_grows hgrows).1] at hc
    cases hc
  have hrate := BitrateAlgorithm.call_currentBitrate (a := k.algo) (c := c)
  rw [if_neg hgrows] at hrate
  rw [step_eq]
  split_ifs with hact
  · rw [hrate]
    split_ifs with hcuts
    · exact hcut
    · -- an unmoved target is not pushed
      rw [if_neg hcuts] at hrate
      simp [actuates, hrate] at hact
  · exact le_rfl

/-- **A sum that wraps round to below the floor is applied at once**: the
target it leaves is below the applied rate. -/
theorem Tracks.wrapped_applied (hcfg : cfg.Standard) (h : Tracks cfg k)
    (hmin : cfg.minBitrate ≤ k.lastAppliedBitrate) (hgrows : k.algo.grows c)
    (hwraps : k.algo.WrapsBelow) : (k.step c).1.lastAppliedBitrate < cfg.minBitrate := by
  have hbelow : k.algo.growRate < cfg.minBitrate := by
    rw [← not_le, h.bounded.min_le_growRate_iff hcfg (hmin.trans h.applied_le), not_not]
    exact hwraps
  have hle := h.applied_le
  have hrate : (k.algo.call c).1.currentBitrate = k.algo.growRate := by
    rw [BitrateAlgorithm.call_currentBitrate, BitrateAlgorithm.cuts_of_grows hgrows, if_pos hgrows]
    rfl
  have hact : k.actuates c = true := by
    have hdown : k.algo.growRate ≤ k.lastAppliedBitrate := by omega
    have hmoved : k.algo.growRate ≠ k.algo.currentBitrate := by omega
    simp [actuates, shouldActuate, hrate, hdown, hmoved]
  rw [step_eq, if_pos hact, hrate]
  exact hbelow

end AdaptiveBitrateController

variable [OfNat Ms 150]

/-- The rate control in force after a sequence of turns: the last change
asked for, or else the encoder's own. -/
def Config.inForce (config : Config) (calls : List (Call Ms)) : RateControl :=
  ((AdaptiveBitrateController.new (config.adaptiveConfig Ms)).pushes calls).foldl
    (fun _ rate => .bitrate rate) config.rateControl

/-- **The bounds are respected** in a run: at any time the rate in force
lies between them, and no congestion signal leaves a higher one. -/
structure RatesRespected (config : Config) (calls : List (Call Ms)) : Prop where
  within : ∀ before, before <+: calls → ∃ rate, config.inForce before = .bitrate rate ∧
    config.minBitrate ≤ rate ∧ rate ≤ config.maxBitrate
  congestion_lowers : ∀ before c rest, calls = before ++ c :: rest → c.signal.isCongestion →
    ∀ rate rate', config.inForce before = .bitrate rate →
      config.inForce (before ++ [c]) = .bitrate rate' → rate' ≤ rate

namespace Config

variable {config : Config}

/-- With adaptive bitrate on, the rate in force is the applied one. -/
theorem inForce_eq (hon : config.adaptiveBitrateEnabled) (calls : List (Call Ms)) :
    config.inForce calls = .bitrate
      (AdaptiveBitrateController.run (config.adaptiveConfig Ms) calls).lastAppliedBitrate := by
  have hcrf : config.crf = none := by
    simp only [adaptiveBitrateEnabled, Bool.and_eq_true, Option.isNone_iff_eq_none] at hon
    exact hon.2
  have hstart : config.rateControl = .bitrate
      (AdaptiveBitrateController.new (config.adaptiveConfig Ms)).lastAppliedBitrate := by
    rw [rateControl, hcrf]
    rfl
  rw [inForce, hstart]
  exact AdaptiveBitrateController.pushes_foldl _ calls

omit [LT Ms] [DecidableLT Ms] in
variable (Ms) in
/-- The configuration of `main`, from a start between the bounds. -/
theorem adaptiveConfig_standard (hsize : config.maxBitrate < 2 ^ 64)
    (hlo : config.minBitrate ≤ config.bitrate) (hhi : config.bitrate ≤ config.maxBitrate) :
    (config.adaptiveConfig Ms).Standard :=
  AdaptiveBitrateConfig.ofMain_standard hlo hhi hsize

variable {calls : List (Call Ms)}

/-- A run that is respected starts between the bounds, and no sum in it
wraps round to below the lower one: it would be in force after the tick. -/
theorem keepsFloor_of_respected (hon : config.adaptiveBitrateEnabled)
    (hsize : config.maxBitrate < 2 ^ 64) (h : RatesRespected config calls) :
    (config.minBitrate ≤ config.bitrate ∧ config.bitrate ≤ config.maxBitrate) ∧
      AdaptiveBitrateController.KeepsFloor (config.adaptiveConfig Ms) calls := by
  have hwithin : ∀ before, before <+: calls → config.minBitrate ≤
      (AdaptiveBitrateController.run (config.adaptiveConfig Ms) before).lastAppliedBitrate ∧
        (AdaptiveBitrateController.run (config.adaptiveConfig Ms) before).lastAppliedBitrate ≤
          config.maxBitrate := by
    intro before hbefore
    obtain ⟨rate, hrate, hle⟩ := h.within before hbefore
    rw [inForce_eq hon] at hrate
    cases hrate
    exact hle
  have hstart := hwithin [] List.nil_prefix
  have hcfg := adaptiveConfig_standard Ms hsize hstart.1 hstart.2
  refine ⟨hstart, fun before c rest hsplit hgrows hwraps => ?_⟩
  have hbefore := hwithin before ⟨c :: rest, hsplit.symm⟩
  have hafter := hwithin (before ++ [c]) ⟨rest, by rw [hsplit, List.append_assoc]; rfl⟩
  have hbelow := (AdaptiveBitrateController.tracks_run hcfg.toValid before).wrapped_applied hcfg
    hbefore.1 hgrows hwraps
  rw [← AdaptiveBitrateController.run_concat] at hbelow
  exact absurd hafter.1 (not_le.2 hbelow)

/-- Such a run is respected. -/
theorem respected_of_keepsFloor (hon : config.adaptiveBitrateEnabled)
    (hcfg : (config.adaptiveConfig Ms).Standard)
    (hfloor : AdaptiveBitrateController.KeepsFloor (config.adaptiveConfig Ms) calls) :
    RatesRespected config calls := by
  have hkeeps : ∀ before, before <+: calls →
      AdaptiveBitrateController.KeepsFloor (config.adaptiveConfig Ms) before := by
    rintro before ⟨rest, rfl⟩ pre c post hsplit
    exact hfloor pre c (post ++ rest) (by rw [hsplit, List.append_assoc, List.cons_append])
  have htracks := AdaptiveBitrateController.tracks_run hcfg.toValid
  refine ⟨fun before hbefore => ⟨_, inForce_eq hon before,
    (hkeeps before hbefore).min_le_applied hcfg,
    (htracks before).applied_le.trans (htracks before).bounded.le_max⟩, ?_⟩
  intro before c rest hsplit hc rate rate' hrate hrate'
  have hmin := (hkeeps before ⟨c :: rest, hsplit.symm⟩).min_le_applied hcfg
  rw [inForce_eq hon] at hrate hrate'
  cases hrate
  cases hrate'
  rw [AdaptiveBitrateController.run_concat]
  exact (htracks before).congestion_le hcfg hmin hc

/-- An upper bound an increase below 64 bits leaves only the start to check. -/
theorem respected_of_max_lt (hon : config.adaptiveBitrateEnabled)
    (hmax : config.maxBitrate + 150000 < 2 ^ 64) (hlo : config.minBitrate ≤ config.bitrate)
    (hhi : config.bitrate ≤ config.maxBitrate) (calls : List (Call Ms)) :
    RatesRespected config calls := by
  have hcfg := adaptiveConfig_standard Ms (by omega) hlo hhi
  exact respected_of_keepsFloor hon hcfg
    (AdaptiveBitrateController.keepsFloor_of_max_lt hcfg.toValid hmax calls)

/-- **The options are respected exactly from a start between the bounds**,
in the runs in which no sum wraps round to below the lower one. The options
are `usize`s. -/
theorem ratesRespected_iff (config : Config) (hon : config.adaptiveBitrateEnabled)
    (hsize : config.maxBitrate < 2 ^ 64) (calls : List (Call Ms)) :
    RatesRespected config calls ↔
      (config.minBitrate ≤ config.bitrate ∧ config.bitrate ≤ config.maxBitrate) ∧
        AdaptiveBitrateController.KeepsFloor (config.adaptiveConfig Ms) calls :=
  ⟨keepsFloor_of_respected hon hsize, fun h =>
    respected_of_keepsFloor hon (adaptiveConfig_standard Ms hsize h.1.1 h.1.2) h.2⟩

/-- The default options, in a run with a backlog and growth after it. -/
theorem ratesRespected_iff_default :
    Config.inForce {} [(⟨.sendBacklog, 0⟩ : Call ℕ), ⟨.tick, fromSecs 3⟩, ⟨.tick, fromSecs 4⟩] =
        .bitrate 1800000 ∧
      RatesRespected {} [(⟨.sendBacklog, 0⟩ : Call ℕ), ⟨.tick, fromSecs 3⟩,
        ⟨.tick, fromSecs 4⟩] := by
  refine ⟨by decide +kernel, (ratesRespected_iff {} (by decide) (by decide) _).2
    ⟨⟨by decide, by decide⟩, ?_⟩⟩
  exact AdaptiveBitrateController.keepsFloor_of_max_lt
    (adaptiveConfig_standard ℕ (by decide) (by decide) (by decide)).toValid (by decide) _

/-- **A start below the floor.** `main` accepts it, the encoder runs at it,
and the first backlog raises the rate five times over. -/
theorem low_start_raised :
    let config : Config := { bitrate := 100000 }
    config.accepted = true ∧ config.adaptiveBitrateEnabled = true ∧
    config.inForce ([] : List (Call ℕ)) = .bitrate 100000 ∧
    config.inForce [(⟨.sendBacklog, 0⟩ : Call ℕ)] = .bitrate 500000 ∧
    ¬ RatesRespected config [(⟨.sendBacklog, 0⟩ : Call ℕ)] := by
  have hstart : Config.inForce { bitrate := 100000 } ([] : List (Call ℕ)) = .bitrate 100000 := rfl
  have hraised : Config.inForce { bitrate := 100000 } [(⟨.sendBacklog, 0⟩ : Call ℕ)] =
      .bitrate 500000 := by decide +kernel
  refine ⟨rfl, rfl, hstart, hraised, fun h => ?_⟩
  have hle := h.congestion_lowers [] ⟨.sendBacklog, 0⟩ [] rfl rfl _ _ hstart hraised
  omega

end Config

end Bitrate

end WaylandWebStream
