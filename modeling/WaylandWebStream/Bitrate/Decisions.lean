import WaylandWebStream.Bitrate.Algorithm

/-!
# Adaptive bitrate — what a run of calls decides

The laws of the decision algorithm over runs of any length: which calls
lower the rate, how far cuts lie apart, how fast the rate grows back, and
that a burst report with no recent backlog might as well not have been
made. They hold exactly while no growth overflows: a sum past 64 bits wraps
round, and a rate with no double of its own can be rounded down, and in both
cases the tick lowers the rate (`le_growRate_iff`). `Bounded` is the
invariant the first laws rest on; `cut_remembered` carries a cut's instant
along the run for the spacing laws, and `corroborated_iff` reads the window
off the calls instead of the state.
-/

namespace WaylandWebStream

namespace Bitrate

variable {Ms : Type*}

/-- The instants of the calls do not decrease. -/
def InOrder (calls : List (Call Ms)) : Prop := calls.Pairwise fun c d => c.now ≤ d.now

/-- Server-side backpressure. -/
def Signal.isSendBacklog : Signal Ms → Bool
  | .sendBacklog => true
  | _ => false

/-- A client's burst report. -/
def Signal.isArrivalStall : Signal Ms → Bool
  | .arrivalStall => true
  | _ => false

/-- Some backlog of `before` lies less than the window before `now`. -/
def RecentBacklog (before : List (Call Ms)) (now : ℕ) : Prop :=
  ∃ b ∈ before, b.signal.isSendBacklog ∧ b.now ≤ now ∧ now < b.now + arrivalStallCorroborationWindow

instance (before : List (Call Ms)) (now : ℕ) : Decidable (RecentBacklog before now) :=
  inferInstanceAs (Decidable (∃ b ∈ before, _ ∧ _ ∧ _))

/-- The calls without the burst reports no recent backlog goes before;
`before` is what was called earlier. -/
def prune (before : List (Call Ms)) : List (Call Ms) → List (Call Ms)
  | [] => []
  | c :: calls =>
    if c.signal.isArrivalStall ∧ ¬ RecentBacklog before c.now then prune (before ++ [c]) calls
    else c :: prune (before ++ [c]) calls

namespace BitrateAlgorithm

variable [LT Ms] [DecidableLT Ms] {cfg : AdaptiveBitrateConfig Ms} {a : BitrateAlgorithm Ms}
variable {c d : Call Ms} {before mid calls : List (Call Ms)} {now : ℕ}

/-! ## Runs -/

@[simp] theorem run_nil : a.run [] = (a, []) := rfl

theorem run_cons : a.run (c :: calls) =
    (((a.call c).1.run calls).1, (a.call c).2.toList ++ ((a.call c).1.run calls).2) := rfl

/-- A run in two parts. -/
theorem run_append_state (a : BitrateAlgorithm Ms) (xs ys : List (Call Ms)) :
    (a.run (xs ++ ys)).1 = ((a.run xs).1.run ys).1 := by
  induction xs generalizing a with
  | nil => rfl
  | cons c xs ih =>
    rw [List.cons_append, run_cons, run_cons]
    exact ih _

@[simp] theorem after_nil : after cfg [] = new cfg := rfl

/-- One more call. -/
theorem after_concat : after cfg (before ++ [c]) = ((after cfg before).call c).1 := by
  rw [after, run_append_state]
  rfl

/-! ## The rate's bounds -/

/-- **The rate stays under its ceiling**, and slow start still aims at it. -/
structure Bounded (cfg : AdaptiveBitrateConfig Ms) (a : BitrateAlgorithm Ms) : Prop where
  config_eq : a.config = cfg
  le_max : a.currentBitrate ≤ cfg.maxBitrate
  slowStart : a.phase = .slowStart → a.ssthresh = cfg.maxBitrate

/-- The growth in force does not overflow: the sum is a `usize`, and a
factor that is no more than one meets a rate not rounded down. -/
def Fits (a : BitrateAlgorithm Ms) : Prop :=
  match a.phase with
  | .slowStart => 1 < a.config.slowStartFactor ∨ a.currentBitrate ≤ asDouble a.currentBitrate
  | .congestionAvoidance => a.currentBitrate + a.config.additiveIncrease < 2 ^ 64

section Rates

omit [LT Ms] [DecidableLT Ms]

theorem Bounded.lt_size (hcfg : cfg.Valid) (h : Bounded cfg a) : a.currentBitrate < 2 ^ 64 :=
  lt_of_le_of_lt h.le_max hcfg.max_lt

/-- A cut does not raise a rate on or above the floor. -/
theorem Bounded.cutRate_le (hcfg : cfg.Valid) (h : Bounded cfg a)
    (hmin : cfg.minBitrate ≤ a.currentBitrate) : a.cutRate ≤ a.currentBitrate := by
  rw [cutRate, h.config_eq]
  exact max_le (scaled_le (h.lt_size hcfg) hcfg.decrease_pos hcfg.decrease_lt_one) hmin

/-- And never above the ceiling. -/
theorem Bounded.cutRate_le_max (hcfg : cfg.Valid) (h : Bounded cfg a) :
    a.cutRate ≤ cfg.maxBitrate := by
  rw [cutRate, h.config_eq]
  have hscaled := scaled_le (h.lt_size hcfg) hcfg.decrease_pos hcfg.decrease_lt_one
  exact max_le (hscaled.trans h.le_max) (hcfg.min_le_initial.trans hcfg.initial_le_max)

/-- **A growth step lowers the rate exactly when it overflows.** -/
theorem Bounded.le_growRate_iff (hcfg : cfg.Valid) (h : Bounded cfg a) :
    a.currentBitrate ≤ a.growRate ↔ a.Fits := by
  have hlt := h.lt_size hcfg
  have hmax := h.le_max
  unfold growRate proposed Fits
  rw [h.config_eq]
  cases hphase : a.phase with
  | slowStart =>
    simp only [le_min_iff, h.slowStart hphase, and_iff_left hmax]
    by_cases hfactor : 1 < cfg.slowStartFactor
    · exact iff_of_true (le_scaled hlt hfactor) (.inl hfactor)
    · rw [scaled_one hcfg.one_le_slowStart hfactor, or_iff_right hfactor]
  | congestionAvoidance =>
    have hincrease := hcfg.increase_lt
    simp only [le_min_iff, and_iff_left hmax]
    omega

end Rates

/-- The ceiling is kept by every call. -/
theorem Bounded.call (hcfg : cfg.Valid) (h : Bounded cfg a) : Bounded cfg (a.call c).1 := by
  have hcut := h.cutRate_le_max hcfg
  have hgrow : a.growRate ≤ cfg.maxBitrate := by
    rw [growRate, h.config_eq]
    exact min_le_right _ _
  have hmax := h.le_max
  refine ⟨by rw [call_config, h.config_eq], ?_, fun hslow => ?_⟩
  · rw [call_currentBitrate]
    split_ifs <;> assumption
  · obtain ⟨hphase, hcuts⟩ := call_phase hslow
    rw [call_ssthresh, hcuts]
    exact h.slowStart hphase

/-- It holds throughout. -/
theorem bounded_after (hcfg : cfg.Valid) (calls : List (Call Ms)) :
    Bounded cfg (after cfg calls) := by
  induction calls using List.reverseRecOn with
  | nil => exact ⟨rfl, hcfg.initial_le_max, fun _ => rfl⟩
  | append_singleton calls c ih =>
    rw [after_concat]
    exact ih.call hcfg

/-- **The floor holds** where no growth step goes below it. -/
theorem min_le_after (hcfg : cfg.Valid) (hgrow : ∀ before c rest, calls = before ++ c :: rest →
      (after cfg before).grows c → cfg.minBitrate ≤ (after cfg before).currentBitrate →
        cfg.minBitrate ≤ (after cfg before).growRate) :
    cfg.minBitrate ≤ (after cfg calls).currentBitrate := by
  induction calls using List.reverseRecOn with
  | nil => exact hcfg.min_le_initial
  | append_singleton calls c ih =>
    have hmin := ih fun before d rest hsplit =>
      hgrow before d (rest ++ [c]) (by rw [hsplit, List.append_assoc, List.cons_append])
    rw [after_concat, call_currentBitrate]
    split_ifs with hcuts hgrows
    · rw [cutRate, (bounded_after hcfg calls).config_eq]
      exact le_max_right _ _
    · exact hgrow calls c [] rfl hgrows hmin
    · exact hmin

variable (cfg) in
/-- No tick of the run that is not held off overflows. -/
def NoOverflow (calls : List (Call Ms)) : Prop :=
  ∀ before c rest, calls = before ++ c :: rest → (after cfg before).grows c →
    (after cfg before).Fits

theorem NoOverflow.append_left (mid : List (Call Ms))
    (h : NoOverflow cfg (before ++ mid)) : NoOverflow cfg before :=
  fun pre c rest hsplit => h pre c (rest ++ mid) (by rw [hsplit, List.append_assoc,
    List.cons_append])

/-- A ceiling an increase below 64 bits leaves no growth to overflow. -/
theorem noOverflow_of_max_lt (hcfg : cfg.Valid) (hfactor : 1 < cfg.slowStartFactor)
    (hmax : cfg.maxBitrate + cfg.additiveIncrease < 2 ^ 64) (calls : List (Call Ms)) :
    NoOverflow cfg calls := by
  intro before c rest _ _
  have hb := bounded_after hcfg before
  unfold Fits
  rw [hb.config_eq]
  split
  · exact .inl hfactor
  · exact lt_of_le_of_lt (Nat.add_le_add_right hb.le_max _) hmax

theorem NoOverflow.min_le (hcfg : cfg.Valid) (h : NoOverflow cfg calls) :
    cfg.minBitrate ≤ (after cfg calls).currentBitrate :=
  min_le_after hcfg fun before c rest hsplit hgrows hmin =>
    hmin.trans (((bounded_after hcfg before).le_growRate_iff hcfg).2 (h before c rest hsplit hgrows))

/-! ## Decreases, increases and cuts in a run -/

variable (cfg) in
/-- The call `c` lowers the rate, made after `before`. -/
def Falls (before : List (Call Ms)) (c : Call Ms) : Prop :=
  (after cfg (before ++ [c])).currentBitrate < (after cfg before).currentBitrate

variable (cfg) in
/-- The call `c` raises the rate, made after `before`. -/
def Rises (before : List (Call Ms)) (c : Call Ms) : Prop :=
  (after cfg before).currentBitrate < (after cfg (before ++ [c])).currentBitrate

variable (cfg) in
/-- The call `c`, made after `before`, is a congestion signal the
algorithm acts on, be the rate already at the floor or not. -/
def Cuts (before : List (Call Ms)) (c : Call Ms) : Prop := (after cfg before).cuts c

instance : Decidable (Falls cfg before c) := inferInstanceAs (Decidable (_ < _))

instance : Decidable (Rises cfg before c) := inferInstanceAs (Decidable (_ < _))

instance : Decidable (Cuts cfg before c) := inferInstanceAs (Decidable (_ = true))

/-- **A growth step that overflows lowers the rate**, and no other does. -/
theorem falls_of_grows (hcfg : cfg.Valid) (hgrows : (after cfg before).grows c) :
    Falls cfg before c ↔ ¬ (after cfg before).Fits := by
  rw [Falls, after_concat, call_currentBitrate, if_neg (by simp [cuts_of_grows hgrows]),
    if_pos hgrows, ← (bounded_after hcfg before).le_growRate_iff hcfg, not_le]

/-- Otherwise only a cut does. -/
theorem Falls.cuts (hcfg : cfg.Valid) (hno : NoOverflow cfg (before ++ [c]))
    (h : Falls cfg before c) : Cuts cfg before c := by
  by_cases hgrows : (after cfg before).grows c
  · exact absurd (hno before c [] rfl hgrows) ((falls_of_grows hcfg hgrows).1 h)
  · rw [Falls, after_concat, call_currentBitrate, if_neg hgrows] at h
    unfold Cuts
    split_ifs at h with hcuts
    · exact hcuts
    · exact absurd h (lt_irrefl _)

/-- Only a tick nothing holds off raises it. -/
theorem Rises.grows (hcfg : cfg.Valid) (hno : NoOverflow cfg before) (h : Rises cfg before c) :
    (after cfg before).grows c := by
  have hcut := (bounded_after hcfg before).cutRate_le hcfg (hno.min_le hcfg)
  rw [Rises, after_concat, call_currentBitrate] at h
  split_ifs at h with hc hg
  · omega
  · exact hg
  · omega

/-! ## Spacing -/

omit [LT Ms] [DecidableLT Ms] in
/-- Out of the cooldown, the last cut is at least the cooldown ago. -/
theorem le_of_not_inCooldown {t : ℕ} (hconfig : a.config = cfg) (ht : a.lastDecrease = some t)
    (h : a.inCooldown now = false) : cfg.decreaseCooldown ≤ now - t := by
  rw [inCooldown, ht, hconfig] at h
  simpa using h

/-- **A cut is remembered** until a later one takes its place. -/
theorem cut_remembered (h : Cuts cfg before c) (horder : InOrder (before ++ c :: mid)) :
    ∃ t, (after cfg (before ++ c :: mid)).lastDecrease = some t ∧ c.now ≤ t := by
  induction mid using List.reverseRecOn with
  | nil =>
    have hcut : (after cfg before).cuts c = true := h
    rw [after_concat, call_lastDecrease, if_pos hcut]
    exact ⟨c.now, rfl, le_rfl⟩
  | append_singleton mid d ih =>
    rw [← List.cons_append, ← List.append_assoc] at horder ⊢
    obtain ⟨hpre, -, hlast⟩ := List.pairwise_append.1 horder
    obtain ⟨t, ht, hct⟩ := ih hpre
    rw [after_concat, call_lastDecrease]
    split_ifs with hd
    · exact ⟨d.now, rfl, hlast c (by simp) d (by simp)⟩
    · exact ⟨t, ht, hct⟩

/-- **A call that is out of the cooldown keeps its distance** from every
earlier cut. -/
theorem cooldown_le_of_cuts (hcfg : cfg.Valid) (mid : List (Call Ms)) (h : Cuts cfg before c)
    (horder : InOrder (before ++ c :: (mid ++ [d])))
    (hcool : (after cfg (before ++ c :: mid)).inCooldown d.now = false) :
    c.now + cfg.decreaseCooldown ≤ d.now := by
  rw [← List.cons_append, ← List.append_assoc] at horder
  obtain ⟨hpre, -, hlast⟩ := List.pairwise_append.1 horder
  obtain ⟨t, ht, hct⟩ := cut_remembered h hpre
  have hfar := le_of_not_inCooldown (bounded_after hcfg _).config_eq ht hcool
  have hcd : c.now ≤ d.now := hlast c (by simp) d (by simp)
  omega

/-- After a cut, slow start is over. -/
theorem phase_after_cut (h : Cuts cfg before c) (mid : List (Call Ms)) :
    (after cfg (before ++ c :: mid)).phase ≠ .slowStart := by
  induction mid using List.reverseRecOn with
  | nil =>
    intro hslow
    rw [after_concat] at hslow
    have hno := (call_phase hslow).2
    rw [Cuts, hno] at h
    cases h
  | append_singleton mid d ih =>
    intro hslow
    rw [← List.cons_append, ← List.append_assoc, after_concat] at hslow
    exact ih (call_phase hslow).1

/-- **Growth after a cut is additive.** -/
theorem growth_after_cut (hcfg : cfg.Valid) (hno : NoOverflow cfg (before ++ c :: mid))
    (h : Cuts cfg before c) (d : Call Ms) :
    (after cfg (before ++ c :: (mid ++ [d]))).currentBitrate ≤
      (after cfg (before ++ c :: mid)).currentBitrate + cfg.additiveIncrease := by
  have hb := bounded_after hcfg (before ++ c :: mid)
  have hcut := hb.cutRate_le hcfg (hno.min_le hcfg)
  rw [← List.cons_append, ← List.append_assoc, after_concat, call_currentBitrate]
  split_ifs
  · omega
  · cases hphase : (after cfg (before ++ c :: mid)).phase with
    | slowStart => exact absurd hphase (phase_after_cut h mid)
    | congestionAvoidance =>
      have hsum := Nat.mod_le ((after cfg (before ++ c :: mid)).currentBitrate +
        cfg.additiveIncrease) (2 ^ 64)
      simp only [growRate, proposed, hphase, hb.config_eq]
      exact (min_le_left _ _).trans hsum
  · omega

/-! ## Corroboration -/

/-- The recorded backlog is one of the calls. -/
theorem backlog_of_lastBacklog {t : ℕ} (h : (after cfg before).lastBacklog = some t) :
    ∃ b ∈ before, b.signal.isSendBacklog ∧ b.now = t := by
  induction before using List.reverseRecOn with
  | nil => cases h
  | append_singleton before c ih =>
    rw [after_concat, call_lastBacklog] at h
    have hearlier : (after cfg before).lastBacklog = some t →
        ∃ b ∈ before ++ [c], b.signal.isSendBacklog ∧ b.now = t := by
      intro hlast
      obtain ⟨b, hb, hsig, hnow⟩ := ih hlast
      exact ⟨b, List.mem_append_left _ hb, hsig, hnow⟩
    split at h
    · rename_i hsig
      exact ⟨c, by simp, by rw [hsig]; rfl, Option.some.inj h⟩
    · exact hearlier h

/-- And no call reported one later. -/
theorem lastBacklog_of_backlog {b : Call Ms} (hb : b ∈ before) (hsig : b.signal.isSendBacklog)
    (horder : InOrder before) :
    ∃ t, (after cfg before).lastBacklog = some t ∧ b.now ≤ t := by
  induction before using List.reverseRecOn with
  | nil => cases hb
  | append_singleton before c ih =>
    obtain ⟨hpre, -, hlast⟩ := List.pairwise_append.1 horder
    rw [after_concat, call_lastBacklog]
    rcases List.mem_append.1 hb with hb | hb
    · split
      · exact ⟨c.now, rfl, hlast b hb c (by simp)⟩
      · exact ih hb hpre
    · obtain rfl := List.mem_singleton.1 hb
      split
      · exact ⟨b.now, rfl, le_rfl⟩
      · rename_i hne
        cases hs : b.signal with
        | sendBacklog => exact absurd hs hne
        | _ => rw [hs] at hsig; cases hsig

/-- **The window, read off the calls.** -/
theorem corroborated_iff (horder : InOrder (before ++ [c])) :
    (after cfg before).corroborated c.now ↔ RecentBacklog before c.now := by
  obtain ⟨hpre, -, hlast⟩ := List.pairwise_append.1 horder
  rw [corroborated, Option.any_eq_true]
  simp only [decide_eq_true_eq]
  constructor
  · rintro ⟨t, ht, hwin⟩
    obtain ⟨b, hb, hsig, rfl⟩ := backlog_of_lastBacklog ht
    exact ⟨b, hb, hsig, hlast b hb c (by simp), by omega⟩
  · rintro ⟨b, hb, hsig, hle', hwin⟩
    obtain ⟨t, ht, hle⟩ := lastBacklog_of_backlog hb hsig hpre
    exact ⟨t, ht, by omega⟩

/-- A cut is a backlog or lies close to one. -/
theorem Cuts.near_backlog (h : Cuts cfg before c) (horder : InOrder (before ++ [c])) :
    c.signal = .sendBacklog ∨ RecentBacklog before c.now := by
  rw [Cuts, cuts, Bool.and_eq_true] at h
  have hcong := h.1
  unfold congestion at hcong
  split at hcong
  · rename_i hsig
    exact .inl hsig
  · exact .inr ((corroborated_iff horder).1 hcong)
  · cases hcong

/-- A burst report with no recent backlog does nothing. -/
theorem call_of_stall (hsig : c.signal.isArrivalStall) (hcorr : a.corroborated c.now = false) :
    a.call c = (a, none) := by
  obtain ⟨signal, now⟩ := c
  cases signal with
  | arrivalStall => simp only [call, onArrivalStall, hcorr]; rfl
  | _ => cases hsig

/-- **Pruning is invisible**, from any point of a run on. -/
theorem run_prune (calls : List (Call Ms)) (before : List (Call Ms))
    (horder : InOrder (before ++ calls)) :
    (after cfg before).run (prune before calls) = (after cfg before).run calls := by
  induction calls generalizing before with
  | nil => rfl
  | cons c calls ih =>
    have hsplit : before ++ c :: calls = (before ++ [c]) ++ calls := by simp
    rw [hsplit] at horder
    have htail := ih (before ++ [c]) horder
    rw [after_concat] at htail
    rw [prune]
    split_ifs with hc
    · -- The dropped report leaves the state as it is and returns nothing.
      have hquiet : (after cfg before).call c = (after cfg before, none) := by
        refine call_of_stall hc.1 (Bool.eq_false_iff.2 fun hcorr => hc.2 ?_)
        exact (corroborated_iff (List.pairwise_append.1 horder).1).1 hcorr
      rw [hquiet] at htail
      rw [run_cons, hquiet, htail]
      rfl
    · rw [run_cons, run_cons, htail]

/-- **What a run of calls decides.** A position in the run is given by
the calls before it. -/
structure Decisions (cfg : AdaptiveBitrateConfig Ms) (calls : List (Call Ms)) : Prop where
  /-- A decrease happens at a backlog or less than the window after one. -/
  falls_near_backlog : ∀ before c rest, calls = before ++ c :: rest → Falls cfg before c →
    c.signal = .sendBacklog ∨ RecentBacklog before c.now
  /-- A tick never lowers the rate. -/
  tick_keeps : ∀ before c rest, calls = before ++ c :: rest → c.signal = .tick →
    ¬ Falls cfg before c
  /-- Two decreases are at least the cooldown apart. -/
  falls_apart : ∀ before c mid d rest, calls = before ++ c :: (mid ++ d :: rest) →
    Falls cfg before c → Falls cfg (before ++ c :: mid) d →
    c.now + cfg.decreaseCooldown ≤ d.now
  /-- No increase happens less than the cooldown after a cut. -/
  rises_after_cut : ∀ before c mid d rest, calls = before ++ c :: (mid ++ d :: rest) →
    Cuts cfg before c → Rises cfg (before ++ c :: mid) d →
    c.now + cfg.decreaseCooldown ≤ d.now
  /-- Only a tick raises the rate. -/
  rises_at_tick : ∀ before c rest, calls = before ++ c :: rest → Rises cfg before c →
    c.signal = .tick
  /-- After a cut, a call raises it by the additive step at most. -/
  growth : ∀ before c mid d rest, calls = before ++ c :: (mid ++ d :: rest) →
    Cuts cfg before c →
    (after cfg (before ++ c :: (mid ++ [d]))).currentBitrate ≤
      (after cfg (before ++ c :: mid)).currentBitrate + cfg.additiveIncrease
  /-- Without the uncorroborated burst reports the run returns the same
  targets and ends in the same state. -/
  prune_eq : (new cfg).run (prune [] calls) = (new cfg).run calls

/-- **Adaptive-bitrate decisions**, in a run in which no growth overflows. -/
theorem NoOverflow.decisions (hcfg : cfg.Valid) (hno : NoOverflow cfg calls)
    (horder : InOrder calls) : Decisions cfg calls where
  falls_near_backlog before c rest hsplit hfall := by
    rw [hsplit, List.append_cons] at horder hno
    exact (hfall.cuts hcfg (hno.append_left _)).near_backlog (List.pairwise_append.1 horder).1
  tick_keeps before c rest hsplit hsig hfall := by
    rw [hsplit, List.append_cons] at hno
    have hcut := hfall.cuts hcfg (hno.append_left _)
    simp [Cuts, cuts, congestion, hsig] at hcut
  falls_apart before c mid d rest hsplit hc hd := by
    have hno' : NoOverflow cfg (before ++ c :: mid ++ [d]) := by
      refine NoOverflow.append_left rest ?_
      rw [hsplit] at hno
      simpa using hno
    have hno'' : NoOverflow cfg (before ++ [c]) := by
      refine NoOverflow.append_left (mid ++ [d]) ?_
      simpa using hno'
    have hd' := hd.cuts hcfg hno'
    simp only [Cuts, cuts, Bool.and_eq_true, Bool.not_eq_true'] at hd'
    refine cooldown_le_of_cuts hcfg mid (hc.cuts hcfg hno'') ?_ hd'.2
    rw [hsplit] at horder
    exact horder.sublist (by simp)
  rises_after_cut before c mid d rest hsplit hc hd := by
    have hno' : NoOverflow cfg (before ++ c :: mid) := by
      refine NoOverflow.append_left (d :: rest) ?_
      rw [hsplit] at hno
      simpa using hno
    refine cooldown_le_of_cuts hcfg mid hc ?_ (signal_of_grows (hd.grows hcfg hno')).2
    rw [hsplit] at horder
    exact horder.sublist (by simp)
  rises_at_tick before c rest hsplit hrise := by
    rw [hsplit] at hno
    exact (signal_of_grows (hrise.grows hcfg (hno.append_left _))).1
  growth before c mid d rest hsplit hcut := by
    refine growth_after_cut hcfg ?_ hcut d
    refine NoOverflow.append_left (d :: rest) ?_
    rw [hsplit] at hno
    simpa using hno
  prune_eq := run_prune calls [] horder

/-- **The laws hold exactly in the runs in which no growth overflows**, of
every valid configuration and every sequence of calls at non-decreasing
instants. -/
theorem decisions_iff (cfg : AdaptiveBitrateConfig Ms) (hcfg : cfg.Valid) (calls : List (Call Ms))
    (horder : InOrder calls) : Decisions cfg calls ↔ NoOverflow cfg calls := by
  refine ⟨fun h before c rest hsplit hgrows => ?_, fun h => h.decisions hcfg horder⟩
  by_contra hfits
  exact h.tick_keeps before c rest hsplit (signal_of_grows hgrows).1
    ((falls_of_grows hcfg hgrows).2 hfits)

/-- Two backlogs around a burst report, in the default configuration:
the second of them is a decrease, and the laws hold. -/
theorem decisions_iff_default :
    Falls (AdaptiveBitrateConfig.default : AdaptiveBitrateConfig ℕ)
        [⟨.sendBacklog, 0⟩, ⟨.arrivalStall, fromSecs 1⟩] ⟨.sendBacklog, fromSecs 2⟩ ∧
      Decisions (AdaptiveBitrateConfig.default : AdaptiveBitrateConfig ℕ)
        [⟨.sendBacklog, 0⟩, ⟨.arrivalStall, fromSecs 1⟩, ⟨.sendBacklog, fromSecs 2⟩] :=
  ⟨by decide +kernel,
    (decisions_iff _ AdaptiveBitrateConfig.default_valid _ (by simp [InOrder, fromSecs])).2
      (noOverflow_of_max_lt AdaptiveBitrateConfig.default_valid default_factors.2.2 (by decide) _)⟩

/-- As many ticks, a second apart. -/
def ticks (Ms : Type*) (n : ℕ) : List (Call Ms) :=
  (List.range n).map fun k => ⟨.tick, fromSecs k⟩

omit [LT Ms] [DecidableLT Ms] in
theorem inOrder_ticks (n : ℕ) : InOrder (ticks Ms n) :=
  List.pairwise_map.2 ((List.pairwise_lt_range (n := n)).imp fun hlt =>
    Nat.mul_le_mul_right _ hlt.le)

/-- **A minute and a half without congestion**, the ceiling at the largest
`usize`: slow start reaches it, and the next tick's sum wraps round. -/
theorem growth_wraps :
    let cfg : AdaptiveBitrateConfig ℕ := { AdaptiveBitrateConfig.default with
      maxBitrate := 2 ^ 64 - 1 }
    cfg.minBitrate ≤ cfg.initialBitrate ∧ cfg.initialBitrate ≤ cfg.maxBitrate ∧
      InOrder (ticks ℕ 90) ∧
      (after cfg (ticks ℕ 89)).currentBitrate = 2 ^ 64 - 1 ∧
      (after cfg (ticks ℕ 90)).currentBitrate = 149999 ∧ ¬ Decisions cfg (ticks ℕ 90) := by
  intro cfg
  have hfull : (after cfg (ticks ℕ 89)).currentBitrate = 2 ^ 64 - 1 := by decide +kernel
  have hwrapped : (after cfg (ticks ℕ 90)).currentBitrate = 149999 := by decide +kernel
  refine ⟨by decide, by decide, inOrder_ticks 90, hfull, hwrapped, fun h => ?_⟩
  have hsplit : ticks ℕ 90 = ticks ℕ 89 ++ [⟨.tick, fromSecs 89⟩] := by
    rw [ticks, List.range_succ, List.map_append]
    rfl
  refine h.tick_keeps _ _ [] hsplit rfl ?_
  rw [Falls, ← hsplit, hfull, hwrapped]
  decide

end BitrateAlgorithm

end Bitrate

end WaylandWebStream
