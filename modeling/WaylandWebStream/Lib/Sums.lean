import WaylandWebStream.Lib.Binary64

/-!
# Sums — clock times in doubles

A clock's time is a double that is no less than zero, and so is what is
computed of it: a little later, the difference of two times, the later of
two. The sum is the exact one rounded, which no size of the clock takes out
of range (`add_spec`), and not before either of its parts.
-/

namespace WaylandWebStream

namespace Binary64

open Float.Model Float.Model.UnpackedFloat

variable {a b x : Float}

/-- **A time**: finite, and not negative. -/
structure IsTime (x : Float) : Prop where
  finite : x.isFinite = true
  nonneg : 0 ≤ toRat x

theorem isTime_zero : IsTime 0 := ⟨isFinite_zero, toRat_zero.ge⟩

/-- A finite double is below where rounding leaves the range by half a step. -/
theorem toRat_le_max (hx : x.isFinite = true) : toRat x ≤ (2 ^ 53 - 1) * 2 ^ (971 : ℤ) := by
  have hwf := wellFormed x
  change x.toModel.unpack.isFinite = true at hx
  rw [toRat]
  have hmax : (0 : ℚ) ≤ (2 ^ 53 - 1) * 2 ^ (971 : ℤ) := mul_nonneg (by norm_num) (two_zpow_pos _).le
  generalize x.toModel.unpack = u at hwf hx
  cases u with
  | notANumber => cases hx
  | infinity s => cases hx
  | zero s => exact hmax
  | finite s m e hm =>
    have hpos := value_pos (e := e) hm
    have hm53 : (m : ℚ) ≤ 2 ^ 53 - 1 := by
      have hlt : m + 1 ≤ 2 ^ 53 := hwf.1.bits
      have hlt' : ((m + 1 : ℕ) : ℚ) ≤ 2 ^ 53 := by exact_mod_cast hlt
      push_cast at hlt'
      linarith only [hlt']
    cases s with
    | negative =>
      rw [value_negative]
      exact (neg_nonpos.2 hpos.le).trans hmax
    | positive =>
      rw [value_positive]
      exact mul_le_mul hm53 (two_zpow_le hwf.2) (two_zpow_pos e).le (by norm_num)

/-- **A little later**: the sum is in range whatever the time. -/
theorem add_spec (ha : IsTime a) (hb : IsTime b) (hmost : toRat b ≤ 2 ^ (100 : ℤ)) :
    IsTime (a + b) ∧ Nearest (toRat a + toRat b) (toRat (a + b)) := by
  have hsum : 0 ≤ toRat a + toRat b := add_nonneg ha.nonneg hb.nonneg
  have hlt : |toRat a + toRat b| < overflowAt := by
    have hmax := toRat_le_max ha.finite
    have hhalf : (2 : ℚ) ^ (100 : ℤ) < 2 ^ (970 : ℤ) :=
      zpow_lt_zpow_right₀ one_lt_two (by decide)
    have hstep : (2 : ℚ) ^ (971 : ℤ) = 2 * 2 ^ (970 : ℤ) := by
      rw [← zpow_one_add₀ two_ne_zero]
      rfl
    rw [abs_of_nonneg hsum, overflowAt]
    rw [hstep] at hmax ⊢
    generalize (2 : ℚ) ^ (970 : ℤ) = half at hhalf hmax ⊢
    generalize (2 : ℚ) ^ (100 : ℤ) = little at hmost hhalf
    linarith
  obtain ⟨hfinite, hnearest⟩ :=
    rounds_pack_of_lt (add_rounds (wellFormed a) (wellFormed b) ha.finite hb.finite) hlt
  exact ⟨⟨hfinite, hnearest.nonneg hsum⟩, hnearest⟩

/-- The sum is not before either of its parts, -/
theorem le_add (ha : IsTime a) (hb : IsTime b) (hmost : toRat b ≤ 2 ^ (100 : ℤ)) :
    toRat a ≤ toRat (a + b) ∧ toRat b ≤ toRat (a + b) :=
  ⟨(add_spec ha hb hmost).2.toRat_le ha.finite (le_add_of_nonneg_right hb.nonneg),
    (add_spec ha hb hmost).2.toRat_le hb.finite (le_add_of_nonneg_left ha.nonneg)⟩

/-- and not after the time by more than twice what was added: the time itself
would be nearer. -/
theorem add_le (ha : IsTime a) (hb : IsTime b) (hmost : toRat b ≤ 2 ^ (100 : ℤ)) :
    toRat (a + b) ≤ toRat a + 2 * toRat b := by
  have hcloser := (add_spec ha hb hmost).2.abs_sub_le ha.finite
  have hback : |toRat a - (toRat a + toRat b)| = toRat b := by
    rw [sub_add_cancel_left, abs_neg, abs_of_nonneg hb.nonneg]
  rw [hback] at hcloser
  have hle := (abs_le.1 hcloser).2
  linarith

/-- The relative error of the sum. -/
theorem add_le_mul (ha : IsTime a) (hb : IsTime b) (hmost : toRat b ≤ 2 ^ (100 : ℤ))
    (hnormal : (2 : ℚ) ^ (-1022 : ℤ) ≤ toRat a + toRat b) :
    toRat (a + b) ≤ (toRat a + toRat b) * (1 + 2 ^ (-53 : ℤ)) := by
  have herror := (abs_le.1 ((add_spec ha hb hmost).2.relative hnormal)).2
  linarith

/-- **The difference of two times**, either way round, is in range. -/
theorem sub_spec (ha : IsTime a) (hb : IsTime b) :
    (a - b).isFinite = true ∧ Nearest (toRat a - toRat b) (toRat (a - b)) := by
  have hlt : |toRat a - toRat b| < overflowAt := by
    have hstep := two_zpow_pos 971
    have hmaxa := toRat_le_max ha.finite
    have hmaxb := toRat_le_max hb.finite
    have ha0 := ha.nonneg
    have hb0 := hb.nonneg
    rw [overflowAt, abs_lt]
    generalize (2 : ℚ) ^ (971 : ℤ) = step at hstep hmaxa hmaxb ⊢
    constructor <;> linarith
  exact rounds_pack_of_lt (sub_rounds (wellFormed a) (wellFormed b) ha.finite hb.finite) hlt

theorem max_eq_or (a b : Float) : max a b = a ∨ max a b = b := by
  have hmax : max a b = if a ≤ b then b else a := rfl
  rw [hmax]
  split
  · exact .inr rfl
  · exact .inl rfl

/-- **The later of two times.** -/
theorem max_spec (ha : IsTime a) (hb : IsTime b) :
    IsTime (max a b) ∧ toRat (max a b) = max (toRat a) (toRat b) := by
  have hmax : max a b = if a ≤ b then b else a := rfl
  rw [hmax]
  split
  · rename_i hle
    exact ⟨hb, (max_eq_right ((le_iff ha.finite hb.finite).1 hle)).symm⟩
  · rename_i hle
    rw [le_iff ha.finite hb.finite, not_le] at hle
    exact ⟨ha, (max_eq_left hle.le).symm⟩

end Binary64

end WaylandWebStream
