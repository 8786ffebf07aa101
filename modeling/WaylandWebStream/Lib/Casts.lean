import WaylandWebStream.Lib.Binary64

/-!
# Casts — between 64-bit integers and doubles

An integer becomes the nearest double, and a double the integer below it,
clamped to what 64 bits hold. A product of an integer and a factor, cast
there and back, is then off the exact one by a few parts in 2⁵³, and on the
same side of the integer as the factor is of one (`cast_mul_le`,
`le_cast_mul`).
-/

namespace WaylandWebStream

namespace Binary64

open Float.Model Float.Model.UnpackedFloat

/-! ## The casts -/

variable {x : Float} {n : UInt64}

/-- **`as f64`**: the nearest double. -/
theorem toFloat_nearest (n : UInt64) :
    n.toFloat.isFinite = true ∧ Nearest n.toNat (toRat n.toFloat) := by
  have hrounds := normalize_rounds n.toNat 0 .positive
  rw [zpow_zero, mul_one] at hrounds
  have hlt : |((n.toNat : ℤ) : ℚ)| < 2 ^ (1023 : ℤ) := by
    have hn : ((n.toNat : ℤ) : ℚ) < 2 ^ (64 : ℤ) := by exact_mod_cast n.toNat_lt
    rw [abs_of_nonneg (by exact_mod_cast Nat.zero_le _)]
    exact lt_of_lt_of_le hn (two_zpow_le (by decide))
  exact rounds_pack hrounds hlt

theorem toFloat_nonneg (n : UInt64) : 0 ≤ toRat n.toFloat :=
  (toFloat_nearest n).2.nonneg (by positivity)

/-- It is at most the power of two the integers end at. -/
theorem toFloat_le (n : UInt64) : toRat n.toFloat ≤ 2 ^ (64 : ℤ) := by
  have hle := (toFloat_nearest n).2.ge_of_ge (k := 64) (z := 1) (by decide) (by decide) (by
    rw [Int.cast_one, one_mul]
    exact_mod_cast n.toNat_lt.le)
  rwa [Int.cast_one, one_mul] at hle

/-- Up to 53 bits an integer is a double. -/
theorem toRat_toFloat_of_le (hn : n.toNat ≤ 2 ^ 53) : toRat n.toFloat = n.toNat := by
  have habs : |(n.toNat : ℤ)| ≤ 2 ^ 53 := by
    rw [abs_of_nonneg (Int.natCast_nonneg _)]
    exact_mod_cast hn
  have hclosest := (toFloat_nearest n).2.closest 0 n.toNat (by decide) habs
  rw [zpow_zero, mul_one, Int.cast_natCast, sub_self, abs_zero] at hclosest
  exact sub_eq_zero.1 (abs_nonpos_iff.1 hclosest)

/-- Its relative error. -/
theorem abs_toFloat_sub_le (n : UInt64) :
    |toRat n.toFloat - n.toNat| ≤ n.toNat * 2 ^ (-53 : ℤ) := by
  rcases Nat.eq_zero_or_pos n.toNat with hzero | hpos
  · rw [toRat_toFloat_of_le (by omega), hzero]
    norm_num
  · refine (toFloat_nearest n).2.relative ?_
    have hone : (1 : ℚ) ≤ n.toNat := by exact_mod_cast hpos
    exact (zpow_le_one_of_nonpos₀ one_le_two (by decide)).trans hone

theorem toNat_ofNatClamp (m : ℕ) : (UInt64.ofNatClamp m).toNat = min m (2 ^ 64 - 1) := by
  unfold UInt64.ofNatClamp
  split
  · rename_i hlt
    change m < 2 ^ 64 at hlt
    rw [UInt64.toNat_ofNatLT]
    omega
  · rename_i hle
    change ¬ m < 2 ^ 64 at hle
    rw [UInt64.toNat_ofNatLT]
    change 2 ^ 64 - 1 = _
    omega

/-- Towards zero, a mantissa is shifted to the units. -/
theorem roundToInt_positive (m : ℕ) (e : ℤ) :
    (roundToInt .positive m e).toNat = ⌊(m : ℚ) * 2 ^ e⌋₊ := by
  have hround : roundToInt .positive m e =
      ((m <<< (e - 0).toNat / 2 ^ (0 - (e - (e - 0).toNat)).toNat : ℕ) : ℤ) := by
    unfold roundToInt decreaseExponent shiftToExponent
    dsimp only
    rw [shiftRight_eq]
    rfl
  rw [hround, Int.toNat_natCast, Nat.shiftLeft_eq]
  rcases le_or_gt 0 e with he | he
  · obtain ⟨k, rfl⟩ := Int.eq_ofNat_of_zero_le he
    have hzero : (0 - ((k : ℤ) - ((k : ℤ) - 0).toNat)).toNat = 0 := by omega
    have hk : ((k : ℤ) - 0).toNat = k := by omega
    rw [hzero, hk, pow_zero, Nat.div_one, zpow_natCast]
    exact_mod_cast (Nat.floor_natCast (R := ℚ) (m * 2 ^ k)).symm
  · obtain ⟨k, rfl⟩ : ∃ k : ℕ, e = -(k : ℤ) := ⟨(-e).toNat, by omega⟩
    have hzero : (-(k : ℤ) - 0).toNat = 0 := by omega
    have hk : (0 - (-(k : ℤ) - ((0 : ℕ) : ℤ))).toNat = k := by omega
    rw [hzero, hk, pow_zero, mul_one, zpow_neg, zpow_natCast, ← div_eq_mul_inv]
    have hfloor := Nat.floor_div_natCast (K := ℚ) m (2 ^ k)
    rw [Nat.floor_natCast] at hfloor
    rw [← hfloor]
    push_cast
    rfl

/-- **`as usize`**: the integer below, clamped. -/
theorem toNat_toUInt64 (hx : x.isFinite = true) (h0 : 0 ≤ toRat x) :
    x.toUInt64.toNat = min ⌊toRat x⌋₊ (2 ^ 64 - 1) := by
  change x.toModel.unpack.isFinite = true at hx
  rw [toRat] at h0 ⊢
  change (UInt64.ofNatClamp (x.toModel.unpack.toInt 0 (UInt64.size - 1)).toNat).toNat = _
  rw [toNat_ofNatClamp]
  generalize x.toModel.unpack = u at hx h0
  cases u with
  | notANumber => cases hx
  | infinity s => cases hx
  | zero s =>
    rw [value_zero, Nat.floor_zero]
    rfl
  | finite s m e hm =>
    cases s with
    | positive =>
      rw [value_positive, ← roundToInt_positive]
      rfl
    | negative =>
      rw [value_negative] at h0
      have := value_pos (e := e) hm
      linarith

/-- An infinity is clamped. -/
theorem toNat_toUInt64_infinity (hx : x.toModel.unpack = .infinity .positive) :
    x.toUInt64.toNat = 2 ^ 64 - 1 := by
  change (UInt64.ofNatClamp (x.toModel.unpack.toInt 0 (UInt64.size - 1)).toNat).toNat = _
  rw [hx, toNat_ofNatClamp]
  rfl

/-! ## A product, cast there and back -/

variable {f : Float}

/-- What is compared with one is a number. -/
theorem isNaN_of_one_le (h : 1 ≤ f) : f.isNaN = false := by
  rw [le_def] at h
  change f.toModel.unpack.isNaN = false
  generalize f.toModel.unpack = u at h
  cases u with
  | notANumber => cases h
  | _ => rfl

/-- At least one and not above it is one. -/
theorem eq_one_of_le (h1 : 1 ≤ f) (h : ¬ 1 < f) : f.isFinite = true ∧ toRat f = 1 := by
  rcases isFinite_or_infinity (isNaN_of_one_le h1) with hf | ⟨s, hs⟩
  · refine ⟨hf, le_antisymm ?_ ?_⟩
    · rw [lt_iff isFinite_one hf, toRat_one] at h
      exact not_lt.1 h
    · rw [← toRat_one]
      exact (le_iff isFinite_one hf).1 h1
  · rw [le_def, hs] at h1
    rw [lt_def, hs] at h
    cases s with
    | positive => exact absurd rfl h
    | negative => cases h1

theorem one_le_toFloat (hn : 0 < n.toNat) : 1 ≤ toRat n.toFloat := by
  have hle := (toFloat_nearest n).2.le_of_le (k := 0) (z := 1) (by decide) (by decide) (by
    rw [Int.cast_one, one_mul, zpow_zero]
    exact_mod_cast hn)
  rwa [Int.cast_one, one_mul, zpow_zero] at hle

/-- The product with a factor of no great size is in range. -/
theorem mul_toFloat_nearest (hf : f.isFinite = true) (h0 : 0 ≤ toRat f) (hmost : toRat f ≤ 2 ^ 100) :
    (n.toFloat * f).isFinite = true ∧
      Nearest (toRat n.toFloat * toRat f) (toRat (n.toFloat * f)) := by
  refine mul_nearest (toFloat_nearest n).1 hf ?_
  rw [abs_of_nonneg (mul_nonneg (toFloat_nonneg n) h0)]
  calc toRat n.toFloat * toRat f ≤ 2 ^ (64 : ℤ) * 2 ^ 100 :=
        mul_le_mul (toFloat_le n) hmost h0 (two_zpow_pos _).le
    _ = 2 ^ (164 : ℤ) := by norm_num
    _ < 2 ^ (1023 : ℤ) := zpow_lt_zpow_right₀ one_lt_two (by decide)

/-- **A factor below one** does not raise the integer. -/
theorem cast_mul_le (hf : f.isFinite = true) (h0 : 0 ≤ toRat f) (h1 : toRat f < 1) :
    (n.toFloat * f).toUInt64.toNat ≤ n.toNat := by
  obtain ⟨hfinite, hnearest⟩ := mul_toFloat_nearest (n := n) hf h0 (h1.le.trans (by norm_num))
  have hprod0 := hnearest.nonneg (mul_nonneg (toFloat_nonneg n) h0)
  rw [toNat_toUInt64 hfinite hprod0]
  refine (min_le_left _ _).trans (Nat.floor_le_of_le ?_)
  rcases Nat.eq_zero_or_pos n.toNat with hzero | hpos
  · rw [toRat_toFloat_of_le (by omega), hzero, Nat.cast_zero, zero_mul] at hnearest
    rw [hzero, Nat.cast_zero]
    exact hnearest.nonpos le_rfl
  · -- the product is a double below the cast integer, and so not above the integer
    have hlt : toRat (n.toFloat * f) < toRat n.toFloat := by
      rw [mul_comm] at hnearest
      exact hnearest.mul_lt h0 (toRat_le_of_lt_one hf h1) (one_le_toFloat hpos)
    by_contra hgt
    rw [not_le] at hgt
    have hcloser := (toFloat_nearest n).2.abs_sub_le hfinite
    rw [abs_of_pos (by linarith), abs_of_pos (by linarith)] at hcloser
    linarith

/-- The grid of what is at least one. -/
theorem lt_exponent {e : ℤ} (h1 : 1 ≤ toRat x) (hbelow : toRat x < 2 ^ (e + 53)) : -53 < e := by
  have hpow : (2 : ℚ) ^ (0 : ℤ) < 2 ^ (e + 53) := by
    rw [zpow_zero]
    linarith
  have := (zpow_lt_zpow_iff_right₀ one_lt_two).1 hpow
  omega

/-- **The next double**, from one on: a point of the grid above, by one part
in 2⁵² at most. -/
theorem exists_next (hx : x.isFinite = true) (h1 : 1 ≤ toRat x) :
    ∃ z e : ℤ, -1074 ≤ e ∧ |z| ≤ 2 ^ 53 ∧ toRat x < z * 2 ^ e ∧
      z * 2 ^ e ≤ toRat x * (1 + 2 ^ (-52 : ℤ)) := by
  obtain ⟨z, e, hleast, hz, hbelow, hfull⟩ := toRat_grid hx
  rw [abs_of_pos (by linarith)] at hbelow hfull
  have he := lt_exponent h1 hbelow
  have hnext : ((z + 1 : ℤ) : ℚ) * 2 ^ e = toRat x + 2 ^ e := by
    rw [hz]
    push_cast
    ring
  refine ⟨z + 1, e, hleast, ?_, ?_, ?_⟩
  · have hlt : (z : ℚ) * 2 ^ e < 2 ^ 53 * 2 ^ e := by
      rw [← hz]
      exact lt_of_lt_of_eq hbelow (two_zpow_add_nat e 53)
    have hz1 : z < 2 ^ 53 := by exact_mod_cast lt_of_mul_lt_mul_right hlt (two_zpow_pos e).le
    have hz0 : 0 ≤ z := by
      have hprod : (0 : ℚ) ≤ z * 2 ^ e := by linarith
      exact_mod_cast nonneg_of_mul_nonneg_left hprod (two_zpow_pos e)
    rw [abs_of_nonneg (by omega)]
    omega
  · rw [hnext]
    exact lt_add_of_pos_right _ (two_zpow_pos e)
  · -- the mantissa is full, so a unit of it is a part in 2⁵²
    have hunit : (2 : ℚ) ^ e ≤ toRat x * 2 ^ (-52 : ℤ) :=
      calc (2 : ℚ) ^ e = 2 ^ (e + 52) * 2 ^ (-52 : ℤ) := by
            rw [← zpow_add₀ two_ne_zero]
            congr 1
            omega
        _ ≤ toRat x * 2 ^ (-52 : ℤ) :=
            mul_le_mul_of_nonneg_right (hfull (by omega)) (two_zpow_pos _).le
    rw [hnext]
    linarith

/-- The least double above one is above it by two units in the last place
below it. -/
theorem le_toRat_of_one_lt (hf : f.isFinite = true) (h : 1 < toRat f) :
    1 + 2 ^ (-52 : ℤ) ≤ toRat f := by
  obtain ⟨z, e, hleast, hz, hbelow, hfull⟩ := toRat_grid hf
  rw [abs_of_pos (by linarith)] at hbelow hfull
  have he := lt_exponent h.le hbelow
  rcases eq_or_lt_of_le (show -52 ≤ e by omega) with rfl | he
  · have hz1 : ((2 ^ 52 : ℤ) : ℚ) * 2 ^ (-52 : ℤ) < z * 2 ^ (-52 : ℤ) := by
      rw [← hz]
      refine lt_of_eq_of_lt ?_ h
      norm_num
    have hz2 : (2 : ℤ) ^ 52 < z := by
      exact_mod_cast lt_of_mul_lt_mul_right hz1 (two_zpow_pos (-52)).le
    have hz3 : ((2 : ℚ) ^ 52 + 1) ≤ z := by exact_mod_cast hz2
    rw [hz]
    refine le_trans (le_of_eq ?_) (mul_le_mul_of_nonneg_right hz3 (two_zpow_pos (-52)).le)
    norm_num
  · have hlow := hfull (by omega)
    have htwo : (2 : ℚ) ^ (1 : ℤ) ≤ 2 ^ (e + 52) := two_zpow_le (by omega)
    have hsmall : (2 : ℚ) ^ (-52 : ℤ) ≤ 2 ^ (0 : ℤ) := two_zpow_le (by decide)
    rw [zpow_one] at htwo
    rw [zpow_zero] at hsmall
    linarith

/-- An integer is not above the double after its own, which would be nearer
to it. -/
theorem le_next {z e : ℤ} (hleast : -1074 ≤ e) (hz : |z| ≤ 2 ^ 53)
    (h : toRat n.toFloat < z * 2 ^ e) : (n.toNat : ℚ) ≤ z * 2 ^ e := by
  by_contra hgt
  rw [not_le] at hgt
  have hcloser := (toFloat_nearest n).2.closest e z hleast hz
  rw [abs_of_neg (by linarith), abs_of_neg (by linarith)] at hcloser
  linarith

/-- **The relative error of the product**: four roundings' worth at most. -/
theorem cast_mul_le_exact (hf : f.isFinite = true) (hleast : (2 : ℚ) ^ (-100 : ℤ) ≤ toRat f)
    (hmost : toRat f ≤ 2 ^ 100) :
    ((n.toFloat * f).toUInt64.toNat : ℚ) ≤ n.toNat * toRat f * (1 + 2 ^ (-51 : ℤ)) := by
  have h0 : 0 < toRat f := lt_of_lt_of_le (two_zpow_pos _) hleast
  obtain ⟨hfinite, hnearest⟩ := mul_toFloat_nearest (n := n) hf h0.le hmost
  have hprod0 := hnearest.nonneg (mul_nonneg (toFloat_nonneg n) h0.le)
  have hfloor : ((n.toFloat * f).toUInt64.toNat : ℚ) ≤ toRat (n.toFloat * f) := by
    rw [toNat_toUInt64 hfinite hprod0]
    refine le_trans ?_ (Nat.floor_le hprod0)
    exact_mod_cast min_le_left _ _
  refine hfloor.trans ?_
  rcases Nat.eq_zero_or_pos n.toNat with hzero | hpos
  · rw [toRat_toFloat_of_le (by omega), hzero, Nat.cast_zero, zero_mul] at hnearest
    rw [hzero, Nat.cast_zero, zero_mul, zero_mul]
    exact hnearest.nonpos le_rfl
  · have hone := one_le_toFloat hpos
    have hcast := (abs_le.1 (abs_toFloat_sub_le n)).2
    have hnormal : (2 : ℚ) ^ (-1022 : ℤ) ≤ toRat n.toFloat * toRat f :=
      calc (2 : ℚ) ^ (-1022 : ℤ) ≤ 2 ^ (-100 : ℤ) := two_zpow_le (by decide)
        _ ≤ toRat f := hleast
        _ ≤ toRat n.toFloat * toRat f := le_mul_of_one_le_left h0.le hone
    have hmul := (abs_le.1 (hnearest.relative hnormal)).2
    have hε : (1 + (2 : ℚ) ^ (-53 : ℤ)) * (1 + 2 ^ (-53 : ℤ)) ≤ 1 + 2 ^ (-51 : ℤ) := by norm_num
    have hε0 : (0 : ℚ) ≤ 1 + 2 ^ (-53 : ℤ) := by positivity
    have hn0 : (0 : ℚ) ≤ n.toNat * toRat f := by positivity
    calc toRat (n.toFloat * f) ≤ toRat n.toFloat * toRat f * (1 + 2 ^ (-53 : ℤ)) := by linarith
      _ ≤ n.toNat * (1 + 2 ^ (-53 : ℤ)) * toRat f * (1 + 2 ^ (-53 : ℤ)) := by
          refine mul_le_mul_of_nonneg_right (mul_le_mul_of_nonneg_right ?_ h0.le) hε0
          linarith
      _ = n.toNat * toRat f * ((1 + 2 ^ (-53 : ℤ)) * (1 + 2 ^ (-53 : ℤ))) := by ring
      _ ≤ n.toNat * toRat f * (1 + 2 ^ (-51 : ℤ)) := mul_le_mul_of_nonneg_left hε hn0

/-- Below the next integer by more than the error, the product is truncated
as the exact one is. -/
theorem cast_mul_le_floor {c : ℚ} (hf : f.isFinite = true) (h0 : 0 ≤ toRat f) (hfc : toRat f ≤ c)
    (hn : n.toNat ≤ 2 ^ 53) (hrange : n.toNat * c < 2 ^ (49 : ℤ))
    (hfrac : n.toNat * c + 1 / 32 < ⌊n.toNat * c⌋₊ + 1) :
    (n.toFloat * f).toUInt64.toNat ≤ ⌊n.toNat * c⌋₊ := by
  have hle : n.toNat * toRat f ≤ n.toNat * c :=
    mul_le_mul_of_nonneg_left hfc (Nat.cast_nonneg _)
  have hprod0 : 0 ≤ n.toNat * toRat f := mul_nonneg (Nat.cast_nonneg _) h0
  have hb := toRat_toFloat_of_le hn
  have hsmall : |toRat n.toFloat * toRat f| < 2 ^ (49 : ℤ) := by
    rw [hb, abs_of_nonneg hprod0]
    exact lt_of_le_of_lt hle hrange
  obtain ⟨hfinite, hnearest⟩ := mul_nearest (toFloat_nearest n).1 hf
    (hsmall.trans (zpow_lt_zpow_right₀ one_lt_two (by decide)))
  have herror := (abs_le.1 (hnearest.error (-4) (by decide)
    (by rwa [show (-4 : ℤ) + 53 = 49 from rfl]))).2
  have hhalf : (2 : ℚ) ^ ((-4 : ℤ) - 1) = 1 / 32 := by norm_num
  rw [hb, hhalf] at herror
  rw [toNat_toUInt64 hfinite (hnearest.nonneg (by rwa [hb]))]
  refine (min_le_left _ _).trans (Nat.lt_succ_iff.1 (Nat.floor_lt' (Nat.succ_ne_zero _) |>.2 ?_))
  push_cast
  linarith

/-- A factor of one is that of the cast alone. -/
theorem cast_mul_one (hf : f.isFinite = true) (h : toRat f = 1) :
    (n.toFloat * f).toUInt64.toNat = n.toFloat.toUInt64.toNat := by
  obtain ⟨hfinite, hnearest⟩ := mul_toFloat_nearest (n := n) hf (by rw [h]; exact zero_le_one)
    (by rw [h]; norm_num)
  rw [h, mul_one] at hnearest
  have heq : toRat (n.toFloat * f) = toRat n.toFloat :=
    le_antisymm (hnearest.le_toRat (toFloat_nearest n).1 le_rfl)
      (hnearest.toRat_le (toFloat_nearest n).1 le_rfl)
  rw [toNat_toUInt64 hfinite (heq ▸ toFloat_nonneg n), heq,
    toNat_toUInt64 (toFloat_nearest n).1 (toFloat_nonneg n)]

/-- **A factor above one** does not lower the integer, be the cast rounded
down: the product reaches the next double. -/
theorem le_cast_mul_of_finite (hf : f.isFinite = true) (h : 1 < toRat f) :
    n.toNat ≤ (n.toFloat * f).toUInt64.toNat := by
  rcases Nat.eq_zero_or_pos n.toNat with hzero | hpos
  · omega
  have hn : n.toNat ≤ 2 ^ 64 - 1 := by
    have := n.toNat_lt
    omega
  have hone := one_le_toFloat hpos
  have hprod : 0 ≤ toRat n.toFloat * toRat f := mul_nonneg (by linarith) (by linarith)
  rcases mul_cases (toFloat_nearest n).1 hf with ⟨hfinite, hnearest⟩ | ⟨-, s, hinf, hpositive⟩
  · obtain ⟨z, e, hleast, hz, habove, hnext⟩ := exists_next (toFloat_nearest n).1 hone
    have hreach : (z : ℚ) * 2 ^ e ≤ toRat (n.toFloat * f) :=
      hnearest.le_of_le hleast hz <| hnext.trans <|
        mul_le_mul_of_nonneg_left (le_toRat_of_one_lt hf h) (by linarith)
    rw [toNat_toUInt64 hfinite (hnearest.nonneg hprod)]
    exact le_min (Nat.le_floor ((le_next hleast hz habove).trans hreach)) hn
  · rw [toNat_toUInt64_infinity (by rw [hinf, hpositive hprod])]
    exact hn

theorem mul_infinity (hx : x.isFinite = true) (h0 : 0 < toRat x)
    (hf : f.toModel.unpack = .infinity .positive) :
    (x * f).toModel.unpack = .infinity .positive := by
  change (Float.Model.pack (UnpackedFloat.mul Format.binary64 x.toModel.unpack
    f.toModel.unpack)).unpack = _
  change x.toModel.unpack.isFinite = true at hx
  rw [toRat] at h0
  rw [hf]
  generalize x.toModel.unpack = u at hx h0
  cases u with
  | notANumber => cases hx
  | infinity s => cases hx
  | zero s => exact absurd h0 (lt_irrefl _)
  | finite s m e hm =>
    cases s with
    | positive =>
      have hmul : UnpackedFloat.mul Format.binary64 (.finite .positive m e hm)
          (.infinity .positive) = .infinity .positive := by
        simp only [UnpackedFloat.mul]
        rfl
      rw [hmul]
      rfl
    | negative =>
      rw [value_negative] at h0
      have := value_pos (e := e) hm
      linarith

/-- Also an infinite one. -/
theorem le_cast_mul (h : 1 < f) : n.toNat ≤ (n.toFloat * f).toUInt64.toNat := by
  rcases isFinite_or_infinity (isNaN_of_one_le (Binary64.le_of_lt h)) with hf | ⟨s, hs⟩
  · refine le_cast_mul_of_finite hf ?_
    rw [← toRat_one]
    exact (lt_iff isFinite_one hf).1 h
  · have hpositive : s = .positive := by
      rw [lt_def, hs] at h
      cases s with
      | positive => rfl
      | negative => cases h
    rcases Nat.eq_zero_or_pos n.toNat with hzero | hpos
    · omega
    · have hinf : (n.toFloat * f).toModel.unpack = .infinity .positive := by
        refine mul_infinity (toFloat_nearest n).1 ?_ (hpositive ▸ hs)
        exact lt_of_lt_of_le one_pos (one_le_toFloat hpos)
      rw [toNat_toUInt64_infinity hinf]
      have := n.toNat_lt
      omega

end Binary64

end WaylandWebStream
