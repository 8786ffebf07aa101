import Mathlib

/-!
# Rounding — unpacked doubles and the rationals they stand for

An unpacked double is a sign, a mantissa and an exponent. In canonical
form its mantissa has 53 bits, and comparing exponents and then mantissas
compares the rationals. Rounding shifts a mantissa to the exponent it can
keep: `Nearest` says what that does to the rational, on every grid the
exact value fits under, and products, sums and differences are rounded so.
-/

namespace WaylandWebStream

namespace Binary64

open Float.Model Float.Model.UnpackedFloat

/-! ## Values and canonical forms -/

/-- The rational a finite unpacked double stands for. -/
def value : UnpackedFloat → ℚ
  | .finite s m e _ => (s.apply m : ℤ) * 2 ^ e
  | _ => 0

/-- A mantissa and an exponent as a double has them: 53 bits, of which the
highest is set unless the exponent is the least. -/
structure Canonical (m : ℕ) (e : ℤ) : Prop where
  least : -1074 ≤ e
  bits : m < 2 ^ 53
  normal : -1074 < e → 2 ^ 52 ≤ m

/-- What unpacking a double gives. -/
def WellFormed : UnpackedFloat → Prop
  | .finite _ m e _ => Canonical m e ∧ e ≤ 971
  | _ => True

theorem two_zpow_pos (e : ℤ) : (0 : ℚ) < 2 ^ e := zpow_pos two_pos e

theorem two_zpow_le {e f : ℤ} (h : e ≤ f) : (2 : ℚ) ^ e ≤ 2 ^ f :=
  zpow_le_zpow_right₀ one_le_two h

theorem two_zpow_add_nat (e : ℤ) (n : ℕ) : (2 : ℚ) ^ (e + n) = 2 ^ n * 2 ^ e := by
  rw [zpow_add₀ two_ne_zero, zpow_natCast, mul_comm]

namespace Canonical

variable {m n : ℕ} {e f : ℤ}

/-- A canonical value is below the next power of two. -/
theorem value_lt (h : Canonical m e) : (m : ℚ) * 2 ^ e < 2 ^ (e + 53) := by
  have hm : (m : ℚ) < 2 ^ 53 := by exact_mod_cast h.bits
  have hpow : (2 : ℚ) ^ (e + 53) = 2 ^ 53 * 2 ^ e := two_zpow_add_nat e 53
  rw [hpow]
  exact mul_lt_mul_of_pos_right hm (two_zpow_pos e)

/-- Above the least exponent it is at least the power of two before. -/
theorem le_value (h : Canonical m e) (he : -1074 < e) : (2 : ℚ) ^ (e + 52) ≤ m * 2 ^ e := by
  have hm : (2 : ℚ) ^ 52 ≤ m := by exact_mod_cast h.normal he
  have hpow : (2 : ℚ) ^ (e + 52) = 2 ^ 52 * 2 ^ e := two_zpow_add_nat e 52
  rw [hpow]
  exact mul_le_mul_of_nonneg_right hm (two_zpow_pos e).le

/-- A smaller exponent is a smaller value. -/
theorem lt_of_exponent_lt (h : Canonical m e) (h' : Canonical n f) (hef : e < f) :
    (m : ℚ) * 2 ^ e < n * 2 ^ f :=
  calc (m : ℚ) * 2 ^ e < 2 ^ (e + 53) := h.value_lt
    _ ≤ 2 ^ (f + 52) := two_zpow_le (by omega)
    _ ≤ n * 2 ^ f := h'.le_value (lt_of_le_of_lt h.least hef)

/-- **Exponents, then mantissas** order canonical forms as their values. -/
theorem compare_eq (h : Canonical m e) (h' : Canonical n f) :
    (compare e f).then (compare m n) = compare ((m : ℚ) * 2 ^ e) (n * 2 ^ f) := by
  rcases lt_trichotomy e f with hef | rfl | hef
  · rw [compare_lt_iff_lt.2 hef, compare_lt_iff_lt.2 (h.lt_of_exponent_lt h' hef)]
    rfl
  · have hscale : ∀ {a b : ℕ}, a < b → (a : ℚ) * 2 ^ e < b * 2 ^ e := fun hab =>
      mul_lt_mul_of_pos_right (by exact_mod_cast hab) (two_zpow_pos e)
    rw [compare_eq_iff_eq.2 rfl]
    rcases lt_trichotomy m n with hmn | rfl | hmn
    · rw [compare_lt_iff_lt.2 hmn, compare_lt_iff_lt.2 (hscale hmn)]
      rfl
    · rw [compare_eq_iff_eq.2 rfl, compare_eq_iff_eq.2 rfl]
      rfl
    · rw [compare_gt_iff_gt.2 hmn, compare_gt_iff_gt.2 (hscale hmn)]
      rfl
  · rw [compare_gt_iff_gt.2 hef, compare_gt_iff_gt.2 (h'.lt_of_exponent_lt h hef)]
    rfl

end Canonical

/-! ## Order -/

section Order

variable {a b : UnpackedFloat}

theorem value_pos {m : ℕ} {e : ℤ} (hm : 0 < m) : (0 : ℚ) < m * 2 ^ e :=
  mul_pos (by exact_mod_cast hm) (two_zpow_pos e)

@[simp] theorem value_zero {s : Sign} : value (.zero s) = 0 := rfl

@[simp] theorem value_positive {m : ℕ} {e : ℤ} {hm : 0 < m} :
    value (.finite .positive m e hm) = m * 2 ^ e := by
  simp [value, Sign.apply]

@[simp] theorem value_negative {m : ℕ} {e : ℤ} {hm : 0 < m} :
    value (.finite .negative m e hm) = -(m * 2 ^ e) := by
  simp [value, Sign.apply]

theorem swap_compare (x y : ℚ) : (compare x y).swap = compare (-x) (-y) := by
  rcases lt_trichotomy x y with h | rfl | h
  · rw [compare_lt_iff_lt.2 h, compare_gt_iff_gt.2 (neg_lt_neg h)]
    rfl
  · rw [compare_eq_iff_eq.2 rfl, compare_eq_iff_eq.2 rfl]
    rfl
  · rw [compare_gt_iff_gt.2 h, compare_lt_iff_lt.2 (neg_lt_neg h)]
    rfl

/-- **Comparing finite doubles** compares their values. -/
theorem compare_eq (ha : WellFormed a) (hb : WellFormed b) (hfa : a.isFinite = true)
    (hfb : b.isFinite = true) : a.compare b = some (compare (value a) (value b)) := by
  cases a with
  | notANumber => cases hfa
  | infinity s => cases hfa
  | zero s =>
    cases b with
    | notANumber => cases hfb
    | infinity t => cases hfb
    | zero t => rw [value_zero, value_zero, compare_eq_iff_eq.2 rfl]; rfl
    | finite t n f hn =>
      have hpos := value_pos (e := f) hn
      cases t with
      | positive => rw [value_zero, value_positive, compare_lt_iff_lt.2 hpos]; rfl
      | negative =>
        rw [value_zero, value_negative, compare_gt_iff_gt.2 (neg_lt_zero.2 hpos)]; rfl
  | finite s m e hm =>
    have hpos := value_pos (e := e) hm
    cases b with
    | notANumber => cases hfb
    | infinity t => cases hfb
    | zero t =>
      cases s with
      | positive => rw [value_zero, value_positive, compare_gt_iff_gt.2 hpos]; rfl
      | negative =>
        rw [value_zero, value_negative, compare_lt_iff_lt.2 (neg_lt_zero.2 hpos)]; rfl
    | finite t n f hn =>
      have hpos' := value_pos (e := f) hn
      have hcmp := ha.1.compare_eq hb.1
      -- of one sign by magnitude, the other way round below zero; of two signs by sign
      cases s <;> cases t
      · rw [value_negative, value_negative, ← swap_compare, ← hcmp]; rfl
      · rw [value_negative, value_positive,
          compare_lt_iff_lt.2 ((neg_lt_zero.2 hpos).trans hpos')]
        rfl
      · rw [value_positive, value_negative,
          compare_gt_iff_gt.2 ((neg_lt_zero.2 hpos').trans hpos)]
        rfl
      · rw [value_positive, value_positive, ← hcmp]; rfl

end Order

/-! ## Rounding -/

/-- A mantissa shifted right by `n`: the residual bits say where the rest
lies relative to half of the last place. -/
theorem shiftRight_eq (M n : ℕ) :
    (ExtendedMantissa.ofMantissaAndAccuracy M .exact >>> n) =
      ⟨M / 2 ^ n, decide (2 ^ n ≤ 2 * (M % 2 ^ n)), decide (2 * (M % 2 ^ n) % 2 ^ n ≠ 0)⟩ := by
  induction n with
  | zero => simp [HShiftRight.hShiftRight, Nat.repeat, ExtendedMantissa.ofMantissaAndAccuracy,
      Nat.mod_one]
  | succ n ih =>
    have hshift : (ExtendedMantissa.ofMantissaAndAccuracy M .exact >>> (n + 1)) =
      (ExtendedMantissa.ofMantissaAndAccuracy M .exact >>> n).shiftRightOne := rfl
    have hrest : M % 2 ^ (n + 1) = M % 2 ^ n + 2 ^ n * (M / 2 ^ n % 2) := Nat.mod_pow_succ
    have hlt : M % 2 ^ n < 2 ^ n := Nat.mod_lt _ (Nat.two_pow_pos n)
    have hpow : 2 ^ (n + 1) = 2 * 2 ^ n := by rw [pow_succ, mul_comm]
    rw [hshift, ih, ExtendedMantissa.shiftRightOne, hrest, hpow, Nat.mul_mod_mul_left,
      Nat.add_mul_mod_self_left, Nat.mod_mod]
    have hround : (M / 2 ^ n % 2 != 0) =
        decide (2 * 2 ^ n ≤ 2 * (M % 2 ^ n + 2 ^ n * (M / 2 ^ n % 2))) := by
      rcases Nat.mod_two_eq_zero_or_one (M / 2 ^ n) with h | h <;> simp [h, hlt]
    have hsticky : (decide (2 ^ n ≤ 2 * (M % 2 ^ n)) || decide (2 * (M % 2 ^ n) % 2 ^ n ≠ 0)) =
        decide (2 * (M % 2 ^ n) ≠ 0) := by
      rw [← Bool.decide_or]
      refine decide_eq_decide.2 ⟨fun h => ?_, fun h => ?_⟩
      · rcases h with h | h
        · have := Nat.two_pow_pos n
          omega
        · intro hzero
          rw [hzero] at h
          exact h (Nat.zero_mod _)
      · by_cases hle : 2 ^ n ≤ 2 * (M % 2 ^ n)
        · exact .inl hle
        · rw [Nat.mod_eq_of_lt (not_le.1 hle)]
          exact .inr h
    rw [hround, hsticky, Nat.div_div_eq_div_mul, mul_comm (2 ^ n) 2]

/-- Where the round bit is clear the mantissa stays; a tie goes to the
even one. -/
theorem roundedMantissa_cases (q : ℕ) (half rest : Bool) :
    let R := (ExtendedMantissa.mk q half rest).roundedMantissa
    (R = q ∧ half = false) ∨ (R = q ∧ half = true ∧ rest = false) ∨ (R = q + 1 ∧ half = true) := by
  intro R
  cases half with
  | false => cases rest <;> exact .inl ⟨rfl, rfl⟩
  | true =>
    cases rest with
    | true => exact .inr (.inr ⟨rfl, rfl⟩)
    | false =>
      have hR : R = q + q % 2 := rfl
      rcases Nat.mod_two_eq_zero_or_one q with h | h
      · exact .inr (.inl ⟨by omega, rfl, rfl⟩)
      · exact .inr (.inr ⟨by omega, rfl⟩)

/-- The rounded mantissa of a shift. -/
def shifted (M n : ℕ) : ℕ :=
  (ExtendedMantissa.ofMantissaAndAccuracy M .exact >>> n).roundedMantissa

/-- **Half a unit** at most is lost by a shift. -/
theorem shifted_spec (M n : ℕ) :
    2 * (shifted M n * 2 ^ n) ≤ 2 * M + 2 ^ n ∧ 2 * M ≤ 2 * (shifted M n * 2 ^ n) + 2 ^ n ∧
      M / 2 ^ n ≤ shifted M n ∧ shifted M n ≤ M / 2 ^ n + 1 := by
  have hdiv : M / 2 ^ n * 2 ^ n + M % 2 ^ n = M := Nat.div_add_mod' M (2 ^ n)
  have hlt : M % 2 ^ n < 2 ^ n := Nat.mod_lt _ (Nat.two_pow_pos n)
  have hsucc : (M / 2 ^ n + 1) * 2 ^ n = M / 2 ^ n * 2 ^ n + 2 ^ n := Nat.succ_mul _ _
  have hcases := roundedMantissa_cases (M / 2 ^ n) (decide (2 ^ n ≤ 2 * (M % 2 ^ n)))
    (decide (2 * (M % 2 ^ n) % 2 ^ n ≠ 0))
  rw [← shiftRight_eq] at hcases
  change (shifted M n = _ ∧ _) ∨ (shifted M n = _ ∧ _) ∨ (shifted M n = _ ∧ _) at hcases
  rcases hcases with ⟨heq, hhalf⟩ | ⟨heq, hhalf, hrest⟩ | ⟨heq, hhalf⟩
  · have hhalf := of_decide_eq_false hhalf
    rw [heq]
    omega
  · have hhalf := of_decide_eq_true hhalf
    have hrest := of_not_not (of_decide_eq_false hrest)
    rw [Nat.mod_eq_sub_mod hhalf, Nat.mod_eq_of_lt (by omega)] at hrest
    rw [heq]
    omega
  · have hhalf := of_decide_eq_true hhalf
    rw [heq, hsucc]
    omega

/-- The exponent a mantissa is rounded at. -/
def target (M : ℕ) (E : ℤ) : ℤ := max ((M.log2 : ℤ) + 1 + E - 53) (-1074)

theorem targetExponent_eq (M : ℕ) (E : ℤ) :
    Format.binary64.targetExponent (totalExponent M E) = target M E := rfl

/-- A finite double, or zero where the mantissa is. -/
def ofParts (s : Sign) (m : ℕ) (e : ℤ) : UnpackedFloat :=
  if h : m = 0 then .zero s else .finite s m e (Nat.pos_of_ne_zero h)

theorem value_ofParts (s : Sign) (m : ℕ) (e : ℤ) :
    value (ofParts s m e) = (s.apply m : ℤ) * 2 ^ e := by
  rw [ofParts]
  split
  · next h => cases s <;> simp [h, Sign.apply]
  · rfl

theorem isFinite_ofParts (s : Sign) (m : ℕ) (e : ℤ) : (ofParts s m e).isFinite = true := by
  rw [ofParts]
  split <;> rfl

theorem wellFormed_ofParts {s : Sign} {m : ℕ} {e : ℤ} (h : m ≠ 0 → Canonical m e ∧ e ≤ 971) :
    WellFormed (ofParts s m e) := by
  rw [ofParts]
  split
  · trivial
  · next hm => exact h hm

theorem log2_lt_of_lt {M n : ℕ} (h : M < 2 ^ (n + 1)) : M.log2 < n + 1 := by
  rcases Nat.eq_zero_or_pos M with rfl | hM
  · exact Nat.zero_lt_succ n
  · exact (Nat.log2_lt (Nat.pos_iff_ne_zero.1 hM)).2 h

section RoundWithAccuracy

variable {s : Sign} {M : ℕ} {E : ℤ}

/-- What a shift to the target keeps has 53 bits, and all of them above
the least exponent. -/
theorem shifted_bounds (hM : 0 < M) (hE : E ≤ target M E) :
    shifted M (target M E - E).toNat ≤ 2 ^ 53 ∧
      (-1074 < target M E → 2 ^ 52 ≤ shifted M (target M E - E).toNat) := by
  have hlog : 2 ^ M.log2 ≤ M := Nat.log2_self_le (Nat.pos_iff_ne_zero.1 hM)
  have hlog' : M < 2 ^ (M.log2 + 1) := Nat.lt_log2_self
  obtain ⟨-, -, hlow, hhigh⟩ := shifted_spec M (target M E - E).toNat
  constructor
  · have hfits : M < 2 ^ 53 * 2 ^ (target M E - E).toNat := by
      refine lt_of_lt_of_le hlog' ?_
      rw [← pow_add]
      refine Nat.pow_le_pow_right two_pos ?_
      rw [target]
      omega
    have := (Nat.div_lt_iff_lt_mul (Nat.two_pow_pos _)).2 hfits
    omega
  · intro hleast
    refine le_trans ((Nat.le_div_iff_mul_le (Nat.two_pow_pos _)).2 (le_trans ?_ hlog)) hlow
    rw [← pow_add]
    refine Nat.pow_le_pow_right two_pos ?_
    rw [target] at hE hleast ⊢
    omega

/-- **What rounding gives**: the shifted mantissa at its target, carried
once more where it took one bit too many. -/
theorem roundWithAccuracy_eq (hM : 0 < M) (hE : E ≤ target M E) :
    ∃ m e, roundWithAccuracy Format.binary64 s M E .exact = ofParts s m e ∧
      (m : ℚ) * 2 ^ e = shifted M (target M E - E).toNat * 2 ^ target M E ∧
      (m ≠ 0 → Canonical m e) := by
  have hbounds := shifted_bounds hM hE
  have hleast : -1074 ≤ target M E := le_max_right _ _
  have hsum : E + ((target M E - E).toNat : ℤ) = target M E := by omega
  -- The second shift, of the rounded mantissa.
  have hround : roundWithAccuracy Format.binary64 s M E .exact =
      ofParts s
        (ExtendedMantissa.ofMantissaAndAccuracy (shifted M (target M E - E).toNat) .exact >>>
          (target (shifted M (target M E - E).toNat) (target M E) - target M E).toNat).mantissa
        (target M E + (target (shifted M (target M E - E).toNat) (target M E) -
          target M E).toNat) := by
    unfold roundWithAccuracy shiftToTargetExponent shiftToExponent
    simp only [targetExponent_eq, hsum]
    rfl
  generalize shifted M (target M E - E).toNat = R at hbounds hround ⊢
  generalize target M E = t at hbounds hleast hround ⊢
  rw [hround, shiftRight_eq]
  rcases Nat.lt_or_eq_of_le hbounds.1 with hlt | heq
  · have hzero : (target R t - t).toNat = 0 := by
      have := log2_lt_of_lt hlt
      rw [target]
      omega
    refine ⟨R, t, ?_, rfl, fun _ => ⟨hleast, hlt, hbounds.2⟩⟩
    rw [hzero]
    simp
  · have hone : (target R t - t).toNat = 1 := by
      rw [target, heq, Nat.log2_two_pow]
      omega
    refine ⟨2 ^ 52, t + 1, ?_, ?_, fun _ => ⟨by omega, by decide, fun _ => le_refl _⟩⟩
    · rw [hone, heq]
      rfl
    · rw [heq, zpow_add₀ two_ne_zero]
      push_cast
      ring

end RoundWithAccuracy

/-! ## Nearest -/

/-- **What a rounded result is** of the exact one: on any grid the exact
value fits under, at most half a step off; and no double is nearer. -/
structure Nearest (v r : ℚ) : Prop where
  error : ∀ k : ℤ, -1074 ≤ k → |v| < 2 ^ (k + 53) → |r - v| ≤ 2 ^ (k - 1)
  closest : ∀ k z : ℤ, -1074 ≤ k → |z| ≤ 2 ^ 53 → |r - v| ≤ |z * 2 ^ k - v|

namespace Nearest

variable {v r : ℚ} {k z : ℤ}

theorem refl (v : ℚ) : Nearest v v where
  error k _ _ := by
    rw [sub_self, abs_zero]
    exact (two_zpow_pos _).le
  closest _ _ _ _ := by
    rw [sub_self, abs_zero]
    exact abs_nonneg _

theorem neg (h : Nearest v r) : Nearest (-v) (-r) where
  error k hk hv := by
    rw [abs_neg] at hv
    have hsub : -r - -v = -(r - v) := by ring
    rw [hsub, abs_neg]
    exact h.error k hk hv
  closest k z hk hz := by
    have hsub : -r - -v = -(r - v) := by ring
    have hsub' : (z : ℚ) * 2 ^ k - -v = -((-z : ℤ) * 2 ^ k - v) := by
      push_cast
      ring
    rw [hsub, hsub', abs_neg, abs_neg]
    exact h.closest k (-z) hk (by rwa [abs_neg])

/-- **Rounding passes no double**: from above, -/
theorem le_of_le (h : Nearest v r) (hk : -1074 ≤ k) (hz : |z| ≤ 2 ^ 53) (hv : z * 2 ^ k ≤ v) :
    z * 2 ^ k ≤ r := by
  have hc := h.closest k z hk hz
  rw [abs_of_nonpos (sub_nonpos.2 hv)] at hc
  have := (abs_le.1 hc).1
  linarith

/-- and from below. -/
theorem ge_of_ge (h : Nearest v r) (hk : -1074 ≤ k) (hz : |z| ≤ 2 ^ 53) (hv : v ≤ z * 2 ^ k) :
    r ≤ z * 2 ^ k := by
  have hc := h.closest k z hk hz
  rw [abs_of_nonneg (sub_nonneg.2 hv)] at hc
  have := (abs_le.1 hc).2
  linarith

/-- What is on the grid stays. -/
theorem exact (h : Nearest v r) (k z : ℤ) (hk : -1074 ≤ k) (hv : |v| < 2 ^ (k + 53))
    (hz : v = z * 2 ^ k) : r = v := by
  have hz53 : |z| ≤ 2 ^ 53 := by
    have hlt : |(z : ℚ)| * 2 ^ k < 2 ^ 53 * 2 ^ k := by
      rw [hz, abs_mul, abs_of_pos (two_zpow_pos k)] at hv
      exact lt_of_lt_of_eq hv (two_zpow_add_nat k 53)
    have hlt' : |(z : ℚ)| < 2 ^ 53 := lt_of_mul_lt_mul_right hlt (two_zpow_pos k).le
    exact_mod_cast hlt'.le
  exact le_antisymm (hz ▸ h.ge_of_ge hk hz53 hz.le) (hz ▸ h.le_of_le hk hz53 hz.ge)

theorem nonneg (h : Nearest v r) (hv : 0 ≤ v) : 0 ≤ r := by
  have := h.le_of_le (k := 0) (z := 0) (by decide) (by decide) (by simpa using hv)
  simpa using this

theorem nonpos (h : Nearest v r) (hv : v ≤ 0) : r ≤ 0 := by
  have := h.ge_of_ge (k := 0) (z := 0) (by decide) (by decide) (by simpa using hv)
  simpa using this

end Nearest

section RoundNearest

variable {M : ℕ} {E k : ℤ}

/-- The target is the finest grid the value fits under. -/
theorem target_le (hM : 0 < M) (hk : -1074 ≤ k) (hv : (M : ℚ) * 2 ^ E < 2 ^ (k + 53)) :
    target M E ≤ k := by
  have hlog : (2 : ℚ) ^ M.log2 ≤ M := by
    exact_mod_cast Nat.log2_self_le (Nat.pos_iff_ne_zero.1 hM)
  have hlow : (2 : ℚ) ^ (E + M.log2) < 2 ^ (k + 53) :=
    calc (2 : ℚ) ^ (E + M.log2) = 2 ^ M.log2 * 2 ^ E := two_zpow_add_nat E _
      _ ≤ M * 2 ^ E := mul_le_mul_of_nonneg_right hlog (two_zpow_pos E).le
      _ < 2 ^ (k + 53) := hv
  have hexp : E + M.log2 < k + 53 := (zpow_lt_zpow_iff_right₀ one_lt_two).1 hlow
  rw [target]
  omega

/-- The target of a value above the least exponent is its last place. -/
theorem two_zpow_target_le (hM : 0 < M) (ht : -1074 < target M E) :
    (2 : ℚ) ^ (target M E + 52) ≤ M * 2 ^ E := by
  have hlog : (2 : ℚ) ^ M.log2 ≤ M := by
    exact_mod_cast Nat.log2_self_le (Nat.pos_iff_ne_zero.1 hM)
  calc (2 : ℚ) ^ (target M E + 52) = 2 ^ (E + M.log2) := by
        congr 1
        rw [target] at ht ⊢
        omega
    _ = 2 ^ M.log2 * 2 ^ E := two_zpow_add_nat E _
    _ ≤ M * 2 ^ E := mul_le_mul_of_nonneg_right hlog (two_zpow_pos E).le

/-- **Half a step off is the nearest** on a grid. -/
theorem abs_sub_le_of_grid {S w t : ℤ} {v : ℚ} (h : |(S : ℚ) * 2 ^ t - v| ≤ 2 ^ (t - 1)) :
    |(S : ℚ) * 2 ^ t - v| ≤ |w * 2 ^ t - v| := by
  rcases eq_or_ne w S with rfl | hne
  · exact le_rfl
  · have hone : (1 : ℚ) ≤ |((w - S : ℤ) : ℚ)| := by
      exact_mod_cast Int.one_le_abs (sub_ne_zero.2 hne)
    have hstep : (2 : ℚ) ^ t ≤ |(w : ℚ) * 2 ^ t - S * 2 ^ t| := by
      have hscale : (w : ℚ) * 2 ^ t - S * 2 ^ t = ((w - S : ℤ) : ℚ) * 2 ^ t := by
        push_cast
        ring
      rw [hscale, abs_mul, abs_of_pos (two_zpow_pos t)]
      exact le_mul_of_one_le_left (two_zpow_pos t).le hone
    have htri := abs_sub_le ((w : ℚ) * 2 ^ t) v (S * 2 ^ t)
    rw [abs_sub_comm v] at htri
    have hhalf : (2 : ℚ) ^ t = 2 * 2 ^ (t - 1) := by
      rw [← zpow_one_add₀ two_ne_zero]
      congr 1
      omega
    linarith

/-- And off it too, where the grid is the value's last place. -/
theorem abs_sub_le_of_double {S z k t : ℤ} {v : ℚ} (h : |(S : ℚ) * 2 ^ t - v| ≤ 2 ^ (t - 1))
    (hbinade : -1074 < t → (2 : ℚ) ^ (t + 52) ≤ v) (hk : -1074 ≤ k) (hz : |z| ≤ 2 ^ 53) :
    |(S : ℚ) * 2 ^ t - v| ≤ |z * 2 ^ k - v| := by
  rcases le_or_gt t k with hle | hlt
  · have hz' : (z : ℚ) * 2 ^ k = (z * 2 ^ (k - t).toNat : ℤ) * 2 ^ t := by
      have hk' : (2 : ℚ) ^ k = 2 ^ (k - t).toNat * 2 ^ t := by
        rw [← two_zpow_add_nat]
        congr 1
        omega
      rw [hk']
      push_cast
      ring
    rw [hz']
    exact abs_sub_le_of_grid h
  · -- a finer grid, of which all is below the value's binade
    have hbelow : (z : ℚ) * 2 ^ k ≤ 2 ^ (t + 52) := by
      have hz' : (z : ℚ) ≤ 2 ^ 53 := by exact_mod_cast (abs_le.1 hz).2
      calc (z : ℚ) * 2 ^ k ≤ 2 ^ 53 * 2 ^ k := mul_le_mul_of_nonneg_right hz' (two_zpow_pos k).le
        _ = 2 ^ (k + 53) := (two_zpow_add_nat k 53).symm
        _ ≤ 2 ^ (t + 52) := two_zpow_le (by omega)
    have hv := hbinade (by omega)
    have hpower : (2 : ℚ) ^ (t + 52) = ((2 ^ 52 : ℕ) : ℤ) * 2 ^ t := by
      exact_mod_cast two_zpow_add_nat t 52
    have hgrid := abs_sub_le_of_grid (w := ((2 ^ 52 : ℕ) : ℤ)) h
    rw [← hpower, abs_of_nonpos (sub_nonpos.2 hv)] at hgrid
    rw [abs_of_nonpos (sub_nonpos.2 (hbelow.trans hv))]
    linarith

/-- **Rounding a mantissa** at its target. -/
theorem shifted_nearest (hM : 0 < M) (hE : E ≤ target M E) :
    Nearest ((M : ℚ) * 2 ^ E) (shifted M (target M E - E).toNat * 2 ^ target M E) := by
  obtain ⟨hup, hdown, -, -⟩ := shifted_spec M (target M E - E).toNat
  have hscale : (2 : ℚ) ^ target M E = 2 ^ (target M E - E).toNat * 2 ^ E := by
    rw [← two_zpow_add_nat]
    congr 1
    omega
  have hpos := two_zpow_pos E
  have hup' : 2 * ((shifted M (target M E - E).toNat : ℚ) * 2 ^ (target M E - E).toNat) ≤
      2 * M + 2 ^ (target M E - E).toNat := by
    exact_mod_cast hup
  have hdown' : 2 * (M : ℚ) ≤ 2 * ((shifted M (target M E - E).toNat : ℚ) *
      2 ^ (target M E - E).toNat) + 2 ^ (target M E - E).toNat := by
    exact_mod_cast hdown
  have herror : |(shifted M (target M E - E).toNat : ℚ) * 2 ^ target M E - M * 2 ^ E| ≤
      2 ^ (target M E - 1) := by
    have htwo : (2 : ℚ) ^ target M E = 2 * 2 ^ (target M E - 1) := by
      rw [← zpow_one_add₀ two_ne_zero]
      congr 1
      omega
    refine abs_le.2 ⟨?_, ?_⟩ <;> nlinarith
  refine ⟨fun k hk hv => ?_, fun k z hk hz => ?_⟩
  · rw [abs_of_pos (value_pos hM)] at hv
    have := target_le hM hk hv
    exact herror.trans (two_zpow_le (by omega))
  · exact abs_sub_le_of_double (S := shifted M (target M E - E).toNat) herror
      (fun ht => two_zpow_target_le hM ht) hk hz

end RoundNearest

/-- A double that is `v`, rounded. -/
def Rounds (v : ℚ) (u : UnpackedFloat) : Prop :=
  ∃ s m e, u = ofParts s m e ∧ (m ≠ 0 → Canonical m e) ∧ Nearest v ((s.apply m : ℤ) * 2 ^ e)

section Rounds

variable {s : Sign} {M : ℕ} {E : ℤ}

theorem roundWithAccuracy_rounds (hM : 0 < M) (hE : E ≤ target M E) :
    Rounds ((s.apply M : ℤ) * 2 ^ E) (roundWithAccuracy Format.binary64 s M E .exact) := by
  obtain ⟨m, e, heq, hvalue, hcanonical⟩ := roundWithAccuracy_eq (s := s) hM hE
  have hnearest := shifted_nearest hM hE
  rw [← hvalue] at hnearest
  refine ⟨s, m, e, heq, hcanonical, ?_⟩
  cases s with
  | positive => exact_mod_cast hnearest
  | negative =>
    have hneg := hnearest.neg
    simp only [Sign.apply]
    push_cast
    rw [neg_mul, neg_mul]
    exact hneg

theorem log2_mul_two_pow (hM : 0 < M) (d : ℕ) : (M * 2 ^ d).log2 = M.log2 + d := by
  rw [Nat.log2_eq_iff (Nat.mul_pos hM (Nat.two_pow_pos d)).ne']
  have hlow : 2 ^ M.log2 ≤ M := Nat.log2_self_le hM.ne'
  have hhigh : M < 2 ^ (M.log2 + 1) := Nat.lt_log2_self
  constructor
  · rw [pow_add]
    exact Nat.mul_le_mul_right _ hlow
  · rw [show M.log2 + d + 1 = M.log2 + 1 + d by omega, pow_add]
    exact Nat.mul_lt_mul_of_pos_right hhigh (Nat.two_pow_pos d)

theorem round_rounds (hM : 0 < M) :
    Rounds ((s.apply M : ℤ) * 2 ^ E) (UnpackedFloat.round Format.binary64 s M E) := by
  obtain ⟨d, hd⟩ : ∃ d, d = (E - target M E).toNat := ⟨_, rfl⟩
  have htarget : target (M * 2 ^ d) (E - d) = target M E := by
    rw [target, target, log2_mul_two_pow hM]
    push_cast
    congr 1
    omega
  have hround : UnpackedFloat.round Format.binary64 s M E =
      roundWithAccuracy Format.binary64 s (M * 2 ^ d) (E - d) .exact := by
    rw [hd, ← Nat.shiftLeft_eq]
    rfl
  have hvalue : ((s.apply (M * 2 ^ d : ℕ) : ℤ) : ℚ) * 2 ^ (E - d) = (s.apply M : ℤ) * 2 ^ E := by
    have hscale : (2 : ℚ) ^ E = 2 ^ d * 2 ^ (E - d) := by
      rw [← two_zpow_add_nat]
      congr 1
      omega
    rw [hscale]
    cases s <;> simp only [Sign.apply] <;> push_cast <;> ring
  rw [hround, ← hvalue]
  exact roundWithAccuracy_rounds (Nat.mul_pos hM (Nat.two_pow_pos d)) (by omega)

/-- **A signed mantissa**, normalized. -/
theorem normalize_rounds (n e : ℤ) (zeroSign : Sign) :
    Rounds (n * 2 ^ e) (UnpackedFloat.normalize Format.binary64 n e zeroSign) := by
  rcases lt_trichotomy n 0 with h | rfl | h
  · have hn : ((Sign.negative.apply (-n).toNat : ℤ) : ℚ) = n := by
      rw [Sign.apply, Int.toNat_of_nonneg (by omega), neg_neg]
    rw [UnpackedFloat.normalize, compare_lt_iff_lt.2 h, ← hn]
    exact round_rounds (by omega)
  · refine ⟨zeroSign, 0, 0, ?_, fun h => absurd rfl h, ?_⟩
    · rw [UnpackedFloat.normalize, compare_eq_iff_eq.2 rfl]
      rfl
    · have hzero : ((zeroSign.apply (0 : ℕ) : ℤ) : ℚ) = 0 := by cases zeroSign <;> rfl
      rw [hzero, Int.cast_zero, zero_mul, zero_mul]
      exact Nearest.refl 0
  · have hn : ((Sign.positive.apply n.toNat : ℤ) : ℚ) = n := by
      rw [Sign.apply, Int.toNat_of_nonneg h.le]
    rw [UnpackedFloat.normalize, compare_gt_iff_gt.2 h, ← hn]
    exact round_rounds (by omega)

/-- A finite double is itself, rounded. -/
theorem rounds_self {a : UnpackedFloat} (ha : WellFormed a) (hfa : a.isFinite = true) :
    Rounds (value a) a := by
  cases a with
  | notANumber => cases hfa
  | infinity s => cases hfa
  | zero s =>
    refine ⟨s, 0, 0, rfl, fun h => absurd rfl h, ?_⟩
    rw [← value_ofParts]
    exact Nearest.refl 0
  | finite s m e hm =>
    refine ⟨s, m, e, ?_, fun _ => ha.1, Nearest.refl _⟩
    rw [ofParts, dif_neg hm.ne']

theorem rounds_zero : Rounds 0 (.zero s) := rounds_self trivial rfl

theorem neg_apply (s : Sign) (n : ℤ) : (-s).apply n = -s.apply n := by
  cases s with
  | positive => rfl
  | negative => exact (neg_neg n).symm

theorem mul_apply (s t : Sign) (m n : ℕ) :
    (s * t).apply (m * n : ℕ) = s.apply m * t.apply n := by
  cases s <;> cases t <;> simp only [Sign.apply] <;> push_cast
  · exact (neg_mul_neg _ _).symm
  · exact (neg_mul _ _).symm
  · exact (mul_neg _ _).symm
  · rfl

/-- The product of two canonical mantissas reaches its target by dropping
bits. -/
theorem add_le_target {n : ℕ} {e f : ℤ} (h : Canonical M e) (h' : Canonical n f) (hM : 0 < M)
    (hn : 0 < n) : e + f ≤ target (M * n) (e + f) := by
  have hlog : ∀ {j : ℕ}, 2 ^ j ≤ M * n → j ≤ (M * n).log2 := fun hj =>
    (Nat.le_log2 (Nat.mul_pos hM hn).ne').2 hj
  rcases eq_or_lt_of_le h.least with he | he
  · rcases eq_or_lt_of_le h'.least with hf | hf
    · rw [target]
      omega
    · have := hlog (le_trans (h'.normal hf) (Nat.le_mul_of_pos_left n hM))
      rw [target]
      omega
  · have := hlog (le_trans (h.normal he) (Nat.le_mul_of_pos_right M hn))
    rw [target]
    omega

/-- **A product**, rounded. -/
theorem mul_rounds {a b : UnpackedFloat} (ha : WellFormed a) (hb : WellFormed b)
    (hfa : a.isFinite = true) (hfb : b.isFinite = true) :
    Rounds (value a * value b) (UnpackedFloat.mul Format.binary64 a b) := by
  cases a with
  | notANumber => cases hfa
  | infinity s => cases hfa
  | zero s =>
    rw [value_zero, zero_mul]
    cases b with
    | notANumber => cases hfb
    | infinity t => cases hfb
    | zero t => exact rounds_zero
    | finite t n f hn => exact rounds_zero
  | finite s m e hm =>
    cases b with
    | notANumber => cases hfb
    | infinity t => cases hfb
    | zero t =>
      rw [value_zero, mul_zero]
      exact rounds_zero
    | finite t n f hn =>
      have hvalue : value (.finite s m e hm) * value (.finite t n f hn) =
          ((s * t).apply (m * n : ℕ) : ℤ) * 2 ^ (e + f) := by
        rw [mul_apply, zpow_add₀ two_ne_zero, value, value]
        push_cast
        ring
      rw [hvalue]
      exact roundWithAccuracy_rounds (Nat.mul_pos hm hn) (add_le_target ha.1 hb.1 hm hn)

/-- Two exponents brought to the smaller one. -/
theorem decreaseExponent_value (t : Sign) (m : ℕ) {e f : ℤ} (h : f ≤ e) :
    ((t.apply (decreaseExponent m e f).1 : ℤ) : ℚ) * 2 ^ f = (t.apply m : ℤ) * 2 ^ e := by
  have hscale : (2 : ℚ) ^ e = 2 ^ (e - f).toNat * 2 ^ f := by
    rw [← two_zpow_add_nat]
    congr 1
    omega
  rw [decreaseExponent, Nat.shiftLeft_eq, hscale]
  cases t <;> simp only [Sign.apply] <;> push_cast <;> ring

/-- **A sum**, rounded. -/
theorem add_rounds {a b : UnpackedFloat} (ha : WellFormed a) (hb : WellFormed b)
    (hfa : a.isFinite = true) (hfb : b.isFinite = true) :
    Rounds (value a + value b) (UnpackedFloat.add Format.binary64 a b) := by
  cases a with
  | notANumber => cases hfa
  | infinity s => cases hfa
  | zero s =>
    rw [value_zero, zero_add]
    cases b with
    | notANumber => cases hfb
    | infinity t => cases hfb
    | zero t =>
      rw [value_zero, UnpackedFloat.add]
      split <;> exact rounds_zero
    | finite t n f hn => exact rounds_self hb rfl
  | finite s m e hm =>
    cases b with
    | notANumber => cases hfb
    | infinity t => cases hfb
    | zero t =>
      rw [value_zero, add_zero]
      exact rounds_self ha rfl
    | finite t n f hn =>
      have hvalue : value (.finite s m e hm) + value (.finite t n f hn) =
          ((s.apply (decreaseExponent m e (min e f)).1 +
            t.apply (decreaseExponent n f (min e f)).1 : ℤ) : ℚ) * 2 ^ min e f := by
        push_cast
        rw [add_mul, decreaseExponent_value s m (min_le_left e f),
          decreaseExponent_value t n (min_le_right e f)]
        rfl
      rw [hvalue]
      exact normalize_rounds _ _ _

/-- **A difference**, rounded. -/
theorem sub_rounds {a b : UnpackedFloat} (ha : WellFormed a) (hb : WellFormed b)
    (hfa : a.isFinite = true) (hfb : b.isFinite = true) :
    Rounds (value a - value b) (UnpackedFloat.sub Format.binary64 a b) := by
  cases a with
  | notANumber => cases hfa
  | infinity s => cases hfa
  | zero s =>
    rw [value_zero, zero_sub]
    cases b with
    | notANumber => cases hfb
    | infinity t => cases hfb
    | zero t =>
      rw [value_zero, neg_zero, UnpackedFloat.sub]
      split <;> exact rounds_zero
    | finite t n f hn =>
      have hvalue : -value (.finite t n f hn) = value (.finite (-t) n f hn) := by
        rw [value, value, neg_apply]
        push_cast
        ring
      rw [hvalue]
      exact rounds_self hb rfl
  | finite s m e hm =>
    cases b with
    | notANumber => cases hfb
    | infinity t => cases hfb
    | zero t =>
      rw [value_zero, sub_zero]
      exact rounds_self ha rfl
    | finite t n f hn =>
      -- at the smaller of the exponents both are integers, and so is the difference
      have hvalue : value (.finite s m e hm) - value (.finite t n f hn) =
          ((s.apply (decreaseExponent m e (min e f)).1 -
            t.apply (decreaseExponent n f (min e f)).1 : ℤ) : ℚ) * 2 ^ min e f := by
        push_cast
        rw [sub_mul, decreaseExponent_value s m (min_le_left e f),
          decreaseExponent_value t n (min_le_right e f)]
        rfl
      rw [hvalue]
      exact normalize_rounds _ _ _

end Rounds

end Binary64

end WaylandWebStream
