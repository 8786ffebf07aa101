import WaylandWebStream.Lib.Rounding

/-!
# Doubles — what a program's arithmetic computes

A finite double is a rational, and on finite doubles the comparisons are
the rationals' own; a product or a difference is the exact one rounded.
With these, proofs about a program's coordinates are about rationals and
never about bits. Two facts on the edges follow: a factor below one
scales below what it scales, and what is below an integer stays below it
when both are shifted.
-/

namespace WaylandWebStream

namespace Binary64

open Float.Model Float.Model.UnpackedFloat

/-! ## Packing -/

theorem bias_eq : ((Format.binary64.exponentBias : ℕ) : ℤ) = 1023 := rfl

theorem toNat_implicit (v : BitVec 52) : (1#1 ++ v).toNat = 2 ^ 52 + v.toNat := by
  rw [BitVec.toNat_append, ← Nat.shiftLeft_add_eq_or_of_lt v.isLt]
  rfl

/-- **A double unpacks** to a canonical form. -/
theorem wellFormed_unpack (b : BitVec Format.binary64.numBits) :
    WellFormed (UnpackedFloat.unpack Format.binary64 b) := by
  have hexp : (unpackExponent b).toNat < 2 ^ 11 := (unpackExponent b).isLt
  have hman : (unpackMantissa b).toNat < 2 ^ 52 := (unpackMantissa b).isLt
  have hbias := bias_eq
  rw [UnpackedFloat.unpack]
  split
  · split <;> trivial
  · next hinf =>
    have hinf : (unpackExponent b).toNat ≠ 2 ^ 11 - 1 := fun h => hinf (BitVec.toNat_inj.1 h)
    split
    · next hzero =>
      have hzero : (unpackExponent b).toNat = 0 := congrArg BitVec.toNat hzero
      split
      · trivial
      · rw [WellFormed]
        refine ⟨⟨?_, by omega, ?_⟩, ?_⟩ <;> push_cast <;> omega
    · next hzero =>
      have hzero : (unpackExponent b).toNat ≠ 0 := fun h => hzero (BitVec.toNat_inj.1 h)
      rw [WellFormed, toNat_implicit]
      refine ⟨⟨?_, by omega, ?_⟩, ?_⟩ <;> push_cast <;> omega

/-- A normal form: the exponent is stored biased, the mantissa without its
highest bit. -/
theorem unpack_pack_normal {s : Sign} {m : ℕ} {e : ℤ} (hm : 0 < m) (hlow : 2 ^ 52 ≤ m)
    (hbits : m < 2 ^ 53) (hleast : -1074 ≤ e) (hmost : e ≤ 971) :
    UnpackedFloat.unpack Format.binary64 (UnpackedFloat.pack Format.binary64 (.finite s m e hm)) =
      .finite s m e hm := by
  have hbias := bias_eq
  have hlog : m.log2 = 52 := (Nat.log2_eq_iff hm.ne').2 ⟨hlow, hbits⟩
  have hexp : (e + Format.binary64.exponentBias +
      Format.binary64.mantissaBitsWithoutImplicit).toNat = (e + 1075).toNat := by
    push_cast
    omega
  have hinf : BitVec.ofNat 11 (e + 1075).toNat ≠ -1#11 := by
    intro heq
    have := congrArg BitVec.toNat heq
    simp at this
    omega
  have hzero : BitVec.ofNat 11 (e + 1075).toNat ≠ 0#11 := by
    intro heq
    have := congrArg BitVec.toNat heq
    simp at this
    omega
  rw [UnpackedFloat.pack]
  simp only [hlog, hexp]
  rw [if_neg (by omega), if_pos (show 52 + 1 = Format.binary64.mantissaBits from rfl),
    UnpackedFloat.unpack]
  simp only [unpackExponent_packComponents, unpackMantissa_packComponents,
    unpackSign_packComponents, Sign.ofBitVec_toBitVec]
  rw [if_neg hinf, if_neg hzero]
  congr 1
  · rw [toNat_implicit, BitVec.toNat_ofNat]
    omega
  · rw [BitVec.toNat_ofNat]
    push_cast
    omega

/-- Below the highest bit the exponent is the least, stored as zero. -/
theorem unpack_pack_subnormal {s : Sign} {m : ℕ} (hm : 0 < m) (hlow : m < 2 ^ 52) :
    UnpackedFloat.unpack Format.binary64
      (UnpackedFloat.pack Format.binary64 (.finite s m (-1074) hm)) = .finite s m (-1074) hm := by
  have hbias := bias_eq
  have hlog : m.log2 + 1 ≠ Format.binary64.mantissaBits := by
    change m.log2 + 1 ≠ 53
    have := (Nat.log2_lt hm.ne').2 hlow
    omega
  have hexp : ((-1074 : ℤ) + Format.binary64.exponentBias +
      Format.binary64.mantissaBitsWithoutImplicit).toNat = 1 := by
    push_cast
    omega
  have hman : (BitVec.ofNat 52 m).toNat = m := by
    rw [BitVec.toNat_ofNat]
    omega
  have hne : BitVec.ofNat 52 m ≠ 0#52 := by
    intro heq
    have := congrArg BitVec.toNat heq
    rw [hman] at this
    exact hm.ne' this
  rw [UnpackedFloat.pack]
  simp only [hexp]
  rw [if_neg (by decide), if_neg hlog, UnpackedFloat.unpack]
  simp only [unpackExponent_packComponents, unpackMantissa_packComponents,
    unpackSign_packComponents, Sign.ofBitVec_toBitVec]
  rw [if_neg (by decide), if_pos trivial, dif_neg hne]
  congr 1

/-- Too high an exponent is stored as an infinity. -/
theorem unpack_pack_overflow {s : Sign} {m : ℕ} {e : ℤ} {hm : 0 < m} (he : 971 < e) :
    UnpackedFloat.unpack Format.binary64
      (UnpackedFloat.pack Format.binary64 (.finite s m e hm)) = .infinity s := by
  have hbias := bias_eq
  have hexp : 2 ^ 11 ≤ (e + Format.binary64.exponentBias +
      Format.binary64.mantissaBitsWithoutImplicit).toNat + 1 := by
    push_cast
    omega
  rw [UnpackedFloat.pack]
  dsimp only
  rw [if_pos hexp, packedInfinity, UnpackedFloat.unpack]
  simp only [unpackExponent_packComponents, unpackMantissa_packComponents,
    unpackSign_packComponents, Sign.ofBitVec_toBitVec]
  rw [if_pos trivial]
  exact if_pos rfl

/-- **Packing loses nothing** of a canonical form. -/
theorem unpack_pack {u : UnpackedFloat} (h : WellFormed u) (hf : u.isFinite = true) :
    UnpackedFloat.unpack Format.binary64 (UnpackedFloat.pack Format.binary64 u) = u := by
  cases u with
  | notANumber => cases hf
  | infinity s => cases hf
  | zero s => cases s <;> rfl
  | finite s m e hm =>
    by_cases hnormal : 2 ^ 52 ≤ m
    · exact unpack_pack_normal hm hnormal h.1.bits h.1.least h.2
    · obtain rfl : e = -1074 := by
        by_contra hne
        have hleast := h.1.least
        exact hnormal (h.1.normal (by omega))
      exact unpack_pack_subnormal hm (not_le.1 hnormal)

/-! ## `Float` -/

/-- The rational a finite double stands for. -/
def toRat (x : Float) : ℚ := value x.toModel.unpack

section Float

variable {a b x : Float} {v : ℚ} {u : UnpackedFloat}

theorem wellFormed (x : Float) : WellFormed x.toModel.unpack := wellFormed_unpack _

theorem compare_toRat (ha : a.isFinite = true) (hb : b.isFinite = true) :
    a.toModel.unpack.compare b.toModel.unpack = some (compare (toRat a) (toRat b)) :=
  compare_eq (wellFormed a) (wellFormed b) ha hb

theorem lt_def : a < b ↔ a.toModel.unpack.compare b.toModel.unpack = some .lt := by
  change decide (a.toModel < b.toModel) = true ↔ _
  rw [decide_eq_true_iff, ← beq_iff_eq]
  rfl

theorem le_def : a ≤ b ↔ (a.toModel.unpack.compare b.toModel.unpack).any (·.isLE) = true := by
  change decide (a.toModel ≤ b.toModel) = true ↔ _
  rw [decide_eq_true_iff]
  rfl

theorem le_of_lt (h : a < b) : a ≤ b := by
  rw [lt_def] at h
  rw [le_def, h]
  rfl

/-- **`<` is the rationals'.** -/
theorem lt_iff (ha : a.isFinite = true) (hb : b.isFinite = true) : a < b ↔ toRat a < toRat b := by
  rw [lt_def, compare_toRat ha hb, Option.some_inj, compare_lt_iff_lt]

/-- **`≤` is the rationals'.** -/
theorem le_iff (ha : a.isFinite = true) (hb : b.isFinite = true) : a ≤ b ↔ toRat a ≤ toRat b := by
  rw [le_def, compare_toRat ha hb, Option.any_some, ← compare_le_iff_le]
  cases compare (toRat a) (toRat b) <;> decide

/-- Between two finite doubles there are only finite ones. -/
theorem isFinite_of_le_of_le (ha : a.isFinite = true) (hb : b.isFinite = true) (hax : a ≤ x)
    (hxb : x ≤ b) : x.isFinite = true := by
  rw [le_def] at hax hxb
  change a.toModel.unpack.isFinite = true at ha
  change b.toModel.unpack.isFinite = true at hb
  change x.toModel.unpack.isFinite = true
  generalize a.toModel.unpack = a at ha hax
  generalize b.toModel.unpack = b at hb hxb
  generalize x.toModel.unpack = x at hax hxb
  cases x with
  | zero s => rfl
  | finite s m e hm => rfl
  | notANumber => cases b <;> cases hxb
  | infinity s =>
    cases s with
    | positive =>
      cases b with
      | notANumber => cases hb
      | infinity t => cases hb
      | zero t => cases hxb
      | finite t n f hn => cases hxb
    | negative =>
      cases a with
      | notANumber => cases ha
      | infinity t => cases ha
      | zero t => cases hax
      | finite t n f hn => cases hax

theorem isNaN_of_isFinite (hx : x.isFinite = true) : x.isNaN = false := by
  change x.toModel.unpack.isFinite = true at hx
  change x.toModel.unpack.isNaN = false
  generalize x.toModel.unpack = u at hx
  cases u with
  | notANumber => cases hx
  | infinity s => rfl
  | zero s => rfl
  | finite s m e hm => rfl

/-- A double is finite, infinite or no number. -/
theorem isFinite_or_infinity (hx : x.isNaN = false) :
    x.isFinite = true ∨ ∃ s, x.toModel.unpack = .infinity s := by
  change x.toModel.unpack.isNaN = false at hx
  change x.toModel.unpack.isFinite = true ∨ _
  generalize x.toModel.unpack = u at hx
  cases u with
  | notANumber => cases hx
  | infinity s => exact .inr ⟨s, rfl⟩
  | zero s => exact .inl rfl
  | finite s m e hm => exact .inl rfl

/-- Half a step above the largest double: from here on a value rounds to an
infinity. -/
def overflowAt : ℚ := (2 ^ 53 - 1 / 2) * 2 ^ (971 : ℤ)

theorem two_zpow_le_overflowAt : (2 : ℚ) ^ (1023 : ℤ) ≤ overflowAt := by
  have hpow : (2 : ℚ) ^ (1023 : ℤ) = 2 ^ 52 * 2 ^ (971 : ℤ) := two_zpow_add_nat 971 52
  rw [hpow, overflowAt]
  exact mul_le_mul_of_nonneg_right (by norm_num) (two_zpow_pos _).le

/-- The largest double would be nearer to anything below. -/
theorem Nearest.overflowAt_le {r : ℚ} (h : Nearest v r) (hr : (2 : ℚ) ^ (1024 : ℤ) ≤ r) :
    overflowAt ≤ v := by
  have hpow : (2 : ℚ) ^ (1024 : ℤ) = 2 ^ 53 * 2 ^ (971 : ℤ) := two_zpow_add_nat 971 53
  have hstep := two_zpow_pos 971
  have hcloser := h.closest 971 (2 ^ 53 - 1) (by decide) (by decide)
  have hle := (le_abs_self _).trans hcloser
  rw [hpow] at hr
  rw [overflowAt]
  generalize (2 : ℚ) ^ (971 : ℤ) = step at hr hstep hle ⊢
  have hcast : (((2 ^ 53 - 1 : ℤ) : ℚ)) = 2 ^ 53 - 1 := by norm_num
  rw [hcast] at hle
  rcases abs_cases ((2 ^ 53 - 1) * step - v) with ⟨habs, -⟩ | ⟨habs, -⟩
  · rw [habs] at hle
    linarith
  · rw [habs] at hle
    linarith

/-- A finite result is packed as it is, and one with too high an exponent as
an infinity. -/
theorem rounds_pack_cases (h : Rounds v u) :
    ((Float.ofModel (Float.Model.pack u)).isFinite = true ∧
        Nearest v (toRat (Float.ofModel (Float.Model.pack u)))) ∨
      overflowAt ≤ |v| ∧
        ∃ s, (Float.ofModel (Float.Model.pack u)).toModel.unpack = .infinity s ∧
          (0 ≤ v → s = .positive) := by
  obtain ⟨s, m, e, rfl, hcanonical, hnearest⟩ := h
  by_cases hfits : m ≠ 0 → e ≤ 971
  · left
    have hwf : WellFormed (ofParts s m e) :=
      wellFormed_ofParts fun hm => ⟨hcanonical hm, hfits hm⟩
    have hunpack : (Float.Model.pack (ofParts s m e)).unpack = ofParts s m e :=
      unpack_pack hwf (isFinite_ofParts s m e)
    rw [← value_ofParts, ← hunpack] at hnearest
    refine ⟨?_, hnearest⟩
    change (Float.Model.pack (ofParts s m e)).unpack.isFinite = true
    rw [hunpack]
    exact isFinite_ofParts s m e
  · right
    rw [Classical.not_imp, not_le] at hfits
    obtain ⟨hm, he⟩ := hfits
    have hpos := value_pos (e := e) (Nat.pos_of_ne_zero hm)
    have hlow : (2 : ℚ) ^ (1024 : ℤ) ≤ m * 2 ^ e :=
      (two_zpow_le (by omega)).trans ((hcanonical hm).le_value (by omega))
    refine ⟨?_, s, ?_, fun hv => ?_⟩
    · cases s with
      | positive =>
        simp only [Sign.apply, Int.cast_natCast] at hnearest
        exact (hnearest.overflowAt_le hlow).trans (le_abs_self v)
      | negative =>
        have hneg : -(((Sign.negative.apply m : ℤ) : ℚ) * 2 ^ e) = m * 2 ^ e := by
          simp only [Sign.apply]
          push_cast
          rw [neg_mul, neg_neg]
        have hnearest' := hnearest.neg
        rw [hneg] at hnearest'
        exact (hnearest'.overflowAt_le hlow).trans (neg_le_abs v)
    · rw [ofParts, dif_neg hm]
      exact @unpack_pack_overflow _ m e (Nat.pos_of_ne_zero hm) he
    · cases s with
      | positive => rfl
      | negative =>
        have hneg : ((Sign.negative.apply m : ℤ) : ℚ) * 2 ^ e = -(m * 2 ^ e) := by
          simp only [Sign.apply]
          push_cast
          exact neg_mul _ _
        have := hnearest.nonneg hv
        rw [hneg] at this
        linarith only [this, hpos]

/-- A result within range is finite. -/
theorem rounds_pack_of_lt (h : Rounds v u) (hv : |v| < overflowAt) :
    (Float.ofModel (Float.Model.pack u)).isFinite = true ∧
      Nearest v (toRat (Float.ofModel (Float.Model.pack u))) := by
  rcases rounds_pack_cases h with hfinite | ⟨hbig, -⟩
  · exact hfinite
  · exact absurd hv (not_lt.2 hbig)

theorem rounds_pack (h : Rounds v u) (hv : |v| < 2 ^ (1023 : ℤ)) :
    (Float.ofModel (Float.Model.pack u)).isFinite = true ∧
      Nearest v (toRat (Float.ofModel (Float.Model.pack u))) :=
  rounds_pack_of_lt h (hv.trans_le two_zpow_le_overflowAt)

/-- A product of finite doubles, rounded or out of range. -/
theorem mul_cases (ha : a.isFinite = true) (hb : b.isFinite = true) :
    ((a * b).isFinite = true ∧ Nearest (toRat a * toRat b) (toRat (a * b))) ∨
      overflowAt ≤ |toRat a * toRat b| ∧
        ∃ s, (a * b).toModel.unpack = .infinity s ∧ (0 ≤ toRat a * toRat b → s = .positive) :=
  rounds_pack_cases (mul_rounds (wellFormed a) (wellFormed b) ha hb)

/-- **`*` rounds the product.** -/
theorem mul_nearest (ha : a.isFinite = true) (hb : b.isFinite = true)
    (hv : |toRat a * toRat b| < 2 ^ (1023 : ℤ)) :
    (a * b).isFinite = true ∧ Nearest (toRat a * toRat b) (toRat (a * b)) :=
  rounds_pack (mul_rounds (wellFormed a) (wellFormed b) ha hb) hv

/-- **`-` rounds the difference.** -/
theorem sub_nearest (ha : a.isFinite = true) (hb : b.isFinite = true)
    (hv : |toRat a - toRat b| < 2 ^ (1023 : ℤ)) :
    (a - b).isFinite = true ∧ Nearest (toRat a - toRat b) (toRat (a - b)) :=
  rounds_pack (sub_rounds (wellFormed a) (wellFormed b) ha hb) hv

/-- **A 32-bit integer** is a double exactly. -/
theorem toRat_toFloat (n : UInt32) : n.toFloat.isFinite = true ∧ toRat n.toFloat = n.toNat := by
  have hn : n.toNat < 2 ^ 32 := n.toNat_lt
  have hsmall : |((n.toNat : ℤ) : ℚ) * 2 ^ (0 : ℤ)| < 2 ^ ((0 : ℤ) + 53) := by
    rw [zpow_zero, mul_one, abs_of_nonneg (by exact_mod_cast Nat.zero_le _)]
    have hlt : (n.toNat : ℚ) < 2 ^ 53 := by exact_mod_cast lt_trans hn (by decide)
    exact_mod_cast hlt
  obtain ⟨hfinite, hnearest⟩ := rounds_pack (normalize_rounds n.toNat 0 .positive)
    (lt_of_lt_of_le hsmall (two_zpow_le (by decide)))
  refine ⟨hfinite, ?_⟩
  have hexact := hnearest.exact 0 n.toNat (by decide) hsmall rfl
  rw [zpow_zero, mul_one] at hexact
  exact_mod_cast hexact

theorem toRat_toFloat_lt (n : UInt32) : toRat n.toFloat < 2 ^ (53 : ℤ) := by
  rw [(toRat_toFloat n).2]
  have hlt : (n.toNat : ℚ) < 2 ^ 53 := by exact_mod_cast lt_trans n.toNat_lt (by decide)
  exact_mod_cast hlt

theorem toRat_zero : toRat 0 = 0 := rfl

theorem toRat_one : toRat 1 = 1 := by
  have hone : (1 : Float).toModel.unpack = .finite .positive (2 ^ 52) (-52) (by decide) := rfl
  rw [toRat, hone, value_positive, zpow_neg]
  push_cast
  exact mul_inv_cancel₀ (by positivity)

theorem isFinite_zero : (0 : Float).isFinite = true := rfl

theorem isFinite_one : (1 : Float).isFinite = true := rfl

/-- **The grid** a finite double is on: it is below 53 bits of it, and
fills them above the least exponent. -/
theorem toRat_grid (hx : x.isFinite = true) :
    ∃ z e : ℤ, -1074 ≤ e ∧ toRat x = z * 2 ^ e ∧ |toRat x| < 2 ^ (e + 53) ∧
      (-1074 < e → (2 : ℚ) ^ (e + 52) ≤ |toRat x|) := by
  have hwf := wellFormed x
  change x.toModel.unpack.isFinite = true at hx
  rw [toRat]
  generalize x.toModel.unpack = u at hwf hx
  cases u with
  | notANumber => cases hx
  | infinity s => cases hx
  | zero s =>
    refine ⟨0, -1074, le_refl _, ?_, ?_, fun h => absurd h (lt_irrefl _)⟩
    · rw [value_zero, Int.cast_zero, zero_mul]
    · rw [value_zero, abs_zero]
      exact two_zpow_pos _
  | finite s m e hm =>
    have habs : |value (.finite s m e hm)| = m * 2 ^ e := by
      have hpos := value_pos (e := e) hm
      cases s
      · rw [value_negative, abs_neg, abs_of_pos hpos]
      · rw [value_positive, abs_of_pos hpos]
    refine ⟨s.apply m, e, hwf.1.least, rfl, ?_, fun h => ?_⟩
    · rw [habs]
      exact hwf.1.value_lt
    · rw [habs]
      exact hwf.1.le_value h

/-! ## Rounding and doubles -/

section Nearest

variable {r : ℚ}

/-- A double is below 53 bits of some grid. -/
theorem exists_grid (hx : x.isFinite = true) :
    ∃ k z : ℤ, -1074 ≤ k ∧ |z| ≤ 2 ^ 53 ∧ toRat x = z * 2 ^ k := by
  obtain ⟨z, e, hleast, hz, hbelow, -⟩ := toRat_grid hx
  refine ⟨e, z, hleast, ?_, hz⟩
  have hlt : |(z : ℚ)| * 2 ^ e < 2 ^ 53 * 2 ^ e := by
    rw [hz, abs_mul, abs_of_pos (two_zpow_pos e)] at hbelow
    exact lt_of_lt_of_eq hbelow (two_zpow_add_nat e 53)
  have hlt' : |(z : ℚ)| < 2 ^ 53 := lt_of_mul_lt_mul_right hlt (two_zpow_pos e).le
  exact_mod_cast hlt'.le

/-- No double is nearer. -/
theorem Nearest.abs_sub_le (h : Nearest v r) (hx : x.isFinite = true) :
    |r - v| ≤ |toRat x - v| := by
  obtain ⟨k, z, hk, hz, heq⟩ := exists_grid hx
  rw [heq]
  exact h.closest k z hk hz

/-- Rounding up or down passes no double. -/
theorem Nearest.toRat_le (h : Nearest v r) (hx : x.isFinite = true) (hle : toRat x ≤ v) :
    toRat x ≤ r := by
  obtain ⟨k, z, hk, hz, heq⟩ := exists_grid hx
  rw [heq] at hle ⊢
  exact h.le_of_le hk hz hle

theorem Nearest.le_toRat (h : Nearest v r) (hx : x.isFinite = true) (hle : v ≤ toRat x) :
    r ≤ toRat x := by
  obtain ⟨k, z, hk, hz, heq⟩ := exists_grid hx
  rw [heq] at hle ⊢
  exact h.ge_of_ge hk hz hle

/-- **The relative error** of a normal value. -/
theorem Nearest.relative (h : Nearest v r) (hv : (2 : ℚ) ^ (-1022 : ℤ) ≤ v) :
    |r - v| ≤ v * 2 ^ (-53 : ℤ) := by
  have hpos : 0 < v := lt_of_lt_of_le (two_zpow_pos _) hv
  obtain ⟨k, hlow, hhigh⟩ := exists_mem_Ico_zpow hpos one_lt_two
  have hk : -1022 < k + 1 := (zpow_lt_zpow_iff_right₀ one_lt_two).1 (lt_of_le_of_lt hv hhigh)
  have herror := h.error (k - 52) (by omega) (by
    rw [abs_of_pos hpos, show k - 52 + 53 = k + 1 by omega]
    exact hhigh)
  have hscale : (2 : ℚ) ^ (k - 52 - 1) = 2 ^ k * 2 ^ (-53 : ℤ) := by
    rw [← zpow_add₀ two_ne_zero]
    congr 1
    omega
  rw [hscale] at herror
  exact herror.trans (mul_le_mul_of_nonneg_right hlow (two_zpow_pos _).le)

end Nearest

/-! ## Edges -/

/-- The largest double below one is a unit in the last place below it. -/
theorem toRat_le_of_lt_one (hx : x.isFinite = true) (h : toRat x < 1) :
    toRat x ≤ 1 - 2 ^ (-53 : ℤ) := by
  obtain ⟨z, e, hleast, hz, hbelow, hfull⟩ := toRat_grid hx
  have hhalf : (2 : ℚ) ^ (-53 : ℤ) ≤ 1 - 2 ^ (-1 : ℤ) := by norm_num
  have hlt := lt_of_le_of_lt (le_abs_self _) hbelow
  rcases lt_trichotomy e (-53) with he | rfl | he
  · have : (2 : ℚ) ^ (e + 53) ≤ 2 ^ (-1 : ℤ) := two_zpow_le (by omega)
    linarith
  · have hz1 : (z : ℚ) < 2 ^ 53 := by
      rw [hz] at h
      have hone : (1 : ℚ) = 2 ^ 53 * 2 ^ (-53 : ℤ) := by norm_num
      rw [hone] at h
      exact lt_of_mul_lt_mul_right h (two_zpow_pos _).le
    have hz2 : z ≤ 2 ^ 53 - 1 := by
      have : z < 2 ^ 53 := by exact_mod_cast hz1
      omega
    have hz3 : (z : ℚ) ≤ 2 ^ 53 - 1 := by exact_mod_cast hz2
    rw [hz]
    have hprod := mul_le_mul_of_nonneg_right hz3 (two_zpow_pos (-53)).le
    have hone : ((2 : ℚ) ^ 53 - 1) * 2 ^ (-53 : ℤ) = 1 - 2 ^ (-53 : ℤ) := by norm_num
    rwa [hone] at hprod
  · -- Such an exponent is a value from one up, or a negative one.
    have hlow := hfull (by omega)
    have hone : (1 : ℚ) ≤ 2 ^ (e + 52) := one_le_zpow₀ one_le_two (by omega)
    rcases abs_cases (toRat x) with ⟨habs, -⟩ | ⟨habs, -⟩
    · linarith
    · have : (0 : ℚ) ≤ 1 - 2 ^ (-53 : ℤ) := by norm_num
      linarith

/-- **A factor below one scales below.** -/
theorem Nearest.mul_lt {p c r : ℚ} (h : Nearest (p * c) r) (hp0 : 0 ≤ p)
    (hp1 : p ≤ 1 - 2 ^ (-53 : ℤ)) (hc : 1 ≤ c) : r < c := by
  have hle : p * c ≤ c - c * 2 ^ (-53 : ℤ) :=
    calc p * c ≤ (1 - 2 ^ (-53 : ℤ)) * c := mul_le_mul_of_nonneg_right hp1 (by linarith)
      _ = c - c * 2 ^ (-53 : ℤ) := by ring
  have hstep : 0 < c * 2 ^ (-53 : ℤ) := mul_pos (by linarith) (two_zpow_pos _)
  have habs : |p * c| = p * c := abs_of_nonneg (mul_nonneg hp0 (by linarith))
  obtain ⟨k, hlow, hhigh⟩ := exists_mem_Ico_zpow (lt_of_lt_of_le one_pos hc) one_lt_two
  have hk : 0 ≤ k := by
    have : (2 : ℚ) ^ (0 : ℤ) < 2 ^ (k + 1) := by
      rw [zpow_zero]
      linarith
    have := (zpow_lt_zpow_iff_right₀ one_lt_two).1 this
    omega
  have hscale : (2 : ℚ) ^ (k - 53) = 2 ^ k * 2 ^ (-53 : ℤ) := by
    rw [← zpow_add₀ two_ne_zero]
    rfl
  rcases eq_or_lt_of_le hlow with heq | hlt
  · -- At a power of two the exact product is in the binade below.
    have herror := h.error (k - 53) (by omega) (by
      rw [habs, sub_add_cancel, heq]
      linarith)
    have hhalf : (2 : ℚ) ^ (k - 53 - 1) < 2 ^ (k - 53) :=
      zpow_lt_zpow_right₀ one_lt_two (by omega)
    have hupper := (abs_le.1 herror).2
    rw [hscale, heq] at hhalf
    linarith
  · have herror := h.error (k - 52) (by omega) (by
      rw [habs, show k - 52 + 53 = k + 1 by omega]
      linarith)
    have hupper := (abs_le.1 herror).2
    have hmul := mul_lt_mul_of_pos_right hlt (two_zpow_pos (-53))
    rw [show k - 52 - 1 = k - 53 by omega, hscale] at hupper
    linarith

/-- So does a product of doubles. -/
theorem mul_lt_of_lt_one (ha : a.isFinite = true) (hb : b.isFinite = true) (ha0 : 0 ≤ toRat a)
    (ha1 : toRat a < 1) (hb1 : 1 ≤ toRat b) (hmost : toRat b < 2 ^ (1023 : ℤ)) :
    toRat (a * b) < toRat b := by
  have hp := toRat_le_of_lt_one ha ha1
  refine (mul_nearest ha hb ?_).2.mul_lt ha0 hp hb1
  rw [abs_of_nonneg (mul_nonneg ha0 (by linarith))]
  exact lt_of_le_of_lt (mul_le_of_le_one_left (by linarith) ha1.le) hmost

/-- **Below an integer, and shifted**: still below it. -/
theorem sub_lt_of_lt {c : ℤ} (ha : a.isFinite = true) (hb : b.isFinite = true)
    (hb0 : 0 ≤ toRat b) (hba : toRat b ≤ toRat a) (hac : toRat a < c)
    (hmost : toRat a < 2 ^ (53 : ℤ)) : toRat (a - b) < c - toRat b := by
  obtain ⟨z, e, hleast, hz, hbelow, hfull⟩ := toRat_grid ha
  have ha0 : |toRat a| = toRat a := abs_of_nonneg (hb0.trans hba)
  rw [ha0] at hbelow hfull
  have he : e ≤ 0 := by
    by_contra hpos
    have hlt := lt_of_le_of_lt (hfull (by omega)) hmost
    have := (zpow_lt_zpow_iff_right₀ one_lt_two).1 hlt
    omega
  -- The integer is on the grid, so a whole step away.
  have hstep : toRat a + 2 ^ e ≤ c := by
    have hc : (c : ℚ) = (c * 2 ^ (-e).toNat : ℤ) * 2 ^ e := by
      push_cast
      rw [mul_assoc, ← two_zpow_add_nat, show e + (-e).toNat = 0 by omega, zpow_zero, mul_one]
    have hzc : z < c * 2 ^ (-e).toNat := by
      rw [hz, hc] at hac
      exact_mod_cast lt_of_mul_lt_mul_right hac (two_zpow_pos e).le
    have hzc' : (z : ℚ) + 1 ≤ (c * 2 ^ (-e).toNat : ℤ) := by exact_mod_cast hzc
    have hmul := mul_le_mul_of_nonneg_right hzc' (two_zpow_pos e).le
    rw [← hc, add_mul, one_mul, ← hz] at hmul
    exact hmul
  have habs : |toRat a - toRat b| = toRat a - toRat b := abs_of_nonneg (sub_nonneg.2 hba)
  have hrange : toRat a - toRat b < 2 ^ (e + 53) := by linarith
  have hnearest := (sub_nearest ha hb (by
    rw [habs]
    exact lt_of_lt_of_le hrange (two_zpow_le (by omega)))).2
  have hupper := (abs_le.1 (hnearest.error e hleast (by rwa [habs]))).2
  have hhalf : (2 : ℚ) ^ (e - 1) < 2 ^ e := zpow_lt_zpow_right₀ one_lt_two (by omega)
  linarith

/-- **Two 32-bit integers** subtract exactly. -/
theorem toRat_sub_toFloat (n m : UInt32) :
    (n.toFloat - m.toFloat).isFinite = true ∧
      toRat (n.toFloat - m.toFloat) = (n.toNat : ℚ) - m.toNat := by
  obtain ⟨hn, hn'⟩ := toRat_toFloat n
  obtain ⟨hm, hm'⟩ := toRat_toFloat m
  have hsmall : |toRat n.toFloat - toRat m.toFloat| < 2 ^ ((0 : ℤ) + 53) := by
    have hnlt : (n.toNat : ℚ) < 2 ^ 32 := by exact_mod_cast n.toNat_lt
    have hmlt : (m.toNat : ℚ) < 2 ^ 32 := by exact_mod_cast m.toNat_lt
    have hn0 : (0 : ℚ) ≤ n.toNat := Nat.cast_nonneg _
    have hm0 : (0 : ℚ) ≤ m.toNat := Nat.cast_nonneg _
    have hpow : (2 : ℚ) ^ 32 ≤ 2 ^ ((0 : ℤ) + 53) := by norm_num
    rw [hn', hm', abs_lt]
    constructor <;> linarith
  obtain ⟨hfinite, hnearest⟩ := sub_nearest hn hm
    (lt_of_lt_of_le hsmall (two_zpow_le (by decide)))
  refine ⟨hfinite, ?_⟩
  have hgrid : toRat n.toFloat - toRat m.toFloat = ((n.toNat - m.toNat : ℤ) : ℚ) * 2 ^ (0 : ℤ) := by
    rw [hn', hm', zpow_zero, mul_one]
    push_cast
    rfl
  rw [hnearest.exact 0 _ (by decide) hsmall hgrid, hn', hm']

end Float

end Binary64

end WaylandWebStream
