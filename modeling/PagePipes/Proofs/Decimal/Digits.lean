import PagePipes.Proofs.Decimal.Grid

set_option autoImplicit false

/-!
# The decimal digits of a number

The decimal found for a number lies in the interval of the reals that round to it, so its value
stays below the infinite numbers, and its significand fits in 64 bits.
-/
namespace PagePipes.Decimal.Shortest

/-! ## The digits of a number -/

section digits

variable {x : Binary64}

theorem magnitude_bounds (hfinite : x.isFinite = true) (hzero : x.isZero = false) :
    0 < x.magnitude.1 ∧ x.magnitude.1 < 2 ^ 53 ∧ -1074 ≤ x.magnitude.2 ∧ x.magnitude.2 ≤ 971 := by
  obtain ⟨hfraction, hexponent⟩ := Binary64.fields_lt x
  simp only [Binary64.isFinite, decide_eq_true_eq] at hfinite
  simp only [Binary64.isZero, decide_eq_false_iff_not] at hzero
  unfold Binary64.magnitude
  rw [Nat.one_shiftLeft]
  split <;> dsimp only <;> omega

/-- How far the interval reaches below a number, in quarters of its unit: a power of two is closer
to the number below it than to the one above. -/
def gapBelow (x : Binary64) : Nat :=
  if x.magnitude.1 = 1 <<< 52 ∧ -1074 < x.magnitude.2 then 1 else 2

theorem gapBelow_le : gapBelow x ≤ 2 := by
  unfold gapBelow
  split <;> omega

theorem interval_closed : (interval x).closed = decide (x.magnitude.1 % 2 = 0) := rfl

theorem interval_low_le : (interval x).low ≤ (interval x).mid :=
  Nat.mul_le_mul_right _ (Nat.sub_le _ _)

theorem interval_quotients (hpos : 0 < x.magnitude.1) :
    0 < (interval x).den ∧
      ((interval x).low : ℚ) / (interval x).den =
        (4 * x.magnitude.1 - gapBelow x) * 2 ^ (x.magnitude.2 - 2) ∧
      ((interval x).mid : ℚ) / (interval x).den = 4 * x.magnitude.1 * 2 ^ (x.magnitude.2 - 2) ∧
      ((interval x).high : ℚ) / (interval x).den =
        (4 * x.magnitude.1 + 2) * 2 ^ (x.magnitude.2 - 2) := by
  have hgap : gapBelow x ≤ 4 * x.magnitude.1 := by
    have := @gapBelow_le x
    omega
  obtain ⟨scale, hscale⟩ : ∃ scale, scale =
      if 0 ≤ x.magnitude.2 - 2 then 1 <<< (x.magnitude.2 - 2).toNat else 1 := ⟨_, rfl⟩
  obtain ⟨den, hden⟩ : ∃ den, den =
      if 0 ≤ x.magnitude.2 - 2 then 1 else 1 <<< (2 - x.magnitude.2).toNat := ⟨_, rfl⟩
  have hinterval : interval x = ⟨(4 * x.magnitude.1 - gapBelow x) * scale,
      4 * x.magnitude.1 * scale, (4 * x.magnitude.1 + 2) * scale, den, x.magnitude.1 % 2 = 0⟩ := by
    rw [hscale, hden]
    rfl
  have hunit : 0 < den ∧ (scale : ℚ) / den = 2 ^ (x.magnitude.2 - 2) := by
    rw [hscale, hden]
    split
    · next he =>
      rw [Binary64.shiftLeft_cast 1 he, Nat.cast_one, one_mul, div_one]
      exact ⟨Nat.one_pos, rfl⟩
    · next he =>
      have hneg : 0 ≤ 2 - x.magnitude.2 := by omega
      rw [Binary64.shiftLeft_cast 1 hneg, Nat.cast_one, one_mul, one_div, ← zpow_neg, neg_sub,
        Nat.one_shiftLeft]
      exact ⟨by positivity, rfl⟩
  rw [hinterval]
  refine ⟨hunit.1, ?_, ?_, ?_⟩ <;> push_cast [hgap] <;> rw [mul_div_assoc, hunit.2]

theorem absValue_eq_quarters : x.absValue = 4 * x.magnitude.1 * 2 ^ (x.magnitude.2 - 2) := by
  rw [Binary64.absValue, zpow_sub₀ two_ne_zero]
  ring

/-- The decimal exponent from which the search for a grid starts. -/
def leading (x : Binary64) : Int :=
  leadingExponent (interval x).mid (interval x).den 4
    (((Nat.log2 x.magnitude.1 : Int) + x.magnitude.2) * 1233 / 4096 + 1)

theorem digits_eq : digits x = strip 20 (firstGrid (interval x) (leading x) 18 1) := rfl

theorem leading_bounds (hfinite : x.isFinite = true) (hzero : x.isZero = false) :
    (10 : ℚ) ^ leading x ≤ x.absValue ∧ x.absValue < 10 ^ (leading x + 1) := by
  obtain ⟨hpos, hm, hlow, hhigh⟩ := magnitude_bounds hfinite hzero
  obtain ⟨hden, -, hmid, -⟩ := interval_quotients hpos
  rw [← absValue_eq_quarters] at hmid
  have hlog : Nat.log2 x.magnitude.1 < 53 := (Nat.log2_lt hpos.ne').2 hm
  obtain ⟨hlogle, hltlog⟩ := Binary64.two_pow_log2 hpos
  unfold leading
  obtain ⟨l, hl⟩ : ∃ l : Int, l = (Nat.log2 x.magnitude.1 : Int) + x.magnitude.2 := ⟨_, rfl⟩
  rw [← hl, ← hmid]
  refine ⟨leadingExponent_le hden 4 ?_, lt_leadingExponent hden 4 ?_⟩
  · rw [hmid]
    calc (10 : ℚ) ^ (l * 1233 / 4096 + 1 - ((4 : Nat) : Int)) ≤ 2 ^ l :=
          guess_le_two_zpow (by omega) (by omega)
      _ = 2 ^ (Nat.log2 x.magnitude.1 : Int) * 2 ^ x.magnitude.2 := by
          rw [hl, zpow_add₀ two_ne_zero]
      _ ≤ x.absValue := by
          unfold Binary64.absValue
          gcongr
  · rw [hmid]
    calc x.absValue < 2 ^ ((Nat.log2 x.magnitude.1 : Int) + 1) * 2 ^ x.magnitude.2 := by
          unfold Binary64.absValue
          gcongr
      _ = 2 ^ (l + 1) := by
          rw [← zpow_add₀ two_ne_zero]
          congr 1
          omega
      _ ≤ _ := two_zpow_le_guess (by omega) (by omega)

/-- Seventeen places below the leading digit the grid is finer than half a unit. -/
theorem ten_zpow_leading_lt (hfinite : x.isFinite = true) (hzero : x.isZero = false) :
    (10 : ℚ) ^ (leading x - 17) < 2 * 2 ^ (x.magnitude.2 - 2) := by
  have hm : (x.magnitude.1 : ℚ) < 2 ^ 53 := by
    exact_mod_cast (magnitude_bounds hfinite hzero).2.1
  have hunit : (0 : ℚ) < 2 ^ (x.magnitude.2 - 2) := by positivity
  have hlead := (leading_bounds hfinite hzero).1
  rw [absValue_eq_quarters] at hlead
  rw [zpow_sub₀ (by norm_num), div_lt_iff₀ (by positivity)]
  calc (10 : ℚ) ^ leading x ≤ 4 * x.magnitude.1 * 2 ^ (x.magnitude.2 - 2) := hlead
    _ < 4 * 2 ^ 53 * 2 ^ (x.magnitude.2 - 2) := by gcongr
    _ ≤ 2 * 10 ^ (17 : Int) * 2 ^ (x.magnitude.2 - 2) :=
        mul_le_mul_of_nonneg_right (by norm_num) hunit.le
    _ = 2 * 2 ^ (x.magnitude.2 - 2) * 10 ^ (17 : Int) := mul_right_comm _ _ _

theorem digits_eq_strip (hfinite : x.isFinite = true) (hzero : x.isZero = false) :
    ∃ g k, digits x = strip 20 (g, k) ∧ onGrid (interval x) k = some g ∧
      x.absValue / 10 ^ k < 10 ^ (18 : Int) := by
  obtain ⟨hpos, -⟩ := magnitude_bounds hfinite hzero
  obtain ⟨hden, -, hmid, htop⟩ := interval_quotients hpos
  have hgrid : onGrid (interval x) (leading x + 1 - ((1 + 17 : Nat) : Int)) ≠ none := by
    refine onGrid_ne_none hden interval_low_le ?_
    rw [hmid, htop, add_mul, show leading x + 1 - ((1 + 17 : Nat) : Int) = leading x - 17 by
      push_cast; ring]
    gcongr
    exact ten_zpow_leading_lt hfinite hzero
  obtain ⟨g, k, hfirst, hg, hk⟩ :=
    @exists_firstGrid (interval x) (leading x) 18 1 17 (by norm_num) hgrid
  refine ⟨g, k, by rw [digits_eq, hfirst], hg, ?_⟩
  rw [div_lt_iff₀ (by positivity), ← zpow_add₀ (by norm_num)]
  exact (leading_bounds hfinite hzero).2.trans_le (zpow_le_zpow_right₀ (by norm_num) (by omega))

/-- The significand has eighteen digits or is the nineteen-digit power of ten, and the decimal lies
in the interval of the number. -/
theorem digits_bounds (hfinite : x.isFinite = true) (hzero : x.isZero = false) :
    0 < (digits x).1 ∧ (digits x).1 ≤ 10 ^ 18 ∧
      (interval x).Contains ((digits x).1 * 10 ^ (digits x).2) := by
  obtain ⟨hpos, -⟩ := magnitude_bounds hfinite hzero
  obtain ⟨hden, hlow, hmid, -⟩ := interval_quotients hpos
  obtain ⟨g, k, hdigits, hg, hplaces⟩ := digits_eq_strip hfinite hzero
  obtain ⟨hcontains, hnear⟩ := onGrid_bounds hden hg
  have hgpos : 0 < g := by
    by_contra hzero
    have hlowend := hcontains.low_le
    have hgap : (gapBelow x : ℚ) ≤ 2 := by exact_mod_cast gapBelow_le
    have hone : (1 : ℚ) ≤ x.magnitude.1 := by exact_mod_cast hpos
    have hunit : (0 : ℚ) < 2 ^ (x.magnitude.2 - 2) := by positivity
    rw [Nat.eq_zero_of_not_pos hzero, Nat.cast_zero, zero_mul, hlow] at hlowend
    exact absurd hlowend (not_le.2 (mul_pos (by linarith) hunit))
  obtain ⟨hspos, hsle, hsvalue⟩ := @strip_bounds g k 20 hgpos
  rw [hdigits, hsvalue]
  refine ⟨hspos, hsle.trans ?_, hcontains⟩
  rw [hmid, ← absValue_eq_quarters] at hnear
  have hlt : (g : ℚ) < 10 ^ 18 + 1 := by
    rw [show (10 : ℚ) ^ (18 : Int) = 10 ^ 18 from rfl] at hplaces
    linarith
  exact Nat.lt_succ_iff.1 (by exact_mod_cast hlt)

/-- The rounded product of the digits with their power of ten, as a reader computes it. -/
def reread (x : Binary64) : Binary64 :=
  (Binary64.ofNat (digits x).1).mulAbs (Binary64.ofNat (Nat.pow 10 (digits x).2.toNat))

/-- One of the sixteen largest numbers of a sign. -/
def topmost (negative : Bool) (i : Fin 16) : Binary64 :=
  ⟨UInt64.ofNat ((if negative then 2 ^ 63 else 0) + 2046 * 2 ^ 52 + (2 ^ 52 - 16 + i))⟩

theorem reread_topmost : ∀ negative i, (reread (topmost negative i)).isFinite = true := by
  decide +kernel

theorem exists_topmost (h : 2 ^ 53 - 16 ≤ x.magnitude.1) (he : x.magnitude.2 = 971) :
    ∃ negative i, x = topmost negative i := by
  obtain ⟨bits⟩ := x
  unfold Binary64.magnitude at h he
  have hfraction : Binary64.fractionField ⟨bits⟩ = bits.toNat % 2 ^ 52 := rfl
  have hexponent : Binary64.exponentField ⟨bits⟩ = bits.toNat / 2 ^ 52 % 2 ^ 11 := by
    rw [Binary64.exponentField, Nat.shiftRight_eq_div_pow, Nat.one_shiftLeft]
  have hsize : bits.toNat < 2 ^ 64 := bits.toNat_lt
  split at h
  · next hzero =>
    rw [if_pos hzero] at he
    exact absurd he (by norm_num)
  · next hnormal =>
    rw [if_neg hnormal] at he
    rw [hfraction, Nat.one_shiftLeft] at h
    rw [hexponent] at he
    dsimp only at h he
    refine ⟨decide (2 ^ 63 ≤ bits.toNat), ⟨bits.toNat % 2 ^ 52 - (2 ^ 52 - 16), by omega⟩, ?_⟩
    have hbits : bits.toNat = (if decide (2 ^ 63 ≤ bits.toNat) then 2 ^ 63 else 0) + 2046 * 2 ^ 52 +
        (2 ^ 52 - 16 + (bits.toNat % 2 ^ 52 - (2 ^ 52 - 16))) := by
      simp only [decide_eq_true_eq]
      split <;> omega
    rw [topmost, ← hbits, UInt64.ofNat_toNat]

theorem limit_eq_units : (2 : ℚ) ^ (1024 : Int) = 2 ^ 53 * 2 ^ (971 : Int) :=
  zpow_add₀ two_ne_zero 53 971

theorem digits_le (hfinite : x.isFinite = true) (hzero : x.isZero = false) :
    (digits x).1 * 10 ^ (digits x).2 ≤ ((x.magnitude.1 : ℚ) + 1 / 2) * 2 ^ x.magnitude.2 := by
  obtain ⟨-, -, hcontains⟩ := digits_bounds hfinite hzero
  have hhigh := (interval_quotients (magnitude_bounds hfinite hzero).1).2.2.2
  refine (hcontains.le_high.trans_eq hhigh).trans_eq ?_
  rw [zpow_sub₀ two_ne_zero]
  ring

theorem digits_exponent_le (hfinite : x.isFinite = true) (hzero : x.isZero = false) :
    (digits x).2 ≤ 308 := by
  obtain ⟨-, hm, -, he⟩ := magnitude_bounds hfinite hzero
  have hm' : (x.magnitude.1 : ℚ) + 1 ≤ 2 ^ 53 := by exact_mod_cast hm
  have hone : (1 : ℚ) ≤ (digits x).1 := by exact_mod_cast (digits_bounds hfinite hzero).1
  have hless : (digits x).1 * 10 ^ (digits x).2 < (2 : ℚ) ^ (1024 : Int) := by
    rw [limit_eq_units]
    exact (digits_le hfinite hzero).trans_lt (mul_lt_mul_of_lt_of_le_of_nonneg_of_pos
      (by linarith only [hm']) (zpow_le_zpow_right₀ one_le_two he) (by positivity)
      (zpow_pos two_pos 971))
  by_contra hlarge
  have hten : (10 : ℚ) ^ (309 : Int) ≤ 10 ^ (digits x).2 :=
    zpow_le_zpow_right₀ (by norm_num) (by omega)
  have htwo : (2 : ℚ) ^ (1024 : Int) ≤ 10 ^ (309 : Int) :=
    two_zpow_le_ten_zpow_of_nonneg (by norm_num) (by norm_num)
  have hdigits : (10 : ℚ) ^ (digits x).2 ≤ (digits x).1 * 10 ^ (digits x).2 :=
    le_mul_of_one_le_left (by positivity) hone
  exact absurd (hdigits.trans_lt hless) (not_lt.2 (htwo.trans hten))

/-- Half a unit above a number that is not among the largest, three roundings stay below the
infinite numbers. -/
theorem slack_of_not_topmost {m : Nat} {e : Int} (hm : m < 2 ^ 53) (he : e ≤ 971)
    (hbelow : e ≤ 970 ∨ m < 2 ^ 53 - 16) :
    ((m : ℚ) + 1 / 2) * 2 ^ e * (1 + 2 ^ (-53 : Int)) ^ 3 < 2 ^ (1024 : Int) := by
  have htop : (0 : ℚ) < 2 ^ (971 : Int) := zpow_pos two_pos 971
  have hm' : (m : ℚ) + 1 ≤ 2 ^ 53 := by exact_mod_cast hm
  rw [limit_eq_units]
  obtain hlow | hsmall := hbelow
  · have hunit : (2 : ℚ) ^ e ≤ 2 ^ (971 : Int) / 2 := by
      rw [← show (2 : ℚ) ^ (970 : Int) = 2 ^ (971 : Int) / 2 from zpow_sub_one₀ two_ne_zero 971]
      exact zpow_le_zpow_right₀ one_le_two hlow
    generalize (2 : ℚ) ^ (971 : Int) = top at *
    calc ((m : ℚ) + 1 / 2) * 2 ^ e * (1 + 2 ^ (-53 : Int)) ^ 3
        ≤ 2 ^ 53 * (top / 2) * (3 / 2) := by
          gcongr
          · linarith only [hm']
          · norm_num
      _ < 2 ^ 53 * top := by linarith only [htop]
  · have hsmall' : (m : ℚ) + 17 ≤ 2 ^ 53 := by
      have : m + 17 ≤ 2 ^ 53 := by omega
      exact_mod_cast this
    have hunit : (2 : ℚ) ^ e ≤ 2 ^ (971 : Int) := zpow_le_zpow_right₀ one_le_two he
    generalize (2 : ℚ) ^ (971 : Int) = top at *
    have hproduct : ((m : ℚ) + 1 / 2) * 2 ^ e ≤ (2 ^ 53 - 33 / 2) * top :=
      mul_le_mul (by linarith only [hsmall']) hunit (by positivity) (by norm_num)
    calc ((m : ℚ) + 1 / 2) * 2 ^ e * (1 + 2 ^ (-53 : Int)) ^ 3
        ≤ (2 ^ 53 - 33 / 2) * top * (1 + 2 ^ (-53 : Int)) ^ 3 := by gcongr
      _ = (2 ^ 53 - 33 / 2) * (1 + 2 ^ (-53 : Int)) ^ 3 * top := by ring
      _ < 2 ^ 53 * top := by
          gcongr
          norm_num

/-- Reading the digits of a number back stays below the infinite numbers. -/
theorem reread_isFinite (hfinite : x.isFinite = true) (hzero : x.isZero = false)
    (hk : 0 ≤ (digits x).2) :
    (digits x).2 ≤ 308 ∧ (reread x).isFinite = true := by
  refine ⟨digits_exponent_le hfinite hzero, ?_⟩
  obtain ⟨-, hm, -, he⟩ := magnitude_bounds hfinite hzero
  -- next to the largest number the slack is not left, and those numbers are tried one by one
  by_cases htop : 2 ^ 53 - 16 ≤ x.magnitude.1 ∧ x.magnitude.2 = 971
  · obtain ⟨negative, i, rfl⟩ := exists_topmost htop.1 htop.2
    exact reread_topmost negative i
  · refine Binary64.mulAbs_ofNat_isFinite (digits_bounds hfinite hzero).1
      (Nat.pow_pos (by norm_num)) ?_
    rw [ten_pow_cast hk]
    refine lt_of_le_of_lt (mul_le_mul_of_nonneg_right (digits_le hfinite hzero) (by positivity)) ?_
    exact slack_of_not_topmost hm he (by omega)

end digits

end PagePipes.Decimal.Shortest
