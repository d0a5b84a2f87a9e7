import PagePipes.Proofs.Decimal.Digits

set_option autoImplicit false

/-!
# Different numbers have different digits

The intervals of two numbers of different magnitude have no point in common: where they meet, one of
the two significands is odd and its interval does not contain its ends. The digits found for a number
lie in its interval, so they determine the magnitude.
-/
namespace PagePipes.Binary64

variable {x y : Binary64}

/-- Only the lowest exponent has significands of fewer than 53 bits. -/
theorem magnitude_normal (x : Binary64) :
    x.magnitude.1 < 2 ^ 53 ∧ (-1074 < x.magnitude.2 → 2 ^ 52 ≤ x.magnitude.1) := by
  have hfraction := (fields_lt x).1
  unfold magnitude
  rw [Nat.one_shiftLeft]
  split <;> dsimp only <;> omega

theorem fields_of_magnitude (h : x.magnitude = y.magnitude) :
    x.exponentField = y.exponentField ∧ x.fractionField = y.fractionField := by
  have hx := (fields_lt x).1
  have hy := (fields_lt y).1
  simp only [magnitude, Nat.one_shiftLeft] at h
  split at h <;> split at h <;> simp only [Prod.mk.injEq] at h <;> omega

theorem eq_of_magnitude (hsign : x.isNegative = y.isNegative) (h : x.magnitude = y.magnitude) :
    x = y := by
  obtain ⟨hexponent, hfraction⟩ := fields_of_magnitude h
  obtain ⟨a⟩ := x
  obtain ⟨b⟩ := y
  have ha := a.toNat_lt
  have hb := b.toNat_lt
  simp only [exponentField, Nat.shiftRight_eq_div_pow, Nat.one_shiftLeft] at hexponent
  simp only [fractionField, Nat.one_shiftLeft] at hfraction
  simp only [isNegative, Nat.one_shiftLeft, decide_eq_decide] at hsign
  have heq : a.toNat = b.toNat := by omega
  rw [UInt64.toNat_inj.1 heq]

theorem magnitude_of_isZero (h : x.isZero = true) : x.magnitude = (0, -1074) := by
  simp only [isZero, decide_eq_true_eq] at h
  rw [magnitude, if_pos h.1, h.2]

end PagePipes.Binary64

namespace PagePipes.Decimal.Shortest

variable {x y : Binary64} {v : ℚ}

/-- A point of the interval of a number, in quarters of its unit. -/
theorem quarters_of_contains (hpos : 0 < x.magnitude.1) (h : (interval x).Contains v) :
    (4 * x.magnitude.1 - gapBelow x : ℚ) * 2 ^ (x.magnitude.2 - 2) ≤ v ∧
      v ≤ (4 * x.magnitude.1 + 2) * 2 ^ (x.magnitude.2 - 2) ∧
      (v = (4 * x.magnitude.1 - gapBelow x) * 2 ^ (x.magnitude.2 - 2) ∨
        v = (4 * x.magnitude.1 + 2) * 2 ^ (x.magnitude.2 - 2) → x.magnitude.1 % 2 = 0) := by
  obtain ⟨-, hlow, -, hhigh⟩ := interval_quotients hpos
  rw [← hlow, ← hhigh]
  refine ⟨h.low_le, h.le_high, fun hend => ?_⟩
  have hclosed := h.ends hend
  rwa [interval_closed, decide_eq_true_eq] at hclosed

/-- Intervals of one unit: the next significand begins where this one ends, and one of the two is
odd. -/
theorem significand_le_of_contains (hx : 0 < x.magnitude.1) (hy : 0 < y.magnitude.1)
    (he : x.magnitude.2 = y.magnitude.2) (h : (interval x).Contains v)
    (h' : (interval y).Contains v) : y.magnitude.1 ≤ x.magnitude.1 := by
  by_contra hlt
  obtain ⟨-, hhigh, hend⟩ := quarters_of_contains hx h
  obtain ⟨hlow, -, hend'⟩ := quarters_of_contains hy h'
  rw [← he] at hlow hend'
  have hunit : (0 : ℚ) < 2 ^ (x.magnitude.2 - 2) := by positivity
  have hgap : (gapBelow y : ℚ) ≤ 2 := by exact_mod_cast gapBelow_le
  have hnext : (x.magnitude.1 : ℚ) + 1 ≤ y.magnitude.1 := by exact_mod_cast not_le.1 hlt
  have hmeet := le_of_mul_le_mul_right (hlow.trans hhigh) hunit
  -- the ends can only meet when both intervals contain the point between them
  have hsame : (y.magnitude.1 : ℚ) = x.magnitude.1 + 1 := by linarith
  have hlowend : (4 * y.magnitude.1 - gapBelow y : ℚ) = 4 * x.magnitude.1 + 2 := by linarith
  rw [hlowend] at hlow hend'
  have hv := hhigh.antisymm hlow
  have hodd : y.magnitude.1 = x.magnitude.1 + 1 := by exact_mod_cast hsame
  have heven := hend (.inr hv)
  have heven' := hend' (.inl hv)
  omega

/-- An interval of a full significand ends no lower than `2 ^ 54 - 1` quarters: a power of two
reaches one quarter below itself only. -/
theorem quarters_low (hlow : -1074 < y.magnitude.2) :
    (2 ^ 54 - 1 : ℚ) ≤ 4 * y.magnitude.1 - gapBelow y := by
  obtain hpower | habove := ((Binary64.magnitude_normal y).2 hlow).eq_or_lt
  · have hgap : gapBelow y = 1 := if_pos ⟨by rw [Nat.one_shiftLeft, hpower], by omega⟩
    rw [hgap, ← hpower]
    norm_num
  · have hgap : (gapBelow y : ℚ) ≤ 2 := by exact_mod_cast gapBelow_le
    have habove' : (2 ^ 52 : ℚ) + 1 ≤ y.magnitude.1 := by exact_mod_cast habove
    linarith

/-- The unit of a number whose interval reaches higher is no smaller. -/
theorem exponent_le_of_contains (hx : 0 < x.magnitude.1) (hlow : -1074 ≤ x.magnitude.2)
    (h : (interval x).Contains v) (hy : 0 < y.magnitude.1) (h' : (interval y).Contains v) :
    y.magnitude.2 ≤ x.magnitude.2 := by
  by_contra hlt
  obtain ⟨-, hhigh, hend⟩ := quarters_of_contains hx h
  obtain ⟨hbelow, -, -⟩ := quarters_of_contains hy h'
  have hm : (x.magnitude.1 : ℚ) + 1 ≤ 2 ^ 53 := by exact_mod_cast (Binary64.magnitude_normal x).1
  have hunit : (0 : ℚ) < 2 ^ (x.magnitude.2 - 2) := by positivity
  have hedge : (2 ^ 54 - 1 : ℚ) ≤ 4 * y.magnitude.1 - gapBelow y := quarters_low (by omega)
  have hdouble : 2 * (2 : ℚ) ^ (x.magnitude.2 - 2) ≤ 2 ^ (y.magnitude.2 - 2) := by
    rw [mul_comm, ← zpow_add_one₀ two_ne_zero]
    exact zpow_le_zpow_right₀ one_le_two (by omega)
  have hreach : (2 ^ 55 - 2 : ℚ) * 2 ^ (x.magnitude.2 - 2) ≤ v := by
    calc (2 ^ 55 - 2 : ℚ) * 2 ^ (x.magnitude.2 - 2)
        = (2 ^ 54 - 1) * (2 * 2 ^ (x.magnitude.2 - 2)) := by ring
      _ ≤ (4 * y.magnitude.1 - gapBelow y) * 2 ^ (y.magnitude.2 - 2) :=
          mul_le_mul hedge hdouble (by positivity) ((by norm_num : (0 : ℚ) ≤ 2 ^ 54 - 1).trans hedge)
      _ ≤ v := hbelow
  have hmeet := le_of_mul_le_mul_right (hreach.trans hhigh) hunit
  have hlast : (x.magnitude.1 : ℚ) = 2 ^ 53 - 1 := by linarith
  have heven := hend (.inr (hhigh.antisymm (by
    rw [hlast]
    refine le_trans (le_of_eq ?_) hreach
    ring)))
  have hodd : x.magnitude.1 = 2 ^ 53 - 1 := by
    have : ((x.magnitude.1 + 1 : Nat) : ℚ) = ((2 ^ 53 : Nat) : ℚ) := by
      push_cast
      linarith
    have := Nat.cast_injective this
    omega
  omega

/-- Numbers whose intervals share a point have one magnitude. -/
theorem magnitude_eq_of_contains (hx : 0 < x.magnitude.1) (hxlow : -1074 ≤ x.magnitude.2)
    (hy : 0 < y.magnitude.1) (hylow : -1074 ≤ y.magnitude.2) (h : (interval x).Contains v)
    (h' : (interval y).Contains v) : x.magnitude = y.magnitude := by
  have he := (exponent_le_of_contains hy hylow h' hx h).antisymm
    (exponent_le_of_contains hx hxlow h hy h')
  exact Prod.ext ((significand_le_of_contains hy hx he.symm h' h).antisymm
    (significand_le_of_contains hx hy he h h')) he

/-- The absolute value of the shortest decimal of a finite number. -/
def decimalValue (x : Binary64) : ℚ :=
  if x.isZero then 0 else (digits x).1 * 10 ^ (digits x).2

theorem decimalValue_pos (hfinite : x.isFinite = true) (hzero : x.isZero = false) :
    0 < decimalValue x := by
  have hpos : (0 : ℚ) < (digits x).1 := by exact_mod_cast (digits_bounds hfinite hzero).1
  simp only [decimalValue, hzero, Bool.false_eq_true, ↓reduceIte]
  positivity

/-- Finite numbers of one sign and one shortest decimal are one number. -/
theorem eq_of_decimalValue (hx : x.isFinite = true) (hy : y.isFinite = true)
    (hsign : x.isNegative = y.isNegative) (h : decimalValue x = decimalValue y) : x = y := by
  refine Binary64.eq_of_magnitude hsign ?_
  cases hxzero : x.isZero with
  | true =>
    have hvalue : decimalValue x = 0 := by simp [decimalValue, hxzero]
    cases hyzero : y.isZero with
    | true => rw [Binary64.magnitude_of_isZero hxzero, Binary64.magnitude_of_isZero hyzero]
    | false => exact absurd (hvalue.symm.trans h) (decimalValue_pos hy hyzero).ne
  | false =>
    cases hyzero : y.isZero with
    | true =>
      have hvalue : decimalValue y = 0 := by simp [decimalValue, hyzero]
      exact absurd (h.trans hvalue) (decimalValue_pos hx hxzero).ne'
    | false =>
      obtain ⟨hxpos, -, hxlow, -⟩ := magnitude_bounds hx hxzero
      obtain ⟨hypos, -, hylow, -⟩ := magnitude_bounds hy hyzero
      simp only [decimalValue, hxzero, hyzero, Bool.false_eq_true, ↓reduceIte] at h
      have hcontains := (digits_bounds hx hxzero).2.2
      rw [h] at hcontains
      exact magnitude_eq_of_contains hxpos hxlow hypos hylow hcontains
        (digits_bounds hy hyzero).2.2

end PagePipes.Decimal.Shortest
