import PagePipes.Decimal.Shortest
import PagePipes.Proofs.Decimal.Rounding

set_option autoImplicit false

/-!
# Decimal grids

The search for the leading digit of a number finds its place exactly. On a grid that is finer than
the upper half of an interval one of the two grid points next to the middle lies in the interval, so
that the search for a grid succeeds.
-/
namespace PagePipes.Decimal.Shortest

/-! ## Powers of two against powers of ten -/

theorem two_zpow_le_ten_zpow_of_nonneg {l n : Int} (hn : 0 ≤ n) (h : 28 * l ≤ 93 * n) :
    (2 : ℚ) ^ l ≤ 10 ^ n := by
  refine (pow_le_pow_iff_left₀ (by positivity) (by positivity) (by norm_num : 28 ≠ 0)).1 ?_
  calc ((2 : ℚ) ^ l) ^ 28 = 2 ^ (28 * l) := by rw [← zpow_natCast, ← zpow_mul, mul_comm]; rfl
    _ ≤ 2 ^ (93 * n) := zpow_le_zpow_right₀ one_le_two h
    _ = ((2 : ℚ) ^ (93 : Int)) ^ n := by rw [zpow_mul]
    _ ≤ ((10 : ℚ) ^ (28 : Int)) ^ n := zpow_le_zpow_left₀ hn (by norm_num) (by norm_num)
    _ = ((10 : ℚ) ^ n) ^ 28 := by rw [← zpow_mul, ← zpow_natCast, ← zpow_mul, mul_comm]; rfl

theorem two_zpow_le_ten_zpow_of_nonpos {l n : Int} (hn : n ≤ 0) (h : 31 * l ≤ 103 * n) :
    (2 : ℚ) ^ l ≤ 10 ^ n := by
  refine (pow_le_pow_iff_left₀ (by positivity) (by positivity) (by norm_num : 31 ≠ 0)).1 ?_
  calc ((2 : ℚ) ^ l) ^ 31 = 2 ^ (31 * l) := by rw [← zpow_natCast, ← zpow_mul, mul_comm]; rfl
    _ ≤ 2 ^ (103 * n) := zpow_le_zpow_right₀ one_le_two h
    _ = (((2 : ℚ) ^ (103 : Int)) ^ (-n))⁻¹ := by rw [← zpow_mul, ← zpow_neg]; congr 1; ring
    _ ≤ (((10 : ℚ) ^ (31 : Int)) ^ (-n))⁻¹ := by
      gcongr ?_⁻¹
      exact zpow_le_zpow_left₀ (by omega) (by norm_num) (by norm_num)
    _ = ((10 : ℚ) ^ n) ^ 31 := by
      rw [← zpow_mul, ← zpow_neg, ← zpow_natCast, ← zpow_mul]; congr 1; push_cast; ring

theorem ten_zpow_le_two_zpow_of_nonneg {l n : Int} (hn : 0 ≤ n) (h : 10 * n ≤ 3 * l) :
    (10 : ℚ) ^ n ≤ 2 ^ l := by
  refine (pow_le_pow_iff_left₀ (by positivity) (by positivity) (by norm_num : 3 ≠ 0)).1 ?_
  calc ((10 : ℚ) ^ n) ^ 3 = ((10 : ℚ) ^ (3 : Int)) ^ n := by
        rw [← zpow_natCast, ← zpow_mul, ← zpow_mul, mul_comm]; rfl
    _ ≤ ((2 : ℚ) ^ (10 : Int)) ^ n := zpow_le_zpow_left₀ hn (by norm_num) (by norm_num)
    _ = 2 ^ (10 * n) := by rw [zpow_mul]
    _ ≤ 2 ^ (3 * l) := zpow_le_zpow_right₀ one_le_two h
    _ = ((2 : ℚ) ^ l) ^ 3 := by rw [← zpow_natCast, ← zpow_mul, mul_comm]; rfl

theorem ten_zpow_le_two_zpow_of_nonpos {l n : Int} (hn : n ≤ 0) (h : 93 * n ≤ 28 * l) :
    (10 : ℚ) ^ n ≤ 2 ^ l := by
  have hinv := @two_zpow_le_ten_zpow_of_nonneg (-l) (-n) (by omega) (by omega)
  rwa [zpow_neg, zpow_neg, inv_le_inv₀ (by positivity) (by positivity)] at hinv

/-- The first guess of the leading exponent is high enough. -/
theorem two_zpow_le_guess {l : Int} (hlow : -1074 ≤ l) (hhigh : l ≤ 1023) :
    (2 : ℚ) ^ (l + 1) ≤ 10 ^ (l * 1233 / 4096 + 1 + 1) := by
  obtain hn | hn := Int.le_total 0 (l * 1233 / 4096 + 1 + 1)
  · exact two_zpow_le_ten_zpow_of_nonneg hn (by omega)
  · exact two_zpow_le_ten_zpow_of_nonpos hn (by omega)

/-- The leading exponent is at most four below the first guess. -/
theorem guess_le_two_zpow {l : Int} (hlow : -1074 ≤ l) (hhigh : l ≤ 1023) :
    (10 : ℚ) ^ (l * 1233 / 4096 + 1 - 4) ≤ 2 ^ l := by
  obtain hn | hn := Int.le_total 0 (l * 1233 / 4096 + 1 - 4)
  · exact ten_zpow_le_two_zpow_of_nonneg hn (by omega)
  · exact ten_zpow_le_two_zpow_of_nonpos hn (by omega)

theorem ten_pow_cast {k : Int} (hk : 0 ≤ k) : ((Nat.pow 10 k.toNat : Nat) : ℚ) = 10 ^ k := by
  rw [Nat.pow_eq, Nat.cast_pow, Nat.cast_ofNat, ← zpow_natCast, Int.toNat_of_nonneg hk]

theorem ten_pow_neg_cast {k : Int} (hk : ¬ 0 ≤ k) :
    ((Nat.pow 10 (-k).toNat : Nat) : ℚ) = (10 ^ k)⁻¹ := by
  rw [ten_pow_cast (by omega), zpow_neg]

/-! ## The leading exponent -/

section leading

variable {n d : Nat}

/-- The search compares the quotient with a power of ten in natural numbers. -/
theorem leadingExponent_succ (hd : 0 < d) (fuel : Nat) (p : Int) :
    leadingExponent n d (fuel + 1) p =
      if (10 : ℚ) ^ p ≤ (n : ℚ) / d then p else leadingExponent n d fuel (p - 1) := by
  have hd' : (0 : ℚ) < d := by exact_mod_cast hd
  have hholds : (if 0 ≤ p then decide (Nat.pow 10 p.toNat * d ≤ n)
      else decide (d ≤ n * Nat.pow 10 (-p).toNat)) = true ↔ (10 : ℚ) ^ p ≤ n / d := by
    rw [le_div_iff₀ hd']
    split
    · next hp => rw [decide_eq_true_eq, ← Nat.cast_le (α := ℚ), Nat.cast_mul, ten_pow_cast hp]
    · next hp =>
      rw [decide_eq_true_eq, ← Nat.cast_le (α := ℚ), Nat.cast_mul, ten_pow_neg_cast hp,
        ← div_eq_mul_inv, le_div_iff₀ (by positivity), mul_comm]
  simp only [leadingExponent, hholds]

theorem lt_leadingExponent (hd : 0 < d) (fuel : Nat) {p : Int}
    (h : (n : ℚ) / d < 10 ^ (p + 1)) : (n : ℚ) / d < 10 ^ (leadingExponent n d fuel p + 1) := by
  induction fuel generalizing p with
  | zero => exact h
  | succ fuel ih =>
    rw [leadingExponent_succ hd]
    split
    · exact h
    · next hlow => exact ih (by rwa [Int.sub_add_cancel, ← not_le])

theorem leadingExponent_le (hd : 0 < d) (fuel : Nat) {p : Int}
    (h : (10 : ℚ) ^ (p - fuel) ≤ (n : ℚ) / d) :
    (10 : ℚ) ^ leadingExponent n d fuel p ≤ (n : ℚ) / d := by
  induction fuel generalizing p with
  | zero => simpa [leadingExponent] using h
  | succ fuel ih =>
    rw [leadingExponent_succ hd]
    split
    · assumption
    · refine ih ?_
      rwa [show p - 1 - (fuel : Int) = p - ((fuel + 1 : Nat) : Int) by push_cast; ring]

end leading

/-! ## Points of a grid in the interval -/

section grid

variable {i : Interval} {g n d : Nat} {k : Int}

/-- A point between the ends of the interval, or one of them if they belong to it. -/
structure Interval.Contains (i : Interval) (v : ℚ) : Prop where
  low_le : (i.low : ℚ) / i.den ≤ v
  le_high : v ≤ (i.high : ℚ) / i.den
  ends : v = i.low / i.den ∨ v = i.high / i.den → i.closed = true

theorem Interval.has_iff (hden : 0 < i.den) (hd : 0 < d) :
    i.has n d = true ↔ i.Contains ((n : ℚ) / d) := by
  have hden' : (0 : ℚ) < i.den := by exact_mod_cast hden
  have hd' : (0 : ℚ) < d := by exact_mod_cast hd
  have hle : ∀ a b c e : Nat, (0 : ℚ) < c → (0 : ℚ) < e →
      ((a : ℚ) / c ≤ (b : ℚ) / e ↔ a * e ≤ b * c) := by
    intro a b c e hc he
    rw [div_le_div_iff₀ hc he]
    exact_mod_cast Iff.rfl
  have heq : ∀ a b c e : Nat, (0 : ℚ) < c → (0 : ℚ) < e →
      ((a : ℚ) / c = (b : ℚ) / e ↔ a * e = b * c) := by
    intro a b c e hc he
    rw [div_eq_div_iff hc.ne' he.ne']
    exact_mod_cast Iff.rfl
  have hfields : i.Contains ((n : ℚ) / d) ↔ i.low * d ≤ n * i.den ∧ n * i.den ≤ i.high * d ∧
      (n * i.den = i.low * d ∨ n * i.den = i.high * d → i.closed = true) := by
    rw [← hle _ _ _ _ hden' hd', ← hle _ _ _ _ hd' hden', ← heq _ _ _ _ hd' hden',
      ← heq _ _ _ _ hd' hden']
    exact ⟨fun h => ⟨h.low_le, h.le_high, h.ends⟩, fun h => ⟨h.1, h.2.1, h.2.2⟩⟩
  rw [hfields]
  unfold Interval.has
  cases i.closed with
  | true => simp
  | false =>
    simp only [Bool.false_eq_true, ↓reduceIte, decide_eq_true_eq, imp_false, not_or]
    omega

theorem Interval.has_point_iff (hden : 0 < i.den) :
    (if 0 ≤ k then i.has (g * Nat.pow 10 k.toNat) 1 else i.has g (Nat.pow 10 (-k).toNat)) = true ↔
      i.Contains (g * 10 ^ k) := by
  split
  · next hk =>
    rw [Interval.has_iff hden Nat.one_pos, Nat.cast_mul, ten_pow_cast hk, Nat.cast_one, div_one]
  · next hk =>
    have hscale : 0 < Nat.pow 10 (-k).toNat := Nat.pow_pos (by norm_num)
    rw [Interval.has_iff hden hscale, ten_pow_neg_cast hk, div_inv_eq_mul]

/-- The search on a grid tries the two points next to the middle of the interval. -/
theorem onGrid_spec (i : Interval) (hden : 0 < i.den) (k : Int) :
    ∃ below : Nat, (below : ℚ) ≤ i.mid / i.den / 10 ^ k ∧ i.mid / i.den / 10 ^ k < (below : ℚ) + 1 ∧
      (∀ g, onGrid i k = some g → (g = below ∨ g = below + 1) ∧ i.Contains (g * 10 ^ k)) ∧
      (onGrid i k = none →
        ¬ i.Contains (below * 10 ^ k) ∧ ¬ i.Contains (((below : ℚ) + 1) * 10 ^ k)) := by
  have hden' : (0 : ℚ) < i.den := by exact_mod_cast hden
  obtain ⟨num, hnum⟩ : ∃ num, num = if 0 ≤ k then i.mid else i.mid * Nat.pow 10 (-k).toNat :=
    ⟨_, rfl⟩
  obtain ⟨den, hgridden⟩ : ∃ den, den = if 0 ≤ k then i.den * Nat.pow 10 k.toNat else i.den :=
    ⟨_, rfl⟩
  obtain ⟨inside, hinside⟩ : ∃ inside : Nat → Bool, ∀ g, inside g =
      if 0 ≤ k then i.has (g * Nat.pow 10 k.toNat) 1 else i.has g (Nat.pow 10 (-k).toNat) :=
    ⟨_, fun _ => rfl⟩
  have hquotient : (0 : ℚ) < den ∧ (num : ℚ) / den = i.mid / i.den / 10 ^ k := by
    split at hnum
    · next hk =>
      rw [hnum, hgridden, if_pos hk, Nat.cast_mul, ten_pow_cast hk, div_div]
      exact ⟨by positivity, rfl⟩
    · next hk =>
      rw [hnum, hgridden, if_neg hk, Nat.cast_mul, ten_pow_neg_cast hk]
      exact ⟨hden', by field_simp⟩
  have hcontains : ∀ g, inside g = true ↔ i.Contains (g * 10 ^ k) := fun g => by
    rw [hinside, Interval.has_point_iff hden]
  refine ⟨num / den, ?_, ?_, fun g hg => ?_, fun hnone => ?_⟩
  · rw [← hquotient.2]
    exact Nat.cast_div_le
  · rw [← hquotient.2, div_lt_iff₀ hquotient.1]
    have hpos : 0 < den := by exact_mod_cast hquotient.1
    exact_mod_cast Nat.lt_mul_of_div_lt (Nat.lt_succ_self (num / den)) hpos
  · rw [← hcontains]
    unfold onGrid at hg
    simp only [← hnum, ← hgridden, ← hinside] at hg
    split at hg <;> grind
  · have hnext : ((num / den : Nat) : ℚ) + 1 = ((num / den + 1 : Nat) : ℚ) := by push_cast; rfl
    rw [← hcontains, hnext, ← hcontains]
    unfold onGrid at hnone
    simp only [← hnum, ← hgridden, ← hinside] at hnone
    split at hnone <;> grind

/-- A point that is found on a grid is at most the first grid point above the middle. -/
theorem onGrid_bounds (hden : 0 < i.den) (h : onGrid i k = some g) :
    i.Contains (g * 10 ^ k) ∧ (g : ℚ) ≤ i.mid / i.den / 10 ^ k + 1 := by
  obtain ⟨below, hbelow, -, hfound, -⟩ := onGrid_spec i hden k
  obtain ⟨hpoint, hcontains⟩ := hfound g h
  refine ⟨hcontains, ?_⟩
  obtain rfl | rfl := hpoint
  · linarith
  · push_cast
    linarith

/-- On a grid that is finer than the upper half of the interval a point is found. -/
theorem onGrid_ne_none (hden : 0 < i.den) (hlow : i.low ≤ i.mid)
    (hfine : (i.mid : ℚ) / i.den + 10 ^ k < i.high / i.den) : onGrid i k ≠ none := by
  intro hnone
  obtain ⟨below, hbelow, habove, -, hmissed⟩ := onGrid_spec i hden k
  have hunit : (0 : ℚ) < 10 ^ k := by positivity
  have hden' : (0 : ℚ) < i.den := by exact_mod_cast hden
  rw [le_div_iff₀ hunit] at hbelow
  rw [div_lt_iff₀ hunit] at habove
  have hlow' : (i.low : ℚ) / i.den ≤ i.mid / i.den :=
    div_le_div_of_nonneg_right (by exact_mod_cast hlow) hden'.le
  have hhigh : ((below : ℚ) + 1) * 10 ^ k < i.high / i.den := by
    rw [add_one_mul]
    linarith
  refine (hmissed hnone).2 ⟨hlow'.trans habove.le, hhigh.le, ?_⟩
  rintro (hend | hend)
  · exact absurd hend (hlow'.trans_lt habove).ne'
  · exact absurd hend hhigh.ne

theorem exists_firstGrid {p : Int} {fuel count more : Nat} (hmore : more < fuel)
    (h : onGrid i (p + 1 - ((count + more : Nat) : Int)) ≠ none) :
    ∃ g k, firstGrid i p fuel count = (g, k) ∧ onGrid i k = some g ∧ p + 1 < k + count + fuel := by
  induction fuel generalizing count more with
  | zero => exact absurd hmore (Nat.not_lt_zero more)
  | succ fuel ih =>
    simp only [firstGrid]
    split
    · next g hg => exact ⟨g, _, rfl, hg, by omega⟩
    · next hnone =>
      cases more with
      | zero => exact absurd hnone h
      | succ more =>
        obtain ⟨g, k, heq, hg, hk⟩ := @ih (count + 1) more (by omega) (by
          rwa [show count + 1 + more = count + (more + 1) by omega])
        exact ⟨g, k, heq, hg, by push_cast at hk ⊢; omega⟩

theorem strip_bounds (fuel : Nat) (hg : 0 < g) :
    0 < (strip fuel (g, k)).1 ∧ (strip fuel (g, k)).1 ≤ g ∧
      ((strip fuel (g, k)).1 : ℚ) * 10 ^ (strip fuel (g, k)).2 = g * 10 ^ k := by
  induction fuel generalizing g k with
  | zero => exact ⟨hg, Nat.le_refl _, rfl⟩
  | succ fuel ih =>
    simp only [strip]
    split
    · next hzero =>
      obtain ⟨hpos, hle, hvalue⟩ := @ih (g / 10) (k + 1) (by omega)
      refine ⟨hpos, by omega, ?_⟩
      have hten : (g : ℚ) = (g / 10 : Nat) * 10 := by exact_mod_cast (by omega : g = g / 10 * 10)
      rw [hvalue, hten, zpow_add₀ (by norm_num), zpow_one]
      ring
    · exact ⟨hg, Nat.le_refl _, rfl⟩

end grid
end PagePipes.Decimal.Shortest
