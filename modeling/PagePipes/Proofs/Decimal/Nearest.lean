import PagePipes.Proofs.Decimal.Distinct

set_option autoImplicit false

/-!
# The nearest number

Rounding takes a quotient to the finite number that is nearest to it, of two that are as near to the one
of even significand, and to an infinite number from halfway between the largest finite number and the
power of two above it. This holds for subnormal quotients too, and it tells which number is taken.
-/
namespace PagePipes.Binary64

/-- Halfway between the largest finite number and the power of two above it. -/
def limit : ℚ := (2 ^ 54 - 1) * 2 ^ (970 : Int)

/-- What a sign and an absolute value are rounded to. -/
inductive Nearest (negative : Bool) (v : ℚ) (x : Binary64) : Prop
  | finite (hfinite : x.isFinite = true) (hsign : x.isNegative = negative) (hlimit : v < limit)
      (hnearest : ∀ y : Binary64, y.isFinite = true → |v - x.absValue| ≤ |v - y.absValue|)
      (heven : ∀ y : Binary64, y.isFinite = true → y.absValue ≠ x.absValue →
        |v - x.absValue| = |v - y.absValue| → x.magnitude.1 % 2 = 0)
  | infinite (hlimit : limit ≤ v) (hx : x = withSign negative infinity)

variable {negative : Bool} {v : ℚ} {x y : Binary64}

/-! ## Signs -/

section signs

theorem xor_sign {n k m : Nat} (h : 2 ^ 63 >>> k % 2 ^ m = 0) :
    (n ^^^ 2 ^ 63) >>> k % 2 ^ m = n >>> k % 2 ^ m := by
  rw [Nat.shiftRight_xor_distrib, Nat.xor_mod_two_pow, h, Nat.xor_zero]

theorem fields_neg (x : Binary64) :
    x.neg.exponentField = x.exponentField ∧ x.neg.fractionField = x.fractionField := by
  have hbits : x.neg.bits.toNat = x.bits.toNat ^^^ 2 ^ 63 := UInt64.toNat_xor ..
  constructor
  · rw [exponentField, exponentField, hbits, Nat.one_shiftLeft]
    exact xor_sign (by decide)
  · rw [fractionField, fractionField, hbits, Nat.one_shiftLeft]
    exact @xor_sign _ 0 52 (by decide)

@[simp] theorem isFinite_neg (x : Binary64) : x.neg.isFinite = x.isFinite := by
  rw [isFinite, isFinite, (fields_neg x).1]

@[simp] theorem magnitude_neg (x : Binary64) : x.neg.magnitude = x.magnitude := by
  rw [magnitude, magnitude, (fields_neg x).1, (fields_neg x).2]

@[simp] theorem isNegative_neg (x : Binary64) : x.neg.isNegative = !x.isNegative := by
  have hbits : x.neg.bits.toNat = x.bits.toNat ^^^ 2 ^ 63 := UInt64.toNat_xor ..
  have hsign : ∀ y : Binary64, y.isNegative = decide (y.bits.toNat >>> 63 = 1) := by
    intro y
    have hlt := y.bits.toNat_lt
    rw [isNegative, Nat.one_shiftLeft, Nat.shiftRight_eq_div_pow, decide_eq_decide]
    omega
  rw [hsign, hsign, hbits, Nat.shiftRight_xor_distrib]
  have hlt := x.bits.toNat_lt
  obtain h | h : x.bits.toNat >>> 63 = 0 ∨ x.bits.toNat >>> 63 = 1 := by
    rw [Nat.shiftRight_eq_div_pow]
    omega
  · rw [h]
    rfl
  · rw [h]
    rfl

@[simp] theorem isFinite_withSign : (withSign negative x).isFinite = x.isFinite := by
  cases negative <;> simp [withSign]

@[simp] theorem magnitude_withSign : (withSign negative x).magnitude = x.magnitude := by
  cases negative <;> simp [withSign]

@[simp] theorem absValue_withSign : (withSign negative x).absValue = x.absValue := by
  simp [absValue]

theorem isNegative_withSign (h : x.isNegative = false) : (withSign negative x).isNegative = negative := by
  cases negative <;> simp [withSign, h]

end signs

/-! ## Units -/

section units

variable {num den : Nat} {e : Int}

/-- No integer is nearer than the rounded one, and of two that are as near the rounded one is even. -/
theorem roundUnits_nearest (hden : 0 < den) (k : Nat) :
    |(num : ℚ) / den / 2 ^ e - roundUnits num den e| ≤ |(num : ℚ) / den / 2 ^ e - k| ∧
      (|(num : ℚ) / den / 2 ^ e - roundUnits num den e| = |(num : ℚ) / den / 2 ^ e - k| →
        k = roundUnits num den e ∨ roundUnits num den e % 2 = 0 ∧ k % 2 = 1) := by
  obtain ⟨hlow, hhigh⟩ := @roundUnits_bounds num den e hden
  have hround := @roundUnits_even num den e hden
  generalize roundUnits num den e = q at *
  generalize (num : ℚ) / den / 2 ^ e = w at *
  have hhalf : |w - q| ≤ 1 / 2 := abs_le.2 ⟨by linarith, by linarith⟩
  obtain hlt | rfl | hlt := Nat.lt_trichotomy k q
  · have hstep : (k : ℚ) + 1 ≤ q := by exact_mod_cast hlt
    have hfar : 1 / 2 ≤ |w - k| := by
      rw [abs_of_nonneg (by linarith)]
      linarith
    refine ⟨hhalf.trans hfar, fun htie => .inr ?_⟩
    have hk : |w - k| = 1 / 2 := le_antisymm (htie ▸ hhalf) hfar
    rw [abs_of_nonneg (by linarith)] at hk
    have hnext : (q : ℚ) = k + 1 := by linarith
    have hnext' : q = k + 1 := by exact_mod_cast hnext
    have heven := hround (.inr (by linarith))
    omega
  · exact ⟨le_rfl, fun _ => .inl rfl⟩
  · have hstep : (q : ℚ) + 1 ≤ k := by exact_mod_cast hlt
    have hfar : 1 / 2 ≤ |w - k| := by
      rw [abs_of_nonpos (by linarith)]
      linarith
    refine ⟨hhalf.trans hfar, fun htie => .inr ?_⟩
    have hk : |w - k| = 1 / 2 := le_antisymm (htie ▸ hhalf) hfar
    rw [abs_of_nonpos (by linarith)] at hk
    have hnext : (k : ℚ) = q + 1 := by linarith
    have hnext' : k = q + 1 := by exact_mod_cast hnext
    have heven := hround (.inl (by linarith))
    omega

theorem le_exponent (y : Binary64) : -1074 ≤ y.magnitude.2 := by
  unfold magnitude
  split
  · exact le_rfl
  · dsimp only
    omega

/-- A number is a number of units, or it has a lower exponent and stays below `2 ^ 52` units. -/
theorem exists_units (y : Binary64) (e : Int) :
    (∃ k : Nat, y.absValue = k * 2 ^ e ∧ (k % 2 = 1 → y.magnitude.1 % 2 = 1)) ∨
      y.magnitude.2 < e ∧ y.absValue < 2 ^ (e + 52) := by
  obtain ⟨hm, -⟩ := magnitude_normal y
  obtain he | he := Int.lt_or_le y.magnitude.2 e
  · exact .inr ⟨he, lt_two_zpow hm (by omega)⟩
  · obtain ⟨d, hd⟩ := Int.eq_ofNat_of_zero_le (Int.sub_nonneg.2 he)
    have hexponent : y.magnitude.2 = d + e := by omega
    refine .inl ⟨y.magnitude.1 * 2 ^ d, ?_, fun hodd => ?_⟩
    · rw [absValue, hexponent, zpow_add₀ two_ne_zero, zpow_natCast]
      push_cast
      ring
    · cases d with
      | zero => simpa using hodd
      | succ d =>
        rw [pow_succ, ← Nat.mul_assoc] at hodd
        omega

/-- No finite number is nearer to a quotient than the number of its units. A number other than that is as
near only if it is odd and the number of units is even. -/
theorem units_nearest (hnum : 0 < num) (hden : 0 < den) {q : Nat} (he : e = unitExponent num den)
    (hq : q = roundUnits num den e) (y : Binary64) :
    |(num : ℚ) / den - q * 2 ^ e| ≤ |(num : ℚ) / den - y.absValue| ∧
      (|(num : ℚ) / den - q * 2 ^ e| = |(num : ℚ) / den - y.absValue| →
        y.absValue = q * 2 ^ e ∨ q % 2 = 0 ∧ y.magnitude.1 % 2 = 1) := by
  have hunit : (0 : ℚ) < 2 ^ e := by positivity
  have hscaled : ∀ k : Nat,
      |(num : ℚ) / den - k * 2 ^ e| = |(num : ℚ) / den / 2 ^ e - k| * 2 ^ e := by
    intro k
    rw [← abs_of_pos hunit, ← abs_mul, abs_of_pos hunit, sub_mul, div_mul_cancel₀ _ hunit.ne']
  have hnearest : ∀ k : Nat, |(num : ℚ) / den - q * 2 ^ e| ≤ |(num : ℚ) / den - k * 2 ^ e| ∧
      (|(num : ℚ) / den - q * 2 ^ e| = |(num : ℚ) / den - k * 2 ^ e| →
        k = q ∨ q % 2 = 0 ∧ k % 2 = 1) := by
    intro k
    rw [hscaled, hscaled, hq, mul_left_inj' hunit.ne']
    exact (@roundUnits_nearest num den e hden k).imp_left (mul_le_mul_of_nonneg_right · hunit.le)
  obtain ⟨k, hk, hodd⟩ | ⟨hlower, hbelow⟩ := exists_units y e
  · rw [hk]
    refine (hnearest k).imp_right fun htie heq => ?_
    exact (htie heq).imp (fun h => by rw [h]) fun ⟨heven, hkodd⟩ => ⟨heven, hodd hkodd⟩
  · -- a lower exponent leaves room for one, so the quotient has 53 bits
    have hnormal : (2 : ℚ) ^ (e + 52) ≤ (num : ℚ) / den := by
      rw [he]
      refine (unitExponent_spec hnum hden).2.2 ?_
      have := le_exponent y
      omega
    have hedge : ((2 ^ 52 : Nat) : ℚ) * 2 ^ e = 2 ^ (e + 52) := by
      rw [zpow_add₀ two_ne_zero, mul_comm]
      norm_num
    have hcloser := (hnearest (2 ^ 52)).1
    rw [hedge, abs_of_nonneg (sub_nonneg.2 hnormal)] at hcloser
    rw [abs_of_nonneg (sub_nonneg.2 (hbelow.le.trans hnormal))]
    have hstrict : |(num : ℚ) / den - q * 2 ^ e| < (num : ℚ) / den - y.absValue := by linarith
    exact ⟨hstrict.le, fun heq => absurd heq hstrict.ne⟩

end units

/-! ## Rounding is to the nearest number -/

theorem limit_eq : limit = (2 ^ 54 - 1) / 2 * 2 ^ (971 : Int) := by
  rw [limit, show (971 : Int) = 970 + 1 from rfl, zpow_add_one₀ two_ne_zero]
  ring

theorem limit_bounds : (2 : ℚ) ^ (1023 : Int) ≤ limit ∧ limit ≤ 2 ^ (1024 : Int) := by
  have hpos : (0 : ℚ) < 2 ^ (970 : Int) := by positivity
  rw [limit, show (1023 : Int) = 53 + 970 from rfl, show (1024 : Int) = 54 + 970 from rfl,
    zpow_add₀ two_ne_zero, zpow_add₀ two_ne_zero]
  constructor <;> exact mul_le_mul_of_nonneg_right (by norm_num) hpos.le

section quotient

variable {num den : Nat}

/-- At the highest exponent the limit is half a unit below `2 ^ 53` units, and a tie there is rounded
up to an even number of units. -/
theorem units_lt_iff_of_top (hden : 0 < den) :
    roundUnits num den 971 < 2 ^ 53 ↔ (num : ℚ) / den < limit := by
  obtain ⟨hqlow, hqhigh⟩ := @roundUnits_bounds num den 971 hden
  have hround := @roundUnits_even num den 971 hden
  have hunit : (0 : ℚ) < 2 ^ (971 : Int) := by positivity
  rw [limit_eq, ← div_lt_iff₀ hunit, lt_div_iff₀ two_pos, mul_comm]
  generalize roundUnits num den 971 = q at *
  constructor
  · intro hlt
    have hlt' : (q : ℚ) + 1 ≤ 2 ^ 53 := by exact_mod_cast hlt
    refine lt_of_le_of_ne (by linarith) fun htie => ?_
    have hlast : (q : ℚ) + 1 = 2 ^ 53 := by linarith
    have hlast' : q + 1 = 2 ^ 53 := by exact_mod_cast hlast
    have heven := hround (.inl (by linarith))
    omega
  · intro hlt
    have hbelow : (q : ℚ) < 2 ^ 53 := by linarith
    exact_mod_cast hbelow

/-- The number of units stays below the infinite numbers just when the quotient stays below the limit. -/
theorem units_lt_iff (hnum : 0 < num) (hden : 0 < den) {q : Nat} {e : Int}
    (he : e = unitExponent num den) (hq : q = roundUnits num den e) :
    (q : ℚ) * 2 ^ e < 2 ^ (1024 : Int) ↔ (num : ℚ) / den < limit := by
  obtain ⟨hlowest, hhigh, hnormal⟩ := unitExponent_spec hnum hden
  have hle := roundUnits_le hnum hden
  rw [← he] at hlowest hhigh hnormal hle
  rw [← hq] at hle
  obtain ⟨hlimitlow, hlimithigh⟩ := limit_bounds
  obtain hlow | rfl | htop : e < 971 ∨ e = 971 ∨ 971 < e := by omega
  · have hunits : (q : ℚ) * 2 ^ e < 2 ^ (1024 : Int) :=
      lt_two_zpow (k := 54) (by omega) (by omega)
    have hquotient : (num : ℚ) / den < limit :=
      (hhigh.trans_le (zpow_le_zpow_right₀ one_le_two (by omega))).trans_le hlimitlow
    exact ⟨fun _ => hquotient, fun _ => hunits⟩
  · have hunits : (q : ℚ) * 2 ^ (971 : Int) < 2 ^ (1024 : Int) ↔ q < 2 ^ 53 := by
      rw [show (1024 : Int) = 53 + 971 from rfl, zpow_add₀ two_ne_zero,
        mul_lt_mul_iff_left₀ (zpow_pos two_pos 971)]
      exact_mod_cast Iff.rfl
    rw [hunits, hq]
    exact units_lt_iff_of_top hden
  · have hquotient : (2 : ℚ) ^ (1024 : Int) ≤ (num : ℚ) / den :=
      (zpow_le_zpow_right₀ one_le_two (by omega)).trans (hnormal (by omega))
    have hlarge := le_roundUnits hden (he ▸ hnormal (by omega))
    rw [← he, ← hq] at hlarge
    have hunits : (2 : ℚ) ^ (1024 : Int) ≤ q * 2 ^ e := two_zpow_le hlarge (by omega)
    exact ⟨fun h => absurd h (not_lt.2 hunits),
      fun h => absurd (h.trans_le hlimithigh) (not_lt.2 hquotient)⟩

theorem absValue_nonneg (y : Binary64) : 0 ≤ y.absValue := by
  unfold absValue
  positivity

/-- A value below half of the least number becomes zero. -/
theorem nearest_of_small (hv : 0 ≤ v) (hsmall : v < 2 ^ (-1075 : Int)) :
    Nearest negative v (withSign negative zero) := by
  obtain ⟨hfinite, hsign, hmagnitude⟩ :
      zero.isFinite = true ∧ zero.isNegative = false ∧ zero.magnitude = (0, -1074) := by decide
  have hzero : (withSign negative zero).absValue = 0 := by
    rw [absValue_withSign, absValue, hmagnitude, Nat.cast_zero, zero_mul]
  have hhalf : (2 : ℚ) ^ (-1074 : Int) = 2 * 2 ^ (-1075 : Int) := by
    rw [show (-1074 : Int) = 1 + -1075 from rfl, zpow_add₀ two_ne_zero, zpow_one]
  refine .finite (by rw [isFinite_withSign, hfinite]) (isNegative_withSign hsign)
    (hsmall.trans_le ((zpow_le_zpow_right₀ one_le_two (by norm_num)).trans limit_bounds.1))
    (fun y _ => ?_) fun _ _ _ _ => by rw [magnitude_withSign, hmagnitude]; rfl
  rw [hzero, sub_zero, abs_of_nonneg hv]
  obtain hm | hm := Nat.eq_zero_or_pos y.magnitude.1
  · rw [absValue, hm, Nat.cast_zero, zero_mul, sub_zero]
    exact le_abs_self v
  · have hone : (1 : ℚ) ≤ y.magnitude.1 := by exact_mod_cast hm
    have hleast : (2 : ℚ) ^ (-1074 : Int) ≤ y.absValue := by
      calc (2 : ℚ) ^ (-1074 : Int) ≤ 2 ^ y.magnitude.2 := zpow_le_zpow_right₀ one_le_two (le_exponent y)
        _ ≤ y.absValue := le_mul_of_one_le_left (by positivity) hone
    rw [abs_sub_comm]
    exact le_trans (by linarith) (le_abs_self _)

theorem nearest_ofRatio (hden : 0 < den) :
    Nearest negative ((num : ℚ) / den) (withSign negative (ofRatio num den)) := by
  obtain rfl | hnum := Nat.eq_zero_or_pos num
  · rw [Nat.cast_zero, zero_div]
    exact nearest_of_small le_rfl (by positivity)
  obtain ⟨e, he⟩ : ∃ e, e = unitExponent num den := ⟨_, rfl⟩
  obtain ⟨q, hq⟩ : ∃ q, q = roundUnits num den e := ⟨_, rfl⟩
  obtain ⟨hbelow, habove⟩ := ofRatio_spec hnum hden hq he
  have hlimit := units_lt_iff hnum hden he hq
  by_cases hlt : (num : ℚ) / den < limit
  · obtain ⟨hfinite, hsign, hvalue, heven⟩ := hbelow (hlimit.2 hlt)
    have hnearest := units_nearest hnum hden he hq
    refine .finite (by rw [isFinite_withSign, hfinite]) (isNegative_withSign hsign) hlt
      (fun y _ => ?_) fun y _ hne htie => ?_
    · rw [absValue_withSign, hvalue]
      exact (hnearest y).1
    · rw [absValue_withSign, hvalue] at hne htie
      rw [magnitude_withSign]
      exact heven (((hnearest y).2 htie).resolve_left hne).1
  · refine .infinite (not_lt.1 hlt) ?_
    rw [habove (not_lt.1 (mt hlimit.1 hlt))]

theorem exponent_le_of_absValue (h : x.absValue = y.absValue) : x.magnitude.2 ≤ y.magnitude.2 := by
  by_contra hlt
  have hlow := le_exponent y
  have hbelow : y.absValue < 2 ^ (52 + x.magnitude.2) := lt_two_zpow (magnitude_normal y).1 (by omega)
  have habove : 2 ^ (52 + x.magnitude.2) ≤ x.absValue :=
    two_zpow_le ((magnitude_normal x).2 (by omega)) (by omega)
  exact absurd h (hbelow.trans_le habove).ne'

theorem eq_of_absValue (hsign : x.isNegative = y.isNegative) (h : x.absValue = y.absValue) : x = y := by
  have he := (exponent_le_of_absValue h).antisymm (exponent_le_of_absValue h.symm)
  refine eq_of_magnitude hsign (Prod.ext ?_ he)
  rw [absValue, absValue, he, mul_left_inj' (by positivity)] at h
  exact_mod_cast h

/-- Two numbers that are as near to a quotient are one number if the one of them is even. -/
theorem absValue_of_nearest (hden : 0 < den) (hlt : (num : ℚ) / den < limit)
    (htie : |(num : ℚ) / den - x.absValue| = |(num : ℚ) / den - (ofRatio num den).absValue|)
    (heven : x.absValue ≠ (ofRatio num den).absValue → x.magnitude.1 % 2 = 0) :
    x.absValue = (ofRatio num den).absValue := by
  by_contra hne
  obtain rfl | hnum := Nat.eq_zero_or_pos num
  · rw [Nat.cast_zero, zero_div, zero_sub, zero_sub, abs_neg, abs_neg, abs_of_nonneg (absValue_nonneg _),
      abs_of_nonneg (absValue_nonneg _)] at htie
    exact hne htie
  · obtain ⟨e, he⟩ : ∃ e, e = unitExponent num den := ⟨_, rfl⟩
    obtain ⟨q, hq⟩ : ∃ q, q = roundUnits num den e := ⟨_, rfl⟩
    obtain ⟨-, -, hvalue, -⟩ := (ofRatio_spec hnum hden hq he).1 ((units_lt_iff hnum hden he hq).2 hlt)
    rw [hvalue] at hne htie heven
    obtain hsame | ⟨-, hodd⟩ := (units_nearest hnum hden he hq x).2 htie.symm
    · exact hne hsame
    · have := heven hne
      omega

/-- Which number a quotient is rounded to is told by its being nearest. -/
theorem nearest_ofRatio_iff (hden : 0 < den) :
    Nearest negative ((num : ℚ) / den) x ↔ x = withSign negative (ofRatio num den) := by
  have hround := @nearest_ofRatio negative num den hden
  refine ⟨fun h => ?_, fun h => h ▸ hround⟩
  cases h with
  | infinite hlimit hx =>
    cases hround with
    | infinite _ hr => rw [hx, hr]
    | finite _ _ hlt => exact absurd hlt (not_lt.2 hlimit)
  | finite hfinite hsign hlt hnearest heven =>
    cases hround with
    | infinite hlimit => exact absurd hlt (not_lt.2 hlimit)
    | finite hfinite' hsign' _ hnearest' _ =>
      have htie := (hnearest _ hfinite').antisymm (hnearest' x hfinite)
      refine eq_of_absValue (hsign.trans hsign'.symm) ?_
      rw [absValue_withSign] at htie ⊢
      refine absValue_of_nearest hden hlt htie fun hne => heven _ hfinite' ?_ ?_
      · rw [absValue_withSign]
        exact hne.symm
      · rw [absValue_withSign]
        exact htie

end quotient

theorem Nearest.unique (hv : 0 ≤ v) (hx : Nearest negative v x) (hy : Nearest negative v y) : x = y := by
  have hquotient : v = (v.num.toNat : ℚ) / v.den := by
    rw [← Int.cast_natCast, Int.toNat_of_nonneg (Rat.num_nonneg.2 hv), Rat.num_div_den]
  rw [hquotient, nearest_ofRatio_iff v.den_pos] at hx hy
  rw [hx, hy]

theorem absValue_lt_limit (hy : y.isFinite = true) : y.absValue < limit := by
  have hm : (y.magnitude.1 : ℚ) ≤ 2 ^ 53 - 1 := by
    have hlt := (magnitude_normal y).1
    rw [le_sub_iff_add_le]
    exact_mod_cast hlt
  have he : y.magnitude.2 ≤ 971 := by
    have hexponent := (fields_lt y).2
    rw [isFinite, decide_eq_true_eq] at hy
    unfold magnitude
    split <;> dsimp only <;> omega
  have hunit : (0 : ℚ) < 2 ^ (971 : Int) := by positivity
  calc y.absValue ≤ (2 ^ 53 - 1) * 2 ^ (971 : Int) :=
        mul_le_mul hm (zpow_le_zpow_right₀ one_le_two he) (by positivity) (by norm_num)
    _ < limit := by
        rw [limit_eq]
        exact mul_lt_mul_of_pos_right (by norm_num) hunit

theorem Nearest.absValue_eq (h : Nearest negative y.absValue x) (hy : y.isFinite = true) :
    x.absValue = y.absValue := by
  cases h with
  | infinite hlimit => exact absurd (absValue_lt_limit hy) (not_lt.2 hlimit)
  | finite _ _ _ hnearest =>
    have hself := hnearest y hy
    rw [sub_self, abs_zero] at hself
    exact (sub_eq_zero.1 (abs_nonpos_iff.1 hself)).symm

/-! ## Integers and decimal numbers -/

/-- A finite number is an integer when its absolute value and its sign are those of the integer. -/
theorem toInt?_eq_some {n : Int} :
    x.toInt? = some n ↔
      x.isFinite = true ∧ x.absValue = |(n : ℚ)| ∧ (n ≠ 0 → x.isNegative = decide (n < 0)) := by
  have hden := x.ratio_pos
  have hvalue := x.ratio_eq
  unfold toInt?
  generalize x.ratio = v at *
  obtain ⟨a, b⟩ := v
  dsimp only at *
  have hden' : (b : ℚ) ≠ 0 := by exact_mod_cast hden.ne'
  split
  · next hfinite =>
    have habs : x.absValue = |(n : ℚ)| ↔ a = n.natAbs * b := by
      rw [← hvalue, div_eq_iff hden', ← Int.cast_abs, ← Nat.cast_natAbs]
      exact_mod_cast Iff.rfl
    rw [habs]
    split
    · next hmod =>
      obtain ⟨k, rfl⟩ := Nat.dvd_of_mod_eq_zero hmod
      rw [Nat.mul_div_cancel_left k hden, Nat.mul_comm b k, Nat.mul_left_inj hden.ne', Option.some.injEq]
      cases x.isNegative <;> simp [hfinite] <;> omega
    · next hmod =>
      simp only [reduceCtorEq, false_iff, not_and]
      rintro - rfl
      exact absurd (Nat.mul_mod_left _ _) hmod
  · next hfinite => simp [hfinite]


theorem nearest_ofInt_iff {n : Int} : Nearest (decide (n < 0)) |(n : ℚ)| x ↔ x = ofInt n := by
  have h := @nearest_ofRatio_iff (decide (n < 0)) x n.natAbs 1 Nat.one_pos
  rwa [Nat.cast_one, div_one, Nat.cast_natAbs, Int.cast_abs] at h

/-- An integer that some number is stays what it is. -/
theorem Nearest.toInt?_eq {n : Int} (h : Nearest (decide (n < 0)) |(n : ℚ)| x) (hy : y.toInt? = some n) :
    x.toInt? = some n := by
  obtain ⟨hfinite, hvalue, -⟩ := toInt?_eq_some.1 hy
  rw [← hvalue] at h
  have hsame := h.absValue_eq hfinite
  cases h with
  | infinite hlimit => exact absurd (absValue_lt_limit hfinite) (not_lt.2 hlimit)
  | finite hx hsign => exact toInt?_eq_some.2 ⟨hx, hsame.trans hvalue, fun _ => hsign⟩

theorem nearest_ofDecimal (n : Nat) (e : Int) :
    Nearest negative (n * 10 ^ e) (withSign negative (ofDecimal n e)) := by
  unfold ofDecimal
  dsimp only
  split
  · next hn =>
    rw [hn, Nat.cast_zero, zero_mul]
    exact nearest_of_small le_rfl (by positivity)
  · next hn =>
    have hpos : 0 < n := Nat.pos_of_ne_zero hn
    split
    · next hsize =>
      refine nearest_of_small (by positivity) ?_
      calc (n : ℚ) * 10 ^ e < 2 ^ ((Nat.log2 n : Int) + 1) * 2 ^ e :=
            mul_lt_mul_of_lt_of_le_of_pos_of_nonneg (two_pow_log2 hpos).2
              (Decimal.Shortest.ten_zpow_le_two_zpow_of_nonpos (by omega) (by omega))
              (by positivity) (by positivity)
        _ = 2 ^ ((Nat.log2 n : Int) + 1 + e) := (zpow_add₀ two_ne_zero _ _).symm
        _ ≤ 2 ^ (-1075 : Int) := zpow_le_zpow_right₀ one_le_two (by omega)
    · split
      · next he =>
        split
        · next hlarge =>
          refine .infinite (limit_bounds.2.trans ?_) rfl
          have hone : (1 : ℚ) ≤ n := by exact_mod_cast hpos
          calc (2 : ℚ) ^ (1024 : Int) ≤ 10 ^ e :=
                Decimal.Shortest.two_zpow_le_ten_zpow_of_nonneg he (by omega)
            _ ≤ n * 10 ^ e := le_mul_of_one_le_left (by positivity) hone
        · have h := @nearest_ofRatio negative (n * Nat.pow 10 e.toNat) 1 Nat.one_pos
          rwa [Nat.cast_mul, Decimal.Shortest.ten_pow_cast he, Nat.cast_one, div_one] at h
      · next he =>
        have h := @nearest_ofRatio negative n (Nat.pow 10 (-e).toNat) (Nat.pow_pos (by norm_num))
        rwa [Decimal.Shortest.ten_pow_neg_cast he, div_inv_eq_mul] at h

theorem nearest_ofDecimal_iff {n : Nat} {e : Int} :
    Nearest negative (n * 10 ^ e) x ↔ x = withSign negative (ofDecimal n e) :=
  ⟨fun h => h.unique (by positivity) (nearest_ofDecimal n e), fun h => h ▸ nearest_ofDecimal n e⟩

end PagePipes.Binary64
