import Mathlib
import PagePipes.Decimal.Binary64

set_option autoImplicit false

/-!
# Rounding of quotients

A quotient of at least one is rounded to a number that exceeds it by less than one part in `2 ^ 53`,
and to a finite one while that stays below `2 ^ 1024`.
-/
namespace PagePipes.Binary64

/-- The absolute value of a finite number. -/
def absValue (x : Binary64) : ℚ := x.magnitude.1 * 2 ^ x.magnitude.2

theorem shiftLeft_cast (n : Nat) {e : Int} (he : 0 ≤ e) :
    ((n <<< e.toNat : Nat) : ℚ) = n * 2 ^ e := by
  rw [Nat.shiftLeft_eq, Nat.cast_mul, Nat.cast_pow, Nat.cast_ofNat, ← zpow_natCast,
    Int.toNat_of_nonneg he]

theorem lt_two_zpow {m k : Nat} {e l : Int} (hm : m < 2 ^ k) (h : k + e ≤ l) : (m : ℚ) * 2 ^ e < 2 ^ l := by
  have hm' : (m : ℚ) < 2 ^ (k : Int) := by exact_mod_cast hm
  calc (m : ℚ) * 2 ^ e < 2 ^ (k : Int) * 2 ^ e := by gcongr
    _ = 2 ^ (k + e) := (zpow_add₀ two_ne_zero _ _).symm
    _ ≤ 2 ^ l := zpow_le_zpow_right₀ one_le_two h

theorem two_zpow_le {m k : Nat} {e l : Int} (hm : 2 ^ k ≤ m) (h : l ≤ k + e) : (2 : ℚ) ^ l ≤ m * 2 ^ e := by
  have hm' : (2 : ℚ) ^ (k : Int) ≤ m := by exact_mod_cast hm
  calc (2 : ℚ) ^ l ≤ 2 ^ (k + e) := zpow_le_zpow_right₀ one_le_two h
    _ = 2 ^ (k : Int) * 2 ^ e := zpow_add₀ two_ne_zero _ _
    _ ≤ m * 2 ^ e := by gcongr

theorem fields_lt (x : Binary64) : x.fractionField < 2 ^ 52 ∧ x.exponentField < 2 ^ 11 := by
  constructor
  · rw [fractionField, Nat.one_shiftLeft]
    exact Nat.mod_lt _ (by norm_num)
  · rw [exponentField, Nat.one_shiftLeft]
    exact Nat.mod_lt _ (by norm_num)

theorem ratio_pos (x : Binary64) : 0 < x.ratio.2 := by
  unfold ratio
  generalize x.magnitude = v
  dsimp only
  split
  · exact Nat.one_pos
  · rw [Nat.shiftLeft_eq]
    positivity

theorem ratio_eq (x : Binary64) : (x.ratio.1 : ℚ) / x.ratio.2 = x.absValue := by
  unfold ratio absValue
  generalize x.magnitude = v
  dsimp only
  split
  · next he => simp [shiftLeft_cast _ he]
  · next he =>
    have hneg : 0 ≤ -v.2 := by omega
    rw [shiftLeft_cast _ hneg, zpow_neg, Nat.cast_one, one_mul, div_inv_eq_mul]

theorem nearest_bounds {n d q : Nat} (hd : 0 < d)
    (hq : q = if 2 * (n % d) < d then n / d
      else if d < 2 * (n % d) then n / d + 1 else n / d + n / d % 2) :
    2 * n ≤ (2 * q + 1) * d ∧ 2 * q * d ≤ 2 * n + d := by
  have hn := Nat.div_add_mod n d
  have hr := Nat.mod_lt n hd
  have hparity := Nat.mod_lt (n / d) Nat.two_pos
  generalize n / d = t at hn hq hparity
  generalize n % d = r at hn hq hr
  split_ifs at hq
  · subst hq
    constructor <;> nlinarith
  · subst hq
    constructor <;> nlinarith
  · obtain hp | hp : t % 2 = 0 ∨ t % 2 = 1 := by omega
    · rw [hp] at hq
      subst hq
      constructor <;> nlinarith
    · rw [hp] at hq
      subst hq
      constructor <;> nlinarith

theorem nearest_even {n d q : Nat} (hd : 0 < d)
    (hq : q = if 2 * (n % d) < d then n / d
      else if d < 2 * (n % d) then n / d + 1 else n / d + n / d % 2)
    (htie : 2 * n = (2 * q + 1) * d ∨ 2 * q * d = 2 * n + d) : q % 2 = 0 := by
  have hn := Nat.div_add_mod n d
  have hr := Nat.mod_lt n hd
  generalize n / d = t at hn hq
  generalize n % d = r at hn hq hr
  split_ifs at hq
  · subst hq
    obtain h | h := htie <;> nlinarith
  · subst hq
    obtain h | h := htie <;> nlinarith
  · omega

section quotient

variable {num den : Nat} {e : Int}

/-- The quotient in units of `2 ^ e` as a quotient of integers, of which the nearest integer is taken. -/
theorem exists_scaled (num : Nat) (e : Int) (hden : 0 < den) :
    ∃ n d : Nat, 0 < d ∧ (n : ℚ) / d = (num : ℚ) / den / 2 ^ e ∧
      roundUnits num den e = if 2 * (n % d) < d then n / d
        else if d < 2 * (n % d) then n / d + 1 else n / d + n / d % 2 := by
  refine ⟨if 0 ≤ e then num else num <<< (-e).toNat, if 0 ≤ e then den <<< e.toNat else den,
    ?_, ?_, rfl⟩
  · split
    · rw [Nat.shiftLeft_eq]
      positivity
    · exact hden
  · split
    · next he => rw [shiftLeft_cast _ he, div_div]
    · next he =>
      have hneg : 0 ≤ -e := by omega
      rw [shiftLeft_cast _ hneg, zpow_neg]
      field_simp

theorem roundUnits_bounds (hden : 0 < den) :
    2 * ((num : ℚ) / den / 2 ^ e) ≤ 2 * roundUnits num den e + 1 ∧
      2 * (roundUnits num den e : ℚ) ≤ 2 * ((num : ℚ) / den / 2 ^ e) + 1 := by
  obtain ⟨n, d, hd, hscaled, hq⟩ := exists_scaled num e hden
  obtain ⟨hlow, hhigh⟩ := nearest_bounds hd hq
  have hd' : (0 : ℚ) < d := by exact_mod_cast hd
  have hlow' : 2 * (n : ℚ) ≤ (2 * roundUnits num den e + 1) * d := by exact_mod_cast hlow
  have hhigh' : 2 * (roundUnits num den e : ℚ) * d ≤ 2 * n + d := by exact_mod_cast hhigh
  rw [← hscaled]
  constructor
  · rw [mul_div_assoc', div_le_iff₀ hd']
    exact hlow'
  · rw [mul_div_assoc', div_add_one hd'.ne', le_div_iff₀ hd']
    exact hhigh'

theorem roundUnits_even (hden : 0 < den)
    (h : 2 * ((num : ℚ) / den / 2 ^ e) = 2 * roundUnits num den e + 1 ∨
      2 * (roundUnits num den e : ℚ) = 2 * ((num : ℚ) / den / 2 ^ e) + 1) :
    roundUnits num den e % 2 = 0 := by
  obtain ⟨n, d, hd, hscaled, hq⟩ := exists_scaled num e hden
  refine nearest_even hd hq ?_
  have hd' : (0 : ℚ) < d := by exact_mod_cast hd
  rw [← hscaled] at h
  refine h.imp (fun h => ?_) fun h => ?_
  · rw [mul_div_assoc', div_eq_iff hd'.ne'] at h
    exact_mod_cast h
  · rw [mul_div_assoc', div_add_one hd'.ne', eq_div_iff hd'.ne'] at h
    exact_mod_cast h

theorem two_pow_log2 {n : Nat} (hn : 0 < n) :
    (2 : ℚ) ^ (Nat.log2 n : Int) ≤ n ∧ (n : ℚ) < 2 ^ ((Nat.log2 n : Int) + 1) := by
  constructor
  · rw [zpow_natCast]
    exact_mod_cast Nat.log2_self_le hn.ne'
  · have h : n < 2 ^ (n.log2 + 1) := Nat.lt_log2_self
    have hcast : ((Nat.log2 n : Int) + 1) = ((n.log2 + 1 : Nat) : Int) := by push_cast; ring
    rw [hcast, zpow_natCast]
    exact_mod_cast h

/-- The binary logarithms of its parts tell the size of a quotient up to a factor of four. -/
theorem quotient_log2_bounds (hnum : 0 < num) (hden : 0 < den) {e : Int}
    (he : e = (Nat.log2 num : Int) - (Nat.log2 den : Int) - 53) :
    (2 : ℚ) ^ (e + 52) ≤ (num : ℚ) / den ∧ (num : ℚ) / den < 2 ^ (e + 54) := by
  obtain ⟨hnlow, hnhigh⟩ := two_pow_log2 hnum
  obtain ⟨hdlow, hdhigh⟩ := two_pow_log2 hden
  have hden' : (0 : ℚ) < den := by exact_mod_cast hden
  constructor
  · rw [le_div_iff₀ hden']
    calc (2 : ℚ) ^ (e + 52) * den
        ≤ 2 ^ (e + 52) * 2 ^ ((Nat.log2 den : Int) + 1) := by gcongr
      _ = 2 ^ (Nat.log2 num : Int) := by
        rw [← zpow_add₀ two_ne_zero]
        congr 1
        omega
      _ ≤ num := hnlow
  · rw [div_lt_iff₀ hden']
    calc (num : ℚ) < 2 ^ ((Nat.log2 num : Int) + 1) := hnhigh
      _ = 2 ^ (e + 54) * 2 ^ (Nat.log2 den : Int) := by
        rw [← zpow_add₀ two_ne_zero]
        congr 1
        omega
      _ ≤ 2 ^ (e + 54) * den := by gcongr

/-- The test of an exponent compares the quotient with `2 ^ 53` of its units. -/
theorem isLarge_iff (num : Nat) (e : Int) (hden : 0 < den) :
    (if 0 ≤ e then decide (den <<< e.toNat <<< 53 ≤ num)
      else decide (den <<< 53 ≤ num <<< (-e).toNat)) = true ↔
        (2 : ℚ) ^ (e + 53) ≤ (num : ℚ) / den := by
  have hden' : (0 : ℚ) < den := by exact_mod_cast hden
  rw [le_div_iff₀ hden', zpow_add₀ two_ne_zero]
  split
  · next he =>
    rw [decide_eq_true_eq, ← Nat.cast_le (α := ℚ), Nat.shiftLeft_eq _ 53, Nat.cast_mul,
      shiftLeft_cast _ he]
    norm_num
    constructor <;> intro h <;> linarith
  · next he =>
    have hneg : 0 ≤ -e := by omega
    rw [decide_eq_true_eq, ← Nat.cast_le (α := ℚ), shiftLeft_cast _ hneg, Nat.shiftLeft_eq,
      zpow_neg, ← div_eq_mul_inv, le_div_iff₀ (by positivity)]
    push_cast
    constructor <;> intro h <;> linarith

/-- In units of its exponent a quotient has at most 53 bits, and fewer only at the lowest exponent. -/
theorem unitExponent_spec (hnum : 0 < num) (hden : 0 < den) :
    -1074 ≤ unitExponent num den ∧ (num : ℚ) / den < 2 ^ (unitExponent num den + 53) ∧
      (-1074 < unitExponent num den → (2 : ℚ) ^ (unitExponent num den + 52) ≤ (num : ℚ) / den) := by
  obtain ⟨guess, hguess⟩ : ∃ guess, guess = (Nat.log2 num : Int) - (Nat.log2 den : Int) - 53 :=
    ⟨_, rfl⟩
  obtain ⟨hlow, hhigh⟩ := quotient_log2_bounds hnum hden hguess
  -- the guess is one too low where the quotient passes the test
  obtain ⟨unit, hunit, hbelow, habove⟩ : ∃ unit : Int,
      unitExponent num den = max unit (-1074) ∧ (2 : ℚ) ^ (unit + 52) ≤ (num : ℚ) / den ∧
        (num : ℚ) / den < 2 ^ (unit + 53) := by
    refine ⟨if (2 : ℚ) ^ (guess + 53) ≤ (num : ℚ) / den then guess + 1 else guess, ?_, ?_⟩
    · unfold unitExponent
      simp only [← hguess, isLarge_iff num guess hden]
    · split
      · next h => exact ⟨by convert h using 2; ring, by convert hhigh using 2; ring⟩
      · next h => exact ⟨hlow, not_le.1 h⟩
  rw [hunit]
  refine ⟨le_max_right _ _, habove.trans_le (zpow_le_zpow_right₀ one_le_two (by omega)), fun h => ?_⟩
  rwa [max_eq_left (by omega)]

theorem unitExponent_bounds (hden : 0 < den) (hle : den ≤ num) :
    (2 : ℚ) ^ (unitExponent num den + 52) ≤ (num : ℚ) / den ∧
      (num : ℚ) / den < 2 ^ (unitExponent num den + 53) := by
  obtain ⟨hlowest, hhigh, hnormal⟩ := unitExponent_spec (hden.trans_le hle) hden
  refine ⟨?_, hhigh⟩
  obtain he | he := hlowest.lt_or_eq
  · exact hnormal he
  · calc (2 : ℚ) ^ (unitExponent num den + 52) ≤ 2 ^ (0 : Int) :=
          zpow_le_zpow_right₀ one_le_two (by omega)
      _ ≤ (num : ℚ) / den := by
          rw [zpow_zero, one_le_div (by exact_mod_cast hden)]
          exact_mod_cast hle

theorem roundUnits_le (hnum : 0 < num) (hden : 0 < den) :
    roundUnits num den (unitExponent num den) ≤ 2 ^ 53 := by
  obtain ⟨-, hhigh, -⟩ := unitExponent_spec hnum hden
  obtain ⟨-, hqhigh⟩ := @roundUnits_bounds num den (unitExponent num den) hden
  generalize unitExponent num den = e at *
  generalize roundUnits num den e = q at *
  have hunit : (0 : ℚ) < 2 ^ e := by positivity
  rw [zpow_add₀ two_ne_zero, mul_comm, ← div_lt_iff₀ hunit] at hhigh
  have : ((2 * q : Nat) : ℚ) < ((2 ^ 54 + 1 : Nat) : ℚ) := by
    push_cast
    norm_num at hhigh ⊢
    linarith
  have := Nat.cast_lt.1 this
  omega

theorem le_roundUnits (hden : 0 < den)
    (hlow : (2 : ℚ) ^ (unitExponent num den + 52) ≤ (num : ℚ) / den) :
    2 ^ 52 ≤ roundUnits num den (unitExponent num den) := by
  obtain ⟨hqlow, -⟩ := @roundUnits_bounds num den (unitExponent num den) hden
  generalize unitExponent num den = e at *
  generalize roundUnits num den e = q at *
  have hunit : (0 : ℚ) < 2 ^ e := by positivity
  rw [zpow_add₀ two_ne_zero, mul_comm, ← le_div_iff₀ hunit] at hlow
  have : ((2 ^ 53 : Nat) : ℚ) ≤ ((2 * q + 1 : Nat) : ℚ) := by
    push_cast
    norm_num at hlow ⊢
    linarith
  have := Nat.cast_le.1 this
  omega

/-- A quotient of at least one moves up by one part in `2 ^ 53` at most when it is rounded, and not
below one. -/
theorem rounded_bounds (hden : 0 < den) (hle : den ≤ num) :
    1 ≤ (roundUnits num den (unitExponent num den) : ℚ) * 2 ^ unitExponent num den ∧
      (roundUnits num den (unitExponent num den) : ℚ) * 2 ^ unitExponent num den ≤
        (num : ℚ) / den * (1 + 2 ^ (-53 : Int)) := by
  obtain ⟨hlow, hhigh⟩ := unitExponent_bounds hden hle
  obtain ⟨-, hqhigh⟩ := @roundUnits_bounds num den (unitExponent num den) hden
  have hq : (2 ^ 52 : ℚ) ≤ roundUnits num den (unitExponent num den) := by
    exact_mod_cast le_roundUnits hden (unitExponent_bounds hden hle).1
  have hone : (1 : ℚ) ≤ (num : ℚ) / den := by
    rw [one_le_div (by exact_mod_cast hden)]
    exact_mod_cast hle
  generalize unitExponent num den = e at *
  generalize (roundUnits num den e : ℚ) = q at *
  generalize (num : ℚ) / den = x at *
  have hunit : (0 : ℚ) < 2 ^ e := by positivity
  have hhalf : (2 : ℚ) ^ e / 2 ≤ x * 2 ^ (-53 : Int) := by
    calc (2 : ℚ) ^ e / 2 = 2 ^ (e + 52) * 2 ^ (-53 : Int) := by
          rw [div_eq_mul_inv, ← zpow_neg_one, ← zpow_add₀ two_ne_zero, ← zpow_add₀ two_ne_zero]
          congr 1
          ring
      _ ≤ x * 2 ^ (-53 : Int) := by gcongr
  have hscaled : x / 2 ^ e * 2 ^ e = x := div_mul_cancel₀ x hunit.ne'
  constructor
  · have hexp : 0 < e + 53 := by
      refine (zpow_lt_zpow_iff_right₀ (one_lt_two : (1 : ℚ) < 2)).1 ?_
      rw [zpow_zero]
      linarith
    calc (1 : ℚ) = 2 ^ (0 : Int) := (zpow_zero _).symm
      _ ≤ 2 ^ (52 + e) := zpow_le_zpow_right₀ one_le_two (by omega)
      _ = 2 ^ 52 * 2 ^ e := by
        rw [zpow_add₀ two_ne_zero]
        norm_cast
      _ ≤ q * 2 ^ e := by gcongr
  · calc q * 2 ^ e ≤ (x / 2 ^ e + 1 / 2) * 2 ^ e := by
          gcongr
          linarith
      _ = x + 2 ^ e / 2 := by
          rw [add_mul, hscaled]
          ring
      _ ≤ x * (1 + 2 ^ (-53 : Int)) := by linarith

theorem fields_of_bits {f r : Nat} (hr : r < 2 ^ 52) (hf : f < 2047) :
    exponentField ⟨UInt64.ofNat (f * 2 ^ 52 + r)⟩ = f ∧
      fractionField ⟨UInt64.ofNat (f * 2 ^ 52 + r)⟩ = r ∧
      isNegative ⟨UInt64.ofNat (f * 2 ^ 52 + r)⟩ = false := by
  have hlt : f * 2 ^ 52 + r < 2 ^ 64 := by omega
  have hbits : (UInt64.ofNat (f * 2 ^ 52 + r)).toNat = f * 2 ^ 52 + r :=
    UInt64.toNat_ofNat_of_lt' hlt
  refine ⟨?_, ?_, ?_⟩
  · rw [exponentField, hbits, Nat.shiftRight_eq_div_pow, Nat.one_shiftLeft]
    omega
  · rw [fractionField, hbits, Nat.one_shiftLeft]
    omega
  · rw [isNegative, hbits, Nat.one_shiftLeft, decide_eq_false_iff_not]
    omega

theorem isFinite_of_bits {f r : Nat} (hr : r < 2 ^ 52) (hf : f < 2047) :
    isFinite ⟨UInt64.ofNat (f * 2 ^ 52 + r)⟩ = true := by
  rw [isFinite, (fields_of_bits hr hf).1, decide_eq_true_eq]
  omega

theorem magnitude_of_bits {f r : Nat} (hr : r < 2 ^ 52) (hf : f < 2047) :
    magnitude ⟨UInt64.ofNat (f * 2 ^ 52 + r)⟩ =
      if f = 0 then (r, -1074) else (r + 2 ^ 52, (f : Int) - 1075) := by
  obtain ⟨hexponent, hfraction, -⟩ := fields_of_bits hr hf
  rw [magnitude, hexponent, hfraction, Nat.one_shiftLeft]

/-- The bits of at most `2 ^ 53` units denote these units. Fewer than `2 ^ 52` units are subnormal, and
`2 ^ 53` of them carry into the exponent. -/
theorem exists_fields {q : Nat} (hq : q ≤ 2 ^ 53) (he : -1074 ≤ e) (hnormal : -1074 < e → 2 ^ 52 ≤ q) :
    ∃ f r m : Nat, ∃ g : Int, r < 2 ^ 52 ∧
      (if q < 1 <<< 52 then q else ((e + 1075).toNat <<< 52) + (q - (1 <<< 52))) = f * 2 ^ 52 + r ∧
      (if f = 0 then (r, -1074) else (r + 2 ^ 52, (f : Int) - 1075)) = (m, g) ∧
      (m : ℚ) * 2 ^ g = q * 2 ^ e ∧ (q % 2 = 0 → m % 2 = 0) := by
  rw [Nat.one_shiftLeft, Nat.shiftLeft_eq]
  obtain hsmall | hlarge := Nat.lt_or_ge q (2 ^ 52)
  · obtain rfl : e = -1074 := by
      by_contra hne
      exact absurd (hnormal (by omega)) (not_le.2 hsmall)
    exact ⟨0, q, q, -1074, hsmall, by rw [if_pos hsmall, Nat.zero_mul, Nat.zero_add], rfl, rfl, id⟩
  · rw [if_neg (not_lt.2 hlarge)]
    obtain hlt | rfl := hq.lt_or_eq
    · refine ⟨(e + 1075).toNat, q - 2 ^ 52, q, e, by omega, rfl, ?_, rfl, id⟩
      rw [if_neg (by omega), Nat.sub_add_cancel hlarge]
      congr 1
      omega
    · refine ⟨(e + 1075).toNat + 1, 0, 2 ^ 52, e + 1, by norm_num, by omega, ?_, ?_, by norm_num⟩
      · rw [if_neg (by omega), Nat.zero_add]
        congr 1
        omega
      · rw [zpow_add_one₀ two_ne_zero]
        push_cast
        ring

theorem bits_lt_iff {f r m : Nat} {g : Int} (hr : r < 2 ^ 52)
    (h : (if f = 0 then (r, -1074) else (r + 2 ^ 52, (f : Int) - 1075)) = (m, g)) :
    f * 2 ^ 52 + r < 2047 <<< 52 ↔ (m : ℚ) * 2 ^ g < 2 ^ (1024 : Int) := by
  have hbits : f * 2 ^ 52 + r < 2047 <<< 52 ↔ f < 2047 := by
    rw [Nat.shiftLeft_eq]
    omega
  have hm : m < 2 ^ 53 ∧ (f ≠ 0 → 2 ^ 52 ≤ m ∧ (f : Int) = g + 1075) ∧ (f = 0 → g = -1074) := by
    split at h <;> cases h <;> omega
  obtain ⟨hm, hnormal, hsubnormal⟩ := hm
  rw [hbits]
  constructor
  · intro hf
    exact lt_two_zpow hm (by omega)
  · intro hlt
    by_contra hf
    obtain ⟨hlow, hg⟩ := hnormal (by omega)
    exact absurd hlt (not_lt.2 (two_zpow_le hlow (by omega)))

theorem ofRatio_spec (hnum : 0 < num) (hden : 0 < den) {q : Nat} (hq : q = roundUnits num den e)
    (he : e = unitExponent num den) :
    ((q : ℚ) * 2 ^ e < 2 ^ (1024 : Int) →
      (ofRatio num den).isFinite = true ∧ (ofRatio num den).isNegative = false ∧
      (ofRatio num den).absValue = q * 2 ^ e ∧ (q % 2 = 0 → (ofRatio num den).magnitude.1 % 2 = 0)) ∧
    ((2 : ℚ) ^ (1024 : Int) ≤ q * 2 ^ e → ofRatio num den = infinity) := by
  obtain ⟨hlowest, -, hnormal⟩ := unitExponent_spec hnum hden
  obtain ⟨f, r, m, g, hr, hbits, hfields, hvalue, heven⟩ := exists_fields (roundUnits_le hnum hden) hlowest
    fun h => le_roundUnits hden (hnormal h)
  rw [← he, ← hq] at hbits hvalue heven
  have hround : ofRatio num den =
      if f * 2 ^ 52 + r < 2047 <<< 52 then ⟨UInt64.ofNat (f * 2 ^ 52 + r)⟩ else infinity := by
    rw [ofRatio, if_neg hnum.ne']
    simp only [← he, ← hq, hbits]
  rw [hround, ← hvalue]
  constructor
  · intro hlt
    have hsmall := (bits_lt_iff hr hfields).2 hlt
    have hf : f < 2047 := by
      rw [Nat.shiftLeft_eq] at hsmall
      omega
    have hmagnitude := magnitude_of_bits hr hf
    rw [hfields] at hmagnitude
    rw [if_pos hsmall, absValue, hmagnitude]
    exact ⟨isFinite_of_bits hr hf, (fields_of_bits hr hf).2.2, rfl, heven⟩
  · intro hle
    rw [if_neg fun hsmall => absurd hle (not_le.2 ((bits_lt_iff hr hfields).1 hsmall))]

/-- A quotient of at least one that stays below the infinite numbers rounds to a finite number of at
least one, which exceeds it by one part in `2 ^ 53` at most. -/
theorem ofRatio_bounds (hden : 0 < den) (hle : den ≤ num)
    (hlt : (num : ℚ) / den * (1 + 2 ^ (-53 : Int)) < 2 ^ (1024 : Int)) :
    (ofRatio num den).isFinite = true ∧ 1 ≤ (ofRatio num den).absValue ∧
      (ofRatio num den).absValue ≤ (num : ℚ) / den * (1 + 2 ^ (-53 : Int)) := by
  obtain ⟨hone, hvalue⟩ := rounded_bounds hden hle
  obtain ⟨hfinite, -, habs, -⟩ :=
    (ofRatio_spec (hden.trans_le hle) hden rfl rfl).1 (hvalue.trans_lt hlt)
  rw [habs]
  exact ⟨hfinite, hone, hvalue⟩

theorem ofNat_bounds {n : Nat} (hn : 0 < n)
    (hlt : (n : ℚ) * (1 + 2 ^ (-53 : Int)) < 2 ^ (1024 : Int)) :
    1 ≤ (ofNat n).absValue ∧ (ofNat n).absValue ≤ n * (1 + 2 ^ (-53 : Int)) := by
  have h := @ofRatio_bounds n 1 Nat.one_pos hn (by simpa using hlt)
  simpa [ofNat] using h.2

/-- The product of two integers rounded to numbers is finite when it stays below the infinite
numbers with three parts in `2 ^ 53` to spare. -/
theorem mulAbs_ofNat_isFinite {m n : Nat} (hm : 0 < m) (hn : 0 < n)
    (hlt : (m : ℚ) * n * (1 + 2 ^ (-53 : Int)) ^ 3 < 2 ^ (1024 : Int)) :
    ((ofNat m).mulAbs (ofNat n)).isFinite = true := by
  have hslack : (1 : ℚ) ≤ 1 + 2 ^ (-53 : Int) := by
    have : (0 : ℚ) < 2 ^ (-53 : Int) := by positivity
    linarith
  have hm' : (1 : ℚ) ≤ m := by exact_mod_cast hm
  have hn' : (1 : ℚ) ≤ n := by exact_mod_cast hn
  have hbound : ∀ k : ℚ, 0 ≤ k → k ≤ m * n → k * (1 + 2 ^ (-53 : Int)) < 2 ^ (1024 : Int) := by
    intro k hk hle
    refine lt_of_le_of_lt ?_ hlt
    calc k * (1 + 2 ^ (-53 : Int)) ≤ m * n * (1 + 2 ^ (-53 : Int)) := by gcongr
      _ ≤ m * n * (1 + 2 ^ (-53 : Int)) ^ 3 := by
        gcongr
        exact le_self_pow₀ hslack (by norm_num)
  obtain ⟨ha, hahigh⟩ := ofNat_bounds hm (hbound m (by positivity) (by nlinarith))
  obtain ⟨hb, hbhigh⟩ := ofNat_bounds hn (hbound n (by positivity) (by nlinarith))
  have hproduct : (((ofNat m).ratio.1 * (ofNat n).ratio.1 : Nat) : ℚ) /
      ((ofNat m).ratio.2 * (ofNat n).ratio.2 : Nat) = (ofNat m).absValue * (ofNat n).absValue := by
    rw [← ratio_eq, ← ratio_eq]
    push_cast
    rw [div_mul_div_comm]
  have hpos : 0 < (ofNat m).ratio.2 * (ofNat n).ratio.2 := Nat.mul_pos (ratio_pos _) (ratio_pos _)
  have hmul : (ofNat m).mulAbs (ofNat n) = ofRatio ((ofNat m).ratio.1 * (ofNat n).ratio.1)
      ((ofNat m).ratio.2 * (ofNat n).ratio.2) := rfl
  rw [hmul]
  refine (ofRatio_bounds hpos ?_ ?_).1
  · rw [← Nat.cast_le (α := ℚ), ← one_le_div (by exact_mod_cast hpos), hproduct]
    nlinarith
  · rw [hproduct]
    refine lt_of_le_of_lt ?_ hlt
    calc (ofNat m).absValue * (ofNat n).absValue * (1 + 2 ^ (-53 : Int))
        ≤ m * (1 + 2 ^ (-53 : Int)) * (n * (1 + 2 ^ (-53 : Int))) * (1 + 2 ^ (-53 : Int)) := by
          gcongr
      _ = m * n * (1 + 2 ^ (-53 : Int)) ^ 3 := by ring

end quotient
end PagePipes.Binary64
