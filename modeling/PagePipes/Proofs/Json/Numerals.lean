import PagePipes.Json.Document
import PagePipes.Json.Printer
import PagePipes.Proofs.Decimal.Distinct
import PagePipes.Proofs.Decimal.Literals

set_option autoImplicit false

/-!
# Written numbers are read

The text of a number reads as a numeral that has a value, whatever follows it but a digit, a point
or the letter of an exponent. The numeral of a float states its shortest decimal exactly. An integer
is read as itself. A float need not be: the digits are gathered into an integer that is rounded
before it is scaled.
-/
namespace PagePipes

/-- An integer that fits in 64 bits, with or without a sign. -/
def Number.Fits : Number → Prop
  | .int n => -2 ^ 63 ≤ n ∧ n < 2 ^ 64
  | .float _ => True

namespace Document

/-- A text that does not go on with a number. -/
def EndsNumber (rest : List Char) : Prop :=
  ∀ c ∈ rest.head?, isDigit c = false ∧ c ≠ '.' ∧ c ≠ 'e' ∧ c ≠ 'E'

def signText (negative : Bool) : List Char := if negative then ['-'] else []

/-- Digits without a zero ahead of others. -/
def IsWhole (ds : List Char) : Prop :=
  ds = ['0'] ∨ ∃ c cs, ds = c :: cs ∧ c ≠ '0' ∧ ∀ d ∈ ds, isDigit d = true

/-- A text that reads as one numeral in front of anything that ends it. -/
def Spells (text : List Char) (n : Numeral) : Prop :=
  ∀ rest, EndsNumber rest → readNumeral (text ++ rest) = some (n, rest)

/-- A text that reads as a numeral of a value in front of anything that ends it. -/
def Denotes (text : List Char) (v : Number) : Prop :=
  ∀ rest, EndsNumber rest →
    ∃ n, readNumeral (text ++ rest) = some (n, rest) ∧ n.value = some v

/-! ## Digits -/

section digits

variable {c : Char} {cs ds rest : List Char} {n : Nat}

theorem isDigit_eq (c : Char) : isDigit c = c.isDigit := Decimal.Literal.isDigit_eq c

theorem digitValue_lt (hc : isDigit c = true) : digitValue c < 10 := by
  have h : c.toNat ≤ '9'.toNat := by
    simp only [isDigit, decide_eq_true_eq] at hc
    exact hc.2
  have : '9'.toNat = 57 := rfl
  unfold digitValue
  omega

theorem isDigit_toDigits : ∀ c ∈ Nat.toDigits 10 n, isDigit c = true := by
  intro c hc
  rw [isDigit_eq]
  exact Nat.isDigit_of_mem_toDigits (by decide) (by decide) hc

theorem digitsValue_toDigits (n : Nat) : digitsValue (Nat.toDigits 10 n) = n := by
  have h := @Nat.ofDigitChars_ten_toDigits n
  simp only [Nat.ofDigitChars, Nat.mul_comm 10] at h
  exact h

theorem digitsValue_concat : digitsValue (cs ++ [c]) = digitsValue cs * 10 + digitValue c := by
  simp [digitsValue]

theorem digitsValue_zeros (k : Nat) : digitsValue (List.replicate k '0' ++ ds) = digitsValue ds := by
  induction k with
  | zero => rfl
  | succ k ih =>
    rw [List.replicate_succ, List.cons_append]
    exact ih

theorem digitsValue_append_zeros (k : Nat) :
    digitsValue (ds ++ List.replicate k '0') = digitsValue ds * 10 ^ k := by
  induction k with
  | zero => simp
  | succ k ih =>
    rw [List.replicate_succ', ← List.append_assoc, digitsValue_concat, ih, Nat.pow_succ, Nat.mul_assoc]
    rfl

theorem digitsValue_lt (h : ∀ c ∈ ds, isDigit c = true) : digitsValue ds < 10 ^ ds.length := by
  induction ds using List.reverseRecOn with
  | nil => exact Nat.one_pos
  | append_singleton ds c ih =>
    have hlt := ih fun d hd => h d (by simp [hd])
    have hc := digitValue_lt (h c (by simp))
    rw [digitsValue_concat, List.length_append, List.length_singleton, Nat.pow_succ]
    omega

theorem head_toDigits (hn : 0 < n) : ∃ c cs, Nat.toDigits 10 n = c :: cs ∧ c ≠ '0' := by
  induction n using Nat.strongRecOn with
  | ind n ih =>
    rw [Nat.toDigits_eq_if (by decide)]
    split
    · exact ⟨_, [], rfl, by rw [ne_eq, Nat.digitChar_eq_zero]; omega⟩
    · obtain ⟨c, cs, h, hc⟩ := ih (n / 10) (by omega) (by omega)
      exact ⟨c, cs ++ [Nat.digitChar (n % 10)], by rw [h]; rfl, hc⟩

theorem isWhole_toDigits (n : Nat) : IsWhole (Nat.toDigits 10 n) := by
  obtain rfl | hn := Nat.eq_zero_or_pos n
  · exact .inl rfl
  · obtain ⟨c, cs, h, hc⟩ := head_toDigits hn
    exact .inr ⟨c, cs, h, hc, isDigit_toDigits⟩

theorem takeWhile_digits (hds : ∀ d ∈ ds, isDigit d = true) (hrest : ∀ c ∈ rest.head?, isDigit c = false) :
    (ds ++ rest).takeWhile isDigit = ds ∧ (ds ++ rest).dropWhile isDigit = rest :=
  Decimal.Literal.takeWhile_digits (fun d hd => (isDigit_eq d).symm.trans (hds d hd))
    fun c hc => (isDigit_eq c).symm.trans (hrest c hc)

theorem EndsNumber.notDigit (h : EndsNumber rest) : ∀ c ∈ rest.head?, isDigit c = false :=
  fun c hc => (h c hc).1

end digits

/-! ## Reading a numeral -/

section reading

variable {negative : Bool} {whole fraction rest tail : List Char} {e : Int}

theorem readTail_end (h : EndsNumber rest) :
    readTail negative whole rest = some (⟨negative, whole, [], none⟩, rest) := by
  cases rest with
  | nil => rfl
  | cons c rest =>
    obtain ⟨-, hpoint, hlow, hhigh⟩ := h c rfl
    unfold readTail
    split
    · next heq => exact absurd (List.cons.inj heq).1 hpoint
    · next heq =>
      cases heq
      simp [hlow, hhigh]
    · next heq => cases heq

theorem readTail_fraction (hne : fraction ≠ []) (hf : ∀ d ∈ fraction, isDigit d = true)
    (h : EndsNumber rest) :
    readTail negative whole ('.' :: (fraction ++ rest)) =
      some (⟨negative, whole, fraction, none⟩, rest) := by
  obtain ⟨htake, hdrop⟩ := takeWhile_digits hf h.notDigit
  have hempty : fraction.isEmpty = false := by simpa using hne
  simp only [readTail, htake, hdrop, hempty]
  cases rest with
  | nil => rfl
  | cons c rest =>
    obtain ⟨-, -, hlow, hhigh⟩ := h c rfl
    simp [hlow, hhigh]

/-- The text of an exponent behind its letter. -/
def exponentText (e : Int) : List Char :=
  (if e < 0 then '-' else '+') :: Nat.toDigits 10 e.natAbs

theorem readExponent_text (h : ∀ c ∈ rest.head?, isDigit c = false) :
    readExponent (exponentText e ++ rest) = some (e, rest) := by
  obtain ⟨htake, hdrop⟩ := takeWhile_digits (@isDigit_toDigits e.natAbs) h
  have hempty : (Nat.toDigits 10 e.natAbs).isEmpty = false := by simp
  unfold exponentText readExponent
  by_cases he : e < 0
  · simp only [he, ↓reduceIte, List.cons_append, htake, hdrop, hempty, digitsValue_toDigits]
    simp only [Bool.false_eq_true, ↓reduceIte, Option.some.injEq, Prod.mk.injEq, and_true]
    omega
  · simp only [he, ↓reduceIte, List.cons_append, htake, hdrop, hempty, digitsValue_toDigits]
    simp only [Bool.false_eq_true, ↓reduceIte, Option.some.injEq, Prod.mk.injEq, and_true]
    omega

theorem readTail_exponent (h : ∀ c ∈ rest.head?, isDigit c = false) :
    readTail negative whole ('e' :: (exponentText e ++ rest)) =
      some (⟨negative, whole, [], some e⟩, rest) := by
  simp [readTail, readExponent_text h]

theorem readTail_fraction_exponent (hne : fraction ≠ []) (hf : ∀ d ∈ fraction, isDigit d = true)
    (h : ∀ c ∈ rest.head?, isDigit c = false) :
    readTail negative whole ('.' :: (fraction ++ 'e' :: (exponentText e ++ rest))) =
      some (⟨negative, whole, fraction, some e⟩, rest) := by
  have hletter : ∀ c ∈ ('e' :: (exponentText e ++ rest)).head?, isDigit c = false := by
    rintro c ⟨⟩
    decide
  obtain ⟨htake, hdrop⟩ := takeWhile_digits hf hletter
  have hempty : fraction.isEmpty = false := by simpa using hne
  simp only [readTail, htake, hdrop, hempty, readExponent_text h]
  rfl

theorem readNumeral_whole (hw : IsWhole whole) (h : ∀ c ∈ tail.head?, isDigit c = false) :
    readNumeral (signText negative ++ (whole ++ tail)) = readTail negative whole tail := by
  unfold signText
  obtain rfl | ⟨c, cs, rfl, hzero, hds⟩ := hw
  · cases negative <;> cases tail with
    | nil => rfl
    | cons d rest => simp [readNumeral, h d rfl]
  · obtain ⟨htake, hdrop⟩ := takeWhile_digits (fun d hd => hds d (List.mem_cons_of_mem c hd)) h
    have hc : isDigit c = true := hds c (by simp)
    have hminus : c ≠ '-' := by
      rintro rfl
      exact absurd hc (by decide)
    cases negative with
    | false => simp [readNumeral, hc, hminus, htake, hdrop]
    | true => simp [readNumeral, hc, htake, hdrop]

end reading

/-! ## The value of a numeral -/

section value

variable {negative : Bool} {whole fraction cs : List Char} {exponent : Option Int} {e : Int}
  {s t : Nat}

theorem le_foldl_digits : s ≤ cs.foldl (fun n c => n * 10 + digitValue c) s := by
  induction cs generalizing s with
  | nil => exact Nat.le_refl s
  | cons c cs ih =>
    have hnext := @ih (s * 10 + digitValue c)
    rw [List.foldl_cons]
    omega

theorem gather_all (h : cs.foldl (fun n c => n * 10 + digitValue c) s ≤ significandLimit) :
    gather s t cs = (cs.foldl (fun n c => n * 10 + digitValue c) s, t + cs.length, []) := by
  induction cs generalizing s t with
  | nil => rfl
  | cons c cs ih =>
    rw [List.foldl_cons] at h ⊢
    have hnext : ¬ significandLimit < s * 10 + digitValue c :=
      Nat.not_lt.2 (le_foldl_digits.trans h)
    rw [gather]
    simp only [hnext, ↓reduceIte]
    rw [ih h, List.length_cons]
    simp only [Prod.mk.injEq, and_true, true_and]
    omega

theorem value_whole (h : digitsValue whole ≤ significandLimit)
    (hneg : negative = true → 0 < digitsValue whole ∧ digitsValue whole ≤ 2 ^ 63) :
    (⟨negative, whole, [], none⟩ : Numeral).value =
      some (.int (if negative then -(digitsValue whole : Int) else digitsValue whole)) := by
  have hgather := @gather_all whole 0 0 h
  rw [← digitsValue] at hgather
  cases negative with
  | false => simp [Numeral.value, hgather]
  | true =>
    have hfits : ¬ 9223372036854775808 < digitsValue whole := by simpa using (hneg rfl).2
    simp [Numeral.value, hgather, (hneg rfl).1, hfits]

/-- All digits of a numeral as one integer. -/
def Numeral.significand (n : Numeral) : Nat := digitsValue (n.whole ++ n.fraction)

/-- The exponent that belongs to the significand. -/
def Numeral.scale (n : Numeral) : Int := n.exponent.getD 0 - (n.fraction.length : Int)

/-- Written with a fraction or an exponent, as integers never are. -/
def Numeral.IsDecimal (n : Numeral) : Prop := n.fraction ≠ [] ∨ n.exponent.isSome = true

theorem value_decimal {n : Numeral} (h : n.significand ≤ significandLimit) (hdecimal : n.IsDecimal) :
    n.value = floatOf n.negative n.significand n.scale := by
  obtain ⟨negative, whole, fraction, exponent⟩ := n
  simp only [Numeral.significand, Numeral.scale, Numeral.IsDecimal] at h hdecimal ⊢
  have hfold : (digitsValue (whole ++ fraction)) =
      fraction.foldl (fun n c => n * 10 + digitValue c) (digitsValue whole) := by
    simp [digitsValue]
  have hwhole := @gather_all whole 0 0 ((hfold ▸ le_foldl_digits).trans h)
  have hfraction := @gather_all fraction (digitsValue whole) 0 (hfold ▸ h)
  rw [← digitsValue] at hwhole
  rw [← hfold] at hfraction
  have hkind : (fraction.isEmpty && exponent.isNone) = false := by
    cases fraction <;> cases exponent <;> simp_all
  unfold Numeral.value
  simp only [hwhole, hfraction, List.isEmpty_nil, Bool.true_and, hkind, Bool.false_and,
    Bool.false_eq_true, ↓reduceIte, List.length_nil, Nat.zero_add]
  congr 1
  omega

theorem gather_le (h : s ≤ significandLimit) : (gather s t cs).1 ≤ significandLimit := by
  induction cs generalizing s t with
  | nil => exact h
  | cons c cs ih =>
    rw [gather]
    split
    · exact h
    · exact ih (by omega)

theorem fits_of_value {n : Numeral} {v : Number} (h : n.value = some v) : v.Fits := by
  have hwhole := @gather_le n.whole 0 0 (Nat.zero_le _)
  have hlimit : significandLimit < 2 ^ 64 := by decide
  unfold Numeral.value at h
  generalize gather 0 0 n.whole = r at h hwhole
  obtain ⟨whole, taken, left⟩ := r
  dsimp only at h hwhole
  split_ifs at h with hpos hneg
  · cases h
    constructor <;> omega
  · cases h
    have hsmall : whole ≤ 1 <<< 63 := by
      simp only [Bool.and_eq_true, decide_eq_true_eq] at hneg
      exact hneg.2.2
    rw [Nat.one_shiftLeft] at hsmall
    constructor <;> omega
  · unfold floatOf at h
    obtain ⟨x, -, rfl⟩ := Option.map_eq_some_iff.1 h
    trivial

theorem scale_isSome_of_neg {x : Binary64} (he : e < 0) (fuel : Nat) :
    (scale fuel x e).isSome = true := by
  induction fuel generalizing x e with
  | zero => rfl
  | succ fuel ih =>
    unfold scale
    split
    · rfl
    · split
      · next hsmall => exact ih (by omega)
      · rw [if_neg (by omega), if_neg (by omega)]
        rfl

theorem floatOf_of_neg (he : e < 0) : ∃ v, floatOf negative s e = some v := by
  rw [← Option.isSome_iff_exists, floatOf, Option.isSome_map]
  exact scale_isSome_of_neg he 5

theorem floatOf_of_finite (he : 0 ≤ e) (hsmall : e ≤ 308)
    (h : ((Binary64.ofNat s).mulAbs (powerOfTen e.toNat)).isFinite = true) :
    ∃ v, floatOf negative s e = some v := by
  rw [← Option.isSome_iff_exists, floatOf, Option.isSome_map]
  unfold scale
  split
  · rfl
  · simp only [if_neg (show ¬ e < -308 by omega), if_neg (show ¬ 308 < e by omega), h, ↓reduceIte,
      Option.isSome_some]

end value

/-! ## Numbers as they are written -/

section written

variable {n : Int} {x : Binary64} {negative : Bool} {whole fraction : List Char}

theorem toList_toString (n : Int) :
    (toString n).toList = signText (decide (n < 0)) ++ Nat.toDigits 10 n.natAbs := by
  cases n with
  | ofNat m =>
    have hm : ¬ (Int.ofNat m < 0) := Int.not_lt.2 (Int.natCast_nonneg m)
    simp only [signText, hm, decide_false, Bool.false_eq_true, ↓reduceIte, List.nil_append]
    exact Nat.toList_repr
  | negSucc m =>
    have hm : Int.negSucc m < 0 := Int.negSucc_lt_zero m
    simp only [signText, hm, decide_true, ↓reduceIte]
    exact (String.toList_append).trans (congrArg _ Nat.toList_repr)

theorem Spells.denotes {text : List Char} {n : Numeral} {v : Number} (h : Spells text n)
    (hv : n.value = some v) : Denotes text v :=
  fun rest hrest => ⟨n, h rest hrest, hv⟩

theorem spells_int (n : Int) :
    Spells (toString n).toList ⟨decide (n < 0), Nat.toDigits 10 n.natAbs, [], none⟩ := by
  intro rest hrest
  rw [toList_toString, List.append_assoc, readNumeral_whole (isWhole_toDigits _) hrest.notDigit,
    readTail_end hrest]

theorem denotes_int (h : (Number.int n).Fits) : Denotes (toString n).toList (.int n) := by
  refine (spells_int n).denotes ?_
  obtain ⟨hlow, hhigh⟩ := h
  rw [value_whole]
  · rw [digitsValue_toDigits]
    congr 2
    split
    · next hneg =>
      have := of_decide_eq_true hneg
      omega
    · next hneg =>
      have := of_decide_eq_false (Bool.eq_false_iff.2 hneg)
      omega
  · rw [digitsValue_toDigits, significandLimit, Nat.one_shiftLeft]
    omega
  · rw [digitsValue_toDigits, decide_eq_true_eq]
    omega

/-- The text of a float: it states a sign, a significand and its decimal exponent. -/
def SpellsDecimal (text : List Char) (negative : Bool) (s : Nat) (e : Int) : Prop :=
  ∃ n, Spells text n ∧ n.IsDecimal ∧ n.negative = negative ∧ n.significand = s ∧ n.scale = e

theorem SpellsDecimal.denotes {text : List Char} {s : Nat} {e : Int}
    (h : SpellsDecimal text negative s e) (hs : s ≤ significandLimit) {v : Number}
    (hv : floatOf negative s e = some v) : Denotes text v := by
  obtain ⟨n, hn, hdecimal, rfl, rfl, rfl⟩ := h
  exact hn.denotes ((value_decimal hs hdecimal).trans hv)

theorem spells_fraction (hw : IsWhole whole) (hne : fraction ≠ [])
    (hf : ∀ d ∈ fraction, isDigit d = true) :
    SpellsDecimal (signText negative ++ (whole ++ '.' :: fraction)) negative
      (digitsValue (whole ++ fraction)) (-(fraction.length : Int)) := by
  refine ⟨⟨negative, whole, fraction, none⟩, fun rest hrest => ?_, .inl hne, rfl, rfl,
    Int.zero_sub _⟩
  have hpoint : ∀ c ∈ ('.' :: (fraction ++ rest)).head?, isDigit c = false := by
    rintro c ⟨⟩
    decide
  rw [List.append_assoc, List.append_assoc, List.cons_append, readNumeral_whole hw hpoint,
    readTail_fraction hne hf hrest]

/-- A significand of one whole digit and the rest as a fraction, with an exponent. -/
theorem spells_scientific {c : Char} {ds : List Char} {e : Int} (hw : IsWhole [c])
    (hf : ∀ d ∈ ds, isDigit d = true) :
    SpellsDecimal (signText negative ++
      ((if ds = [] then [c] else c :: '.' :: ds) ++ 'e' :: exponentText e)) negative
      (digitsValue (c :: ds)) (e - ds.length) := by
  refine ⟨⟨negative, [c], ds, some e⟩, fun rest hrest => ?_, .inr rfl, rfl, rfl, rfl⟩
  split
  · next hnil =>
    subst hnil
    have hletter : ∀ d ∈ ('e' :: (exponentText e ++ rest)).head?, isDigit d = false := by
      rintro d ⟨⟩
      decide
    have htext : signText negative ++ ([c] ++ 'e' :: exponentText e) ++ rest =
        signText negative ++ ([c] ++ 'e' :: (exponentText e ++ rest)) := by simp
    rw [htext, readNumeral_whole hw hletter, readTail_exponent hrest.notDigit]
  · next hne =>
    have hpoint : ∀ d ∈ ('.' :: (ds ++ 'e' :: (exponentText e ++ rest))).head?,
        isDigit d = false := by
      rintro d ⟨⟩
      decide
    have htext : signText negative ++
        (c :: '.' :: ds ++ 'e' :: exponentText e) ++ rest =
        signText negative ++
          ([c] ++ '.' :: (ds ++ 'e' :: (exponentText e ++ rest))) := by simp
    rw [htext, readNumeral_whole hw hpoint, readTail_fraction_exponent hne hf hrest.notDigit]

/-- How the absolute value of a number other than zero is laid out; `n` digits `ds` stand for it
behind a factor of `10 ^ k`. -/
def bodyText (ds : List Char) (k : Int) : List Char :=
  let n : Int := ds.length
  if 0 ≤ k ∧ n + k ≤ 16 then ds ++ List.replicate k.toNat '0' ++ ['.', '0']
  else if 0 < n + k ∧ n + k ≤ 16 then ds.take (n + k).toNat ++ ['.'] ++ ds.drop (n + k).toNat
  else if -5 < n + k ∧ n + k ≤ 0 then ['0', '.'] ++ List.replicate (-(n + k)).toNat '0' ++ ds
  else (if ds.length = 1 then ds else ds.take 1 ++ ['.'] ++ ds.drop 1) ++ ['e'] ++
    exponentText (n + k - 1)

theorem render_eq (hzero : x.isZero = false) :
    (Decimal.Shortest.render Json.numberLayout x).toList = signText x.isNegative ++
      bodyText (Nat.toDigits 10 (Decimal.Shortest.digits x).1) (Decimal.Shortest.digits x).2 := by
  unfold Decimal.Shortest.render
  simp only [hzero, Bool.false_eq_true, ↓reduceIte, String.toList_append, String.toList_ofList]
  congr 1
  · unfold signText
    split <;> rfl
  · have hexponent : ∀ e : Int, (if e < 0 then "-" else
        if Json.numberLayout.plus then "+" else "").toList ++ Nat.toDigits 10 e.natAbs =
          exponentText e := by
      intro e
      unfold exponentText
      split <;> rfl
    simp only [hexponent]
    rfl

theorem isDigit_zeros {n : Nat} : ∀ d ∈ List.replicate n '0', isDigit d = true := by
  intro d hd
  rw [List.eq_of_mem_replicate hd]
  decide

theorem spells_zero : SpellsDecimal (signText negative ++ ['0', '.', '0']) negative 0 (-1) :=
  @spells_fraction negative ['0'] ['0'] (.inl rfl) (by simp) (@isDigit_zeros 1)

section body

variable {c : Char} {cs ds : List Char} {k : Int}

theorem spells_integer (hds : ∀ d ∈ c :: cs, isDigit d = true) (hc : c ≠ '0') (places : Nat) :
    SpellsDecimal (signText negative ++ (c :: cs ++ List.replicate places '0' ++ ['.', '0']))
      negative (digitsValue (c :: cs) * 10 ^ (places + 1)) (-1) := by
  have hdigits : ∀ d ∈ c :: cs ++ List.replicate places '0', isDigit d = true :=
    fun d hd => (List.mem_append.1 hd).elim (hds d) (isDigit_zeros d)
  have hw : IsWhole (c :: cs ++ List.replicate places '0') :=
    .inr ⟨c, cs ++ List.replicate places '0', rfl, hc, hdigits⟩
  have hvalue : digitsValue (c :: cs ++ List.replicate places '0' ++ ['0']) =
      digitsValue (c :: cs) * 10 ^ (places + 1) := by
    rw [List.append_assoc, ← List.replicate_succ', digitsValue_append_zeros]
  have h := @spells_fraction negative _ ['0'] hw (by simp) (@isDigit_zeros 1)
  rwa [hvalue] at h

/-- An integer with a zero behind the point is stated in tenths. -/
theorem tenths_bounds (hds : ∀ d ∈ ds, isDigit d = true) {places : Nat}
    (hfew : ds.length + places ≤ 16) : digitsValue ds * 10 ^ (places + 1) < 10 ^ 17 ∧
      ((digitsValue ds * 10 ^ (places + 1) : Nat) : ℚ) * 10 ^ (-1 : Int) =
        digitsValue ds * 10 ^ (places : Int) := by
  constructor
  · calc digitsValue ds * 10 ^ (places + 1) < 10 ^ ds.length * 10 ^ (places + 1) := by
          gcongr
          exact digitsValue_lt hds
      _ = 10 ^ (ds.length + (places + 1)) := (Nat.pow_add ..).symm
      _ ≤ 10 ^ 17 := Nat.pow_le_pow_right (by decide) (by omega)
  · rw [Nat.cast_mul, Nat.cast_pow, Nat.cast_ofNat, ← zpow_natCast, mul_assoc,
      ← zpow_add₀ (by norm_num)]
    push_cast
    rw [add_neg_cancel_right]

theorem spells_pointed (hds : ∀ d ∈ c :: cs, isDigit d = true) (hc : c ≠ '0') {m : Nat}
    (hm : m < cs.length) :
    SpellsDecimal (signText negative ++ ((c :: cs).take (m + 1) ++ ['.'] ++ (c :: cs).drop (m + 1)))
      negative (digitsValue (c :: cs)) ((m : Int) - cs.length) := by
  have hw : IsWhole ((c :: cs).take (m + 1)) :=
    .inr ⟨c, cs.take m, rfl, hc, fun d hd => hds d (List.mem_of_mem_take hd)⟩
  have hne : (c :: cs).drop (m + 1) ≠ [] := by
    rw [List.drop_succ_cons, ne_eq, List.drop_eq_nil_iff]
    omega
  have hlength : -(((c :: cs).drop (m + 1)).length : Int) = (m : Int) - cs.length := by
    rw [List.drop_succ_cons, List.length_drop]
    omega
  have h := @spells_fraction negative _ _ hw hne fun d hd => hds d (List.mem_of_mem_drop hd)
  rw [List.take_append_drop, hlength] at h
  simpa using h

theorem spells_small (hds : ∀ d ∈ ds, isDigit d = true) (hne : ds ≠ []) (m : Nat) :
    SpellsDecimal (signText negative ++ (['0', '.'] ++ List.replicate m '0' ++ ds)) negative
      (digitsValue ds) (-((m : Int) + ds.length)) := by
  have hlead : digitsValue (['0'] ++ (List.replicate m '0' ++ ds)) = digitsValue ds :=
    @digitsValue_zeros ds (m + 1)
  have h := @spells_fraction negative ['0'] (List.replicate m '0' ++ ds) (.inl rfl)
    (by simp [hne]) fun d hd => (List.mem_append.1 hd).elim (isDigit_zeros d) (hds d)
  rw [hlead, List.length_append, List.length_replicate, Nat.cast_add] at h
  simpa using h

end body

/-- The digits of a positive number are stated with their power of ten, or as an integer with one
zero behind the point. -/
theorem spells_body {g : Nat} {k : Int} (hg : 0 < g) :
    SpellsDecimal (signText negative ++ bodyText (Nat.toDigits 10 g) k) negative g k ∨
      ∃ s, SpellsDecimal (signText negative ++ bodyText (Nat.toDigits 10 g) k) negative s (-1) ∧
        s < 10 ^ 17 ∧ (s : ℚ) * 10 ^ (-1 : Int) = g * 10 ^ k := by
  obtain ⟨c, cs, hds, hc⟩ := head_toDigits hg
  have hdigits := @isDigit_toDigits g
  have hvalue := digitsValue_toDigits g
  rw [hds] at hdigits hvalue ⊢
  unfold bodyText
  simp only [List.length_cons, Nat.cast_add, Nat.cast_one]
  split
  · next h =>
    obtain ⟨places, rfl⟩ := Int.eq_ofNat_of_zero_le h.1
    have hbounds := @tenths_bounds _ hdigits places (by rw [List.length_cons]; omega)
    refine .inr ⟨_, spells_integer hdigits hc places, ?_⟩
    rwa [hvalue] at hbounds ⊢
  · split
    · next hneg h =>
      obtain ⟨m, hm⟩ : ∃ m, ((cs.length : Int) + 1 + k).toNat = m + 1 :=
        ⟨((cs.length : Int) + k).toNat, by omega⟩
      have hk : (m : Int) - cs.length = k := by omega
      rw [hm, ← hvalue, ← hk]
      exact .inl (spells_pointed hdigits hc (by omega))
    · split
      · next h =>
        obtain ⟨m, hm⟩ : ∃ m : Nat, -((cs.length : Int) + 1 + k) = m :=
          Int.eq_ofNat_of_zero_le (by omega)
        have h := @spells_small negative _ hdigits (by simp) m
        rw [hvalue, List.length_cons, show -((m : Int) + ((cs.length + 1 : Nat) : Int)) = k by
          push_cast; omega] at h
        rw [hm, Int.toNat_natCast]
        exact .inl h
      · have hw : IsWhole [c] := .inr ⟨c, [], rfl, hc, fun d hd => hdigits d (by simp_all)⟩
        have hrest : ∀ d ∈ cs, isDigit d = true := fun d hd => hdigits d (List.mem_cons_of_mem c hd)
        have h := @spells_scientific negative c cs (cs.length + k) hw hrest
        rw [hvalue, show (cs.length : Int) + k - cs.length = k by omega] at h
        rw [show (cs.length : Int) + 1 + k - 1 = cs.length + k by omega]
        left
        cases cs <;> simpa using h

theorem spells_float (h : x.isFinite = true) :
    ∃ s e, SpellsDecimal (Json.numberText (.float x)).toList x.isNegative s e ∧
      (s : ℚ) * 10 ^ e = Decimal.Shortest.decimalValue x ∧
      (s < 10 ^ 17 ∧ e = -1 ∨ x.isZero = false ∧ (s, e) = Decimal.Shortest.digits x) := by
  have htext : Json.numberText (.float x) = Decimal.Shortest.render Json.numberLayout x := by
    simp [Json.numberText, h]
  have hsign : (if x.isNegative then "-" else "").toList = signText x.isNegative := by
    unfold signText
    split <;> rfl
  rw [htext]
  unfold Decimal.Shortest.decimalValue
  cases hzero : x.isZero with
  | true =>
    have hzeros : Decimal.Shortest.render Json.numberLayout x =
        (if x.isNegative then "-" else "") ++ "0.0" := by simp [Decimal.Shortest.render, hzero]
    rw [hzeros, String.toList_append, hsign]
    exact ⟨0, -1, spells_zero, by simp, .inl ⟨by norm_num, rfl⟩⟩
  | false =>
    rw [render_eq hzero]
    obtain hbody | ⟨s, hbody, hs, hvalue⟩ := @spells_body x.isNegative _
      (Decimal.Shortest.digits x).2 (Decimal.Shortest.digits_bounds h hzero).1
    · exact ⟨_, _, hbody, rfl, .inr ⟨rfl, rfl⟩⟩
    · exact ⟨s, -1, hbody, hvalue, .inl ⟨hs, rfl⟩⟩

theorem denotes_float (h : x.isFinite = true) : ∃ v, Denotes (Json.numberText (.float x)).toList v := by
  have hlimit : 10 ^ 18 ≤ significandLimit := by decide
  obtain ⟨s, e, hspells, -, ⟨hs, rfl⟩ | ⟨hzero, hdigits⟩⟩ := spells_float h
  · obtain ⟨v, hv⟩ := @floatOf_of_neg x.isNegative (-1) s (by omega)
    exact ⟨v, hspells.denotes (by omega) hv⟩
  · obtain ⟨-, hsize, -⟩ := Decimal.Shortest.digits_bounds h hzero
    have hfinite := @Decimal.Shortest.reread_isFinite x h hzero
    unfold Decimal.Shortest.reread at hfinite
    rw [← hdigits] at hsize hfinite
    obtain ⟨v, hv⟩ : ∃ v, floatOf x.isNegative s e = some v := by
      obtain he | he := Int.lt_or_le e 0
      · exact floatOf_of_neg he
      · exact floatOf_of_finite he (hfinite he).1 (hfinite he).2
    exact ⟨v, hspells.denotes (by omega) hv⟩

end written

theorem head_of_readNumeral {text rest : List Char} {n : Numeral}
    (h : readNumeral text = some (n, rest)) :
    ∃ c cs, text = c :: cs ∧ (c = '-' ∨ isDigit c = true) := by
  cases text with
  | nil => simp [readNumeral] at h
  | cons c cs =>
    refine ⟨c, cs, rfl, ?_⟩
    by_contra hc
    obtain ⟨hminus, hdigit⟩ := not_or.1 hc
    have hzero : c ≠ '0' := by
      rintro rfl
      exact hdigit (by decide)
    simp [readNumeral, hminus, hdigit] at h

theorem Spells.head {text : List Char} {n : Numeral} (h : Spells text n) :
    ∃ c cs, text = c :: cs ∧ (c = '-' ∨ isDigit c = true) := by
  have hn := h [] (by simp [EndsNumber])
  rw [List.append_nil] at hn
  exact head_of_readNumeral hn

theorem Denotes.head {text : List Char} {v : Number} (h : Denotes text v) :
    ∃ c cs, text = c :: cs ∧ (c = '-' ∨ isDigit c = true) := by
  obtain ⟨n, hn, -⟩ := h [] (by simp [EndsNumber])
  rw [List.append_nil] at hn
  exact head_of_readNumeral hn

end Document

/-- What a number is read as after it has been written. A number that is not finite is written as
null. -/
def Number.reread : Number → Json
  | .int n => .num (.int n)
  | .float x =>
    if x.isFinite then
      match Document.readNumeral (Json.numberText (.float x)).toList with
      | some (n, _) => (n.value.map Json.num).getD .null
      | none => .null
    else .null

theorem Number.reread_eq (n : Number) :
    n.reread = .num n ∨ n.reread = .null ∨ ∃ v : Number, n.reread = .num v ∧ v.Fits := by
  cases n with
  | int n => exact .inl rfl
  | float x =>
    rw [reread]
    split
    · split
      · next m _ _ =>
        cases hm : m.value with
        | none => exact .inr (.inl rfl)
        | some v => exact .inr (.inr ⟨v, rfl, Document.fits_of_value hm⟩)
      · exact .inr (.inl rfl)
    · exact .inr (.inl rfl)

theorem Number.reread_float {x : Binary64} (h : x.isFinite = true) :
    ∃ v, (Number.float x).reread = .num v ∧
      Document.Denotes (Json.numberText (.float x)).toList v := by
  obtain ⟨v, hv⟩ := Document.denotes_float h
  obtain ⟨n, hn, hvalue⟩ := hv [] (by simp [Document.EndsNumber])
  rw [List.append_nil] at hn
  exact ⟨v, by simp [Number.reread, h, hn, hvalue], hv⟩

end PagePipes
