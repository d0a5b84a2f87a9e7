import PagePipes.Decimal.Literal
import PagePipes.Proofs.Decimal.Nearest

set_option autoImplicit false

/-!
# What number texts denote

The grammar of integers and floats, with the value that each text denotes. Reading a text succeeds just
for the texts of the grammar. An integer is read exactly, and a decimal number as the float nearest to it.
-/
namespace PagePipes.Decimal.Literal

def IsDigits (cs : List Char) : Prop := ∀ c ∈ cs, c.isDigit = true

def digitsValue (cs : List Char) : Nat := Nat.ofDigitChars 10 cs 0

/-- One or more digits, behind a plus sign or no sign. -/
def DenotesNatural (s : String) (n : Nat) : Prop :=
  ∃ sign ds, (sign = [] ∨ sign = ['+']) ∧ ds ≠ [] ∧ IsDigits ds ∧ s.toList = sign ++ ds ∧
    n = digitsValue ds

/-- A sign or none, and whether it is a minus sign. -/
inductive IsSign : List Char → Bool → Prop
  | none : IsSign [] false
  | plus : IsSign ['+'] false
  | minus : IsSign ['-'] true

/-- One or more digits, behind a sign or none. -/
def DenotesInteger (s : String) (n : Int) : Prop :=
  ∃ sign negative ds, IsSign sign negative ∧ ds ≠ [] ∧ IsDigits ds ∧ s.toList = sign ++ ds ∧
    n = if negative then -(digitsValue ds : Int) else digitsValue ds

/-- The exponent of a decimal number, zero where there is none. -/
inductive DenotesExponent : List Char → Int → Prop
  | none : DenotesExponent [] 0
  | some {c : Char} {cs : List Char} {e : Int} (hc : c = 'e' ∨ c = 'E')
      (h : DenotesInteger (String.ofList cs) e) : DenotesExponent (c :: cs) e

/-- A point with its digits, or nothing. -/
inductive IsFraction : List Char → List Char → Prop
  | none : IsFraction [] []
  | point {ds : List Char} (h : IsDigits ds) : IsFraction ('.' :: ds) ds

/-- A decimal number without sign: digits on one side of the point at least, and an exponent or none. -/
inductive DenotesDecimal : List Char → ℚ → Prop
  | mk {whole point fraction tail : List Char} {e : Int} (hwhole : IsDigits whole)
      (hpoint : IsFraction point fraction) (hdigits : whole ++ fraction ≠ [])
      (htail : DenotesExponent tail e) :
      DenotesDecimal (whole ++ point ++ tail) (digitsValue (whole ++ fraction) * 10 ^ (e - fraction.length))

/-- The float that a text without sign denotes once it has a sign: the one nearest to a decimal number,
infinity or not-a-number, which are named in any case. -/
inductive DenotesUnsigned (negative : Bool) : List Char → Binary64 → Prop
  | decimal {cs : List Char} {v : ℚ} {x : Binary64} (h : DenotesDecimal cs v)
      (hx : Binary64.Nearest negative v x) : DenotesUnsigned negative cs x
  | infinity {cs : List Char}
      (h : cs.map Char.toLower = "inf".toList ∨ cs.map Char.toLower = "infinity".toList) :
      DenotesUnsigned negative cs (Binary64.withSign negative .infinity)
  | nan {cs : List Char} (h : cs.map Char.toLower = "nan".toList) :
      DenotesUnsigned negative cs (Binary64.withSign negative .nan)

/-- The float that a text denotes. -/
def DenotesFloat (s : String) (x : Binary64) : Prop :=
  ∃ sign negative cs, IsSign sign negative ∧ s.toList = sign ++ cs ∧ DenotesUnsigned negative cs x

variable {sign cs ds rest : List Char} {c : Char} {s : String} {n : Nat} {m : Int} {negative : Bool}
  {x : Binary64}

/-! ## Signs -/

/-- A text that has no sign of its own. -/
def IsBare (cs : List Char) : Prop := ∀ c ∈ cs.head?, c ≠ '+' ∧ c ≠ '-'

theorem exists_sign (cs : List Char) :
    ∃ sign negative rest, IsSign sign negative ∧ cs = sign ++ rest ∧ (sign = [] → IsBare rest) := by
  cases cs with
  | nil => exact ⟨[], false, [], .none, rfl, fun _ => by simp [IsBare]⟩
  | cons c cs =>
    by_cases hplus : c = '+'
    · exact ⟨_, _, cs, .plus, by rw [hplus]; rfl, by simp⟩
    · by_cases hminus : c = '-'
      · exact ⟨_, _, cs, .minus, by rw [hminus]; rfl, by simp⟩
      · exact ⟨_, _, c :: cs, .none, rfl, fun _ => by simp [IsBare, hplus, hminus]⟩

theorem integer?_of_sign (hsign : IsSign sign negative) (hs : s.toList = sign ++ cs)
    (hbare : sign = [] → IsBare cs) :
    integer? s = (digits? cs).map fun n : Nat => if negative then -(n : Int) else n := by
  unfold integer?
  rw [hs]
  cases hsign with
  | none =>
    have hhead := hbare rfl
    rw [List.nil_append]
    split
    · next rest => exact absurd rfl (hhead _ rfl).2
    · next rest => exact absurd rfl (hhead _ rfl).1
    · rfl
  | plus => rfl
  | minus =>
    change Option.map (fun n => -n) ((digits? cs).bind fun n => some (n : Int)) = _
    cases digits? cs <;> rfl

theorem float?_of_sign (hsign : IsSign sign negative) (hs : s.toList = sign ++ cs)
    (hbare : sign = [] → IsBare cs) :
    float? s = (unsigned? cs).map (Binary64.withSign negative) := by
  have hid : Binary64.withSign false = id := rfl
  unfold float?
  rw [hs]
  cases hsign with
  | none =>
    have hhead := hbare rfl
    rw [List.nil_append, hid, Option.map_id_fun, id]
    split
    · next rest => exact absurd rfl (hhead _ rfl).2
    · next rest => exact absurd rfl (hhead _ rfl).1
    · rfl
  | plus => rw [hid, Option.map_id_fun]; rfl
  | minus => rfl

/-! ## Integers -/

theorem isDigit_eq (c : Char) : isDigit c = c.isDigit := by
  simp only [isDigit, Char.isDigit, Bool.decide_and]
  rfl

theorem IsDigits.head (h : IsDigits (c :: cs)) : c ≠ '+' ∧ c ≠ '-' ∧ c ≠ '.' := by
  have hc := h c (List.mem_cons_self ..)
  refine ⟨?_, ?_, ?_⟩ <;> rintro rfl <;> exact absurd hc (by decide)

theorem IsDigits.isBare (h : IsDigits cs) : IsBare cs := by
  intro c hc
  obtain ⟨rest, rfl⟩ := List.head?_eq_some_iff.1 hc
  exact ⟨h.head.1, h.head.2.1⟩

theorem digits?_eq_some : digits? cs = some n ↔ cs ≠ [] ∧ IsDigits cs ∧ n = digitsValue cs := by
  have hall : cs.all isDigit = true ↔ IsDigits cs := by
    simp only [List.all_eq_true, isDigit_eq, IsDigits]
  have hvalue : cs.foldl (fun n c => n * 10 + (c.toNat - 48)) 0 = digitsValue cs := by
    simp only [digitsValue, Nat.ofDigitChars, Nat.mul_comm 10]
    rfl
  unfold digits?
  rw [hvalue]
  split
  · next h =>
    simp only [Bool.or_eq_true, List.isEmpty_iff, Bool.not_eq_true', ← Bool.not_eq_true, hall] at h
    simp only [reduceCtorEq, false_iff, not_and]
    exact fun hne hdigits => absurd (h.resolve_left hne) (not_not.2 hdigits)
  · next h =>
    simp only [Bool.or_eq_true, List.isEmpty_iff, Bool.not_eq_true', ← Bool.not_eq_true, hall, not_or,
      not_not] at h
    simp only [Option.some.injEq, h, ne_eq, not_false_eq_true, true_and]
    exact eq_comm

theorem natural?_eq_some : natural? s = some n ↔ DenotesNatural s n := by
  unfold natural? DenotesNatural
  constructor
  · intro h
    split at h
    · next hs =>
      obtain ⟨hne, hdigits, hn⟩ := digits?_eq_some.1 h
      exact ⟨_, _, .inr rfl, hne, hdigits, hs, hn⟩
    · obtain ⟨hne, hdigits, hn⟩ := digits?_eq_some.1 h
      exact ⟨[], _, .inl rfl, hne, hdigits, rfl, hn⟩
  · rintro ⟨sign, ds, rfl | rfl, hne, hdigits, hs, hn⟩
    · rw [hs, List.nil_append]
      split
      · exact absurd rfl hdigits.head.1
      · exact digits?_eq_some.2 ⟨hne, hdigits, hn⟩
    · rw [hs]
      exact digits?_eq_some.2 ⟨hne, hdigits, hn⟩

theorem integer?_eq_some : integer? s = some m ↔ DenotesInteger s m := by
  constructor
  · intro h
    obtain ⟨sign, negative, ds, hsign, hs, hbare⟩ := exists_sign s.toList
    rw [integer?_of_sign hsign hs hbare] at h
    obtain ⟨n, hn, rfl⟩ := Option.map_eq_some_iff.1 h
    obtain ⟨hne, hdigits, rfl⟩ := digits?_eq_some.1 hn
    exact ⟨sign, negative, ds, hsign, hne, hdigits, hs, rfl⟩
  · rintro ⟨sign, negative, ds, hsign, hne, hdigits, hs, rfl⟩
    rw [integer?_of_sign hsign hs fun _ => hdigits.isBare, digits?_eq_some.2 ⟨hne, hdigits, rfl⟩]
    rfl

/-! ## Floats -/

theorem exponent?_eq_some : exponent? cs = some m ↔ DenotesExponent cs m := by
  constructor
  · intro h
    cases cs with
    | nil =>
      cases h
      exact .none
    | cons c rest =>
      simp only [exponent?] at h
      split at h
      · next hc => exact .some hc (integer?_eq_some.1 h)
      · cases h
  · intro h
    cases h with
    | none => rfl
    | some hc h => simp only [exponent?, hc, ↓reduceIte, integer?_eq_some.2 h]

section parts

variable {whole point fraction tail : List Char}

/-- A text that does not go on with digits. -/
def EndsDigits (cs : List Char) : Prop := ∀ c ∈ cs.head?, c.isDigit = false

theorem takeWhile_digits (hds : IsDigits ds) (hrest : EndsDigits rest) :
    (ds ++ rest).takeWhile isDigit = ds ∧ (ds ++ rest).dropWhile isDigit = rest := by
  have hds' : ∀ c ∈ ds, isDigit c = true := fun c hc => (isDigit_eq c).trans (hds c hc)
  rw [List.takeWhile_append_of_pos hds', List.dropWhile_append_of_pos hds']
  cases rest with
  | nil => simp
  | cons c rest =>
    have hc := (isDigit_eq c).trans (hrest c rfl)
    simp [hc]

theorem exists_digits (cs : List Char) : ∃ ds rest, IsDigits ds ∧ EndsDigits rest ∧ cs = ds ++ rest := by
  refine ⟨_, _, fun c hc => ?_, fun c hc => ?_, (List.takeWhile_append_dropWhile (p := Char.isDigit)).symm⟩
  · exact List.mem_takeWhile_imp hc
  · have hhead := List.head?_dropWhile_not Char.isDigit cs
    rw [Option.mem_def.1 hc] at hhead
    exact Bool.eq_false_iff.2 (by simpa using hhead)

/-- The digits on both sides of a point and what stands behind them. A text without a point does not go
on with one. -/
structure Parts (whole point fraction tail : List Char) : Prop where
  isDigits : IsDigits whole
  isFraction : IsFraction point fraction
  endsDigits : EndsDigits tail
  endsPoint : point = [] → tail.head? ≠ some '.'

theorem exists_parts (cs : List Char) :
    ∃ whole point fraction tail, Parts whole point fraction tail ∧ cs = whole ++ (point ++ tail) := by
  obtain ⟨whole, rest, hwhole, hrest, rfl⟩ := exists_digits cs
  by_cases hpoint : rest.head? = some '.'
  · obtain ⟨rest, rfl⟩ := List.head?_eq_some_iff.1 hpoint
    obtain ⟨fraction, tail, hfraction, htail, rfl⟩ := exists_digits rest
    exact ⟨whole, _, fraction, tail, ⟨hwhole, .point hfraction, htail, by simp⟩, by simp⟩
  · exact ⟨whole, [], [], rest, ⟨hwhole, .none, hrest, fun _ => hpoint⟩, by simp⟩

/-- The digits behind a point, if there is one, and the text behind them. -/
def pointed (cs : List Char) : List Char × List Char :=
  match cs with
  | '.' :: rest => (rest.takeWhile isDigit, rest.dropWhile isDigit)
  | _ => ([], cs)

theorem pointed_of_ne (h : ∀ rest, cs = '.' :: rest → False) : pointed cs = ([], cs) := by
  unfold pointed
  split
  · exact (h _ rfl).elim
  · rfl

theorem Parts.pointed_eq (h : Parts whole point fraction tail) :
    pointed (point ++ tail) = (fraction, tail) := by
  obtain ⟨-, hfraction, htail, hpoint⟩ := h
  cases hfraction with
  | none => exact pointed_of_ne fun rest hrest => hpoint rfl (by simpa using congrArg List.head? hrest)
  | point hdigits =>
    obtain ⟨htake, hdrop⟩ := takeWhile_digits hdigits htail
    simp only [pointed, List.cons_append, htake, hdrop]

/-- The float that is named by a text. -/
def named? (cs : List Char) : Option Binary64 :=
  match String.ofList (cs.map Char.toLower) with
  | "inf" | "infinity" => some .infinity
  | "nan" => some .nan
  | _ => none

theorem unsigned?_eq (cs : List Char) :
    unsigned? cs =
      let whole := cs.takeWhile isDigit
      let (fraction, tail) := pointed (cs.drop whole.length)
      if whole.isEmpty && fraction.isEmpty then named? cs
      else (exponent? tail).bind fun e => (digits? (whole ++ fraction)).bind fun n =>
        some (Binary64.ofDecimal n (e - fraction.length)) := by
  unfold unsigned? named?
  dsimp only
  split
  · next heq =>
    rw [heq]
    rfl
  · next hne =>
    rw [pointed_of_ne hne]
    rfl

theorem Parts.unsigned?_eq (h : Parts whole point fraction tail) :
    unsigned? (whole ++ (point ++ tail)) =
      if whole ++ fraction = [] then named? (whole ++ (point ++ tail))
      else (exponent? tail).map fun e =>
        Binary64.ofDecimal (digitsValue (whole ++ fraction)) (e - fraction.length) := by
  have hends : EndsDigits (point ++ tail) := by
    cases h.isFraction with
    | none => exact h.endsDigits
    | point => rintro c ⟨⟩; decide
  have hdigits : IsDigits (whole ++ fraction) := by
    intro c hc
    obtain hc | hc := List.mem_append.1 hc
    · exact h.isDigits c hc
    · cases h.isFraction with
      | none => cases hc
      | point hfraction => exact hfraction c hc
  rw [Literal.unsigned?_eq]
  simp only [(takeWhile_digits h.isDigits hends).1, List.drop_left, h.pointed_eq]
  by_cases hne : whole ++ fraction = []
  · obtain ⟨rfl, rfl⟩ := List.append_eq_nil_iff.1 hne
    rfl
  · have hsome : ¬ ((whole.isEmpty && fraction.isEmpty) = true) := by
      simpa using hne
    rw [if_neg hsome, if_neg hne, digits?_eq_some.2 ⟨hne, hdigits, rfl⟩]
    cases exponent? tail <;> rfl

theorem DenotesExponent.parts (hwhole : IsDigits whole) (hpoint : IsFraction point fraction)
    (h : DenotesExponent tail m) : Parts whole point fraction tail := by
  cases h with
  | none => exact ⟨hwhole, hpoint, by simp [EndsDigits], by simp⟩
  | some hc =>
    refine ⟨hwhole, hpoint, ?_, fun _ => ?_⟩
    · rintro c ⟨⟩
      obtain rfl | rfl := hc <;> decide
    · obtain rfl | rfl := hc <;> simp

theorem named?_eq_some :
    named? cs = some x ↔
      (cs.map Char.toLower = "inf".toList ∨ cs.map Char.toLower = "infinity".toList) ∧ x = .infinity ∨
        cs.map Char.toLower = "nan".toList ∧ x = .nan := by
  have hname : ∀ s : String, cs.map Char.toLower = s.toList ↔ String.ofList (cs.map Char.toLower) = s :=
    fun s => ⟨fun h => by rw [h, String.ofList_toList], fun h => by rw [← h, String.toList_ofList]⟩
  rw [hname, hname, hname, named?]
  split
  · next h => simp [h, eq_comm]
  · next h => simp [h, eq_comm]
  · next h => simp [h, eq_comm]
  · next hinf hinfinity hnan =>
    simp only [reduceCtorEq, false_iff]
    rintro (⟨h | h, -⟩ | ⟨h, -⟩)
    · exact hinf h
    · exact hinfinity h
    · exact hnan h

theorem toLower_of_digit (hc : c.isDigit = true) : c.toLower = c := by
  refine dif_neg fun h => ?_
  simp only [Char.isDigit, Bool.and_eq_true, decide_eq_true_eq] at hc
  exact absurd (UInt32.le_trans h.1 hc.2) (by decide)

theorem head_of_named (h : named? cs = some x) :
    ∃ c rest, cs = c :: rest ∧ c.isDigit = false ∧ c ≠ '.' ∧ c ≠ '+' ∧ c ≠ '-' := by
  have hletter : ∀ {a : Char} {as : List Char}, a = 'i' ∨ a = 'n' → cs.map Char.toLower = a :: as →
      ∃ c rest, cs = c :: rest ∧ c.isDigit = false ∧ c ≠ '.' ∧ c ≠ '+' ∧ c ≠ '-' := by
    intro a as ha hcs
    obtain ⟨c, rest, rfl, rfl, -⟩ := List.map_eq_cons_iff.1 hcs
    refine ⟨c, rest, rfl, ?_, ?_, ?_, ?_⟩
    · by_contra hdigit
      rw [Bool.not_eq_false] at hdigit
      rw [toLower_of_digit hdigit] at ha
      obtain rfl | rfl := ha <;> exact absurd hdigit (by decide)
    all_goals
      rintro rfl
      exact absurd ha (by decide)
  obtain ⟨h | h, -⟩ | ⟨h, -⟩ := named?_eq_some.1 h
  · exact hletter (.inl rfl) h
  · exact hletter (.inl rfl) h
  · exact hletter (.inr rfl) h

theorem Parts.nil_of_named (h : Parts whole point fraction tail)
    (hnamed : named? (whole ++ (point ++ tail)) = some x) : whole ++ fraction = [] := by
  obtain ⟨c, rest, hcs, hdigit, hdot, -⟩ := head_of_named hnamed
  obtain ⟨hwhole, hfraction, -, -⟩ := h
  cases whole with
  | cons d whole =>
    cases hcs
    exact absurd (hwhole c (List.mem_cons_self ..)) (by simp [hdigit])
  | nil =>
    cases hfraction with
    | none => rfl
    | point =>
      cases hcs
      exact absurd rfl hdot

theorem unsigned?_map_eq_some :
    (unsigned? cs).map (Binary64.withSign negative) = some x ↔ DenotesUnsigned negative cs x := by
  constructor
  · intro h
    obtain ⟨y, hy, rfl⟩ := Option.map_eq_some_iff.1 h
    obtain ⟨whole, point, fraction, tail, hparts, rfl⟩ := exists_parts cs
    rw [hparts.unsigned?_eq] at hy
    split at hy
    · obtain ⟨hname, rfl⟩ | ⟨hname, rfl⟩ := named?_eq_some.1 hy
      · exact .infinity hname
      · exact .nan hname
    · next hdigits =>
      obtain ⟨e, he, rfl⟩ := Option.map_eq_some_iff.1 hy
      rw [← List.append_assoc]
      exact .decimal (.mk hparts.isDigits hparts.isFraction hdigits (exponent?_eq_some.1 he))
        (Binary64.nearest_ofDecimal _ _)
  · have hnamed : ∀ {y : Binary64}, named? cs = some y → unsigned? cs = some y := by
      intro y hy
      obtain ⟨whole, point, fraction, tail, hparts, rfl⟩ := exists_parts cs
      rw [hparts.unsigned?_eq, if_pos (hparts.nil_of_named hy), hy]
    intro h
    cases h with
    | decimal h hx =>
      cases h with
      | mk hwhole hpoint hdigits htail =>
        rw [List.append_assoc, (htail.parts hwhole hpoint).unsigned?_eq, if_neg hdigits,
          exponent?_eq_some.2 htail, Option.map_some, Option.map_some, Binary64.nearest_ofDecimal_iff.1 hx]
    | infinity h => rw [hnamed (named?_eq_some.2 (.inl ⟨h, rfl⟩)), Option.map_some]
    | nan h => rw [hnamed (named?_eq_some.2 (.inr ⟨h, rfl⟩)), Option.map_some]

end parts

theorem DenotesUnsigned.isBare (h : DenotesUnsigned negative cs x) : IsBare cs := by
  have hnamed : ∀ {y : Binary64}, named? cs = some y → IsBare cs := by
    rintro y hy
    obtain ⟨c, rest, rfl, -, -, hplus, hminus⟩ := head_of_named hy
    rintro d ⟨⟩
    exact ⟨hplus, hminus⟩
  cases h with
  | infinity h => exact hnamed (named?_eq_some.2 (.inl ⟨h, rfl⟩))
  | nan h => exact hnamed (named?_eq_some.2 (.inr ⟨h, rfl⟩))
  | decimal h =>
    cases h with
    | @mk whole point fraction tail e hwhole hpoint hdigits =>
      cases whole with
      | cons c whole =>
        rintro d ⟨⟩
        exact ⟨hwhole.head.1, hwhole.head.2.1⟩
      | nil =>
        cases hpoint with
        | none => exact absurd rfl hdigits
        | point =>
          rintro d ⟨⟩
          decide

/-- A text is read as a float just when it denotes this float. -/
theorem float?_eq_some : float? s = some x ↔ DenotesFloat s x := by
  constructor
  · intro h
    obtain ⟨sign, negative, cs, hsign, hs, hbare⟩ := exists_sign s.toList
    rw [float?_of_sign hsign hs hbare] at h
    exact ⟨sign, negative, cs, hsign, hs, unsigned?_map_eq_some.1 h⟩
  · rintro ⟨sign, negative, cs, hsign, hs, h⟩
    rw [float?_of_sign hsign hs fun _ => h.isBare]
    exact unsigned?_map_eq_some.2 h

end PagePipes.Decimal.Literal
