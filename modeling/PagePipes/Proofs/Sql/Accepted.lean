import PagePipes.Proofs.Decimal.Literals
import PagePipes.Proofs.Json.Unique
import PagePipes.Proofs.Sql.Arguments
import PagePipes.Proofs.Text.Base64
import PagePipes.Sql.Name

set_option autoImplicit false

/-!
# What a point accepts

A point accepts just the values of its type, and the argument tells the value: a text or a flag is kept,
an integer stays the same number whether it is written as a number or as a text, bytes encode back to the
text that they came as, and a list is kept as its text. Only where a float is asked for and the number
given is not one does a number change, to the float nearest to it.
-/
namespace PagePipes.Sql.Argument
open Decimal.Literal

/-- The values of a scalar, with the arguments that stand for them. -/
def Denotes : Scalar → Json → Argument → Prop
  | .bytes, j, .bytes bs => j = .str (Text.Base64.encode bs)
  | .string, j, .text s => j = .str s
  | .bool, j, .bool b => j = .bool b
  | .int64, j, .int n =>
    (j = .num (.int n) ∨ ∃ s, j = .str s ∧ DenotesInteger s n) ∧ -2 ^ 63 ≤ n ∧ n < 2 ^ 63
  | .uint64, j, .int n =>
    (j = .num (.int n) ∨ ∃ s m, j = .str s ∧ DenotesNatural s m ∧ n = m) ∧ 0 ≤ n ∧ n < 2 ^ 63
  | .float64, j, .float x =>
    j = .num (.float x) ∨ (∃ n, j = .num (.int n) ∧ Binary64.Nearest (decide (n < 0)) |(n : ℚ)| x) ∨
      ∃ s, j = .str s ∧ DenotesFloat s x
  | _, _, _ => False

/-- The SQL type of the values of one kind; null is of every type. -/
def type? : Argument → Option String
  | .null => none
  | .bytes _ => some "BLOB"
  | .text _ => some "TEXT"
  | .bool _ => some "BOOLEAN"
  | .int _ => some "INTEGER"
  | .float _ => some "REAL"

variable {p : Point} {s : Scalar} {j : Json} {a : Argument} {n : Int} {x : Binary64}

/-! ## Numbers -/

theorem fits_iff : fits n = true ↔ -2 ^ 63 ≤ n ∧ n < 2 ^ 63 := by
  rw [fits, decide_eq_true_eq]
  exact Iff.rfl

theorem signed?_eq_some :
    signed? j = some n ↔
      (j = .num (.int n) ∨ ∃ s, j = .str s ∧ DenotesInteger s n) ∧ -2 ^ 63 ≤ n ∧ n < 2 ^ 63 := by
  rw [← fits_iff]
  cases j with
  | num v =>
    cases v with
    | int m =>
      simp only [signed?, Option.ite_none_right_eq_some, Option.some.injEq, Json.num.injEq, Number.int.injEq,
        reduceCtorEq, false_and, exists_const, or_false]
      exact ⟨fun ⟨hfits, hm⟩ => ⟨hm, hm ▸ hfits⟩, fun ⟨hm, hfits⟩ => ⟨hm ▸ hfits, hm⟩⟩
    | float y => simp [signed?]
  | str t => simp [signed?, Option.filter_eq_some_iff, integer?_eq_some]
  | _ => simp [signed?]

/-- An unsigned number is stored where a signed one, too, can hold it. -/
theorem unsigned?_eq_some {m : Nat} :
    unsigned? j = some m ∧ fits m = true ↔
      (j = .num (.int m) ∨ ∃ s, j = .str s ∧ DenotesNatural s m) ∧ m < 2 ^ 63 := by
  have hfits : fits m = true ↔ m < 2 ^ 63 := by
    rw [fits_iff]
    omega
  rw [hfits]
  refine and_congr_left fun hm => ?_
  cases j with
  | num v =>
    cases v with
    | int k =>
      simp only [unsigned?, Option.ite_none_right_eq_some, Option.some.injEq, Json.num.injEq,
        Number.int.injEq, reduceCtorEq, false_and, exists_const, or_false]
      omega
    | float y => simp [unsigned?]
  | str t =>
    have hwide : m < 18446744073709551616 := by omega
    simp [unsigned?, Option.filter_eq_some_iff, natural?_eq_some, hwide]
  | _ => simp [unsigned?]

theorem float?_eq_some :
    float? j = some x ↔
      j = .num (.float x) ∨ (∃ n : Int, j = .num (.int n) ∧ Binary64.Nearest (decide (n < 0)) |(n : ℚ)| x) ∨
        ∃ s, j = .str s ∧ DenotesFloat s x := by
  cases j with
  | num v =>
    cases v with
    | int m => simp [float?, Binary64.nearest_ofInt_iff, eq_comm]
    | float y => simp [float?]
  | str t => simp [float?, Decimal.Literal.float?_eq_some]
  | _ => simp [float?]

/-! ## Scalars -/

theorem takes_iff_denotes : Takes s j a ↔ Denotes s j a := by
  constructor
  · intro h
    cases h with
    | bytes h => exact congrArg Json.str (Text.Base64.encode_of_decode h).symm
    | string => rfl
    | bool => rfl
    | int64 h => exact signed?_eq_some.1 h
    | @uint64 _ m h hfits =>
      obtain ⟨hj, hm⟩ := unsigned?_eq_some.1 ⟨h, hfits⟩
      exact ⟨hj.imp_right fun ⟨s, hs, hdenotes⟩ => ⟨s, m, hs, hdenotes, rfl⟩, by omega, by omega⟩
    | float64 h => exact float?_eq_some.1 h
  · intro h
    cases s <;> cases a <;> try exact h.elim
    case bytes.bytes bs =>
      obtain rfl : j = .str _ := h
      exact .bytes (Text.Base64.decode_encode bs)
    case string.text t =>
      obtain rfl : j = .str t := h
      exact .string
    case bool.bool b =>
      obtain rfl : j = .bool b := h
      exact .bool
    case int64.int n => exact .int64 (signed?_eq_some.2 h)
    case uint64.int n =>
      obtain ⟨hj, hlow, hhigh⟩ := h
      obtain ⟨m, rfl⟩ := Int.eq_ofNat_of_zero_le hlow
      have hj' : j = .num (.int m) ∨ ∃ s, j = .str s ∧ DenotesNatural s m := by
        refine hj.imp_right fun ⟨s, k, hs, hdenotes, hk⟩ => ⟨s, hs, ?_⟩
        rwa [Int.ofNat_inj.1 hk]
      obtain ⟨hvalue, hfits⟩ := unsigned?_eq_some.2 ⟨hj', by omega⟩
      exact .uint64 hvalue hfits
    case float64.float x => exact .float64 (float?_eq_some.2 h)

theorem Takes.type?_eq (h : Takes p.scalar j a) (hp : p.repeated = false) :
    a.type? = some (columnType p) := by
  unfold columnType
  rw [hp, if_neg Bool.false_ne_true]
  generalize p.scalar = s at h
  cases h <;> rfl

/-! ## Points -/

theorem ofJson_null : ofJson p .null = .ok a ↔ p.nullable = true ∧ a = .null := by
  rw [ofJson_eq_ok]
  constructor
  · intro h
    cases h with
    | null hp => exact ⟨hp, rfl⟩
    | scalar _ h => exact absurd rfl h.value_ne_null
  · rintro ⟨hp, rfl⟩
    exact .null hp

theorem ofJson_scalar (hj : j ≠ .null) (hp : p.repeated = false) :
    ofJson p j = .ok a ↔ Denotes p.scalar j a := by
  rw [ofJson_eq_ok, takesFor_scalar hp, takes_iff_denotes]
  exact or_iff_right fun h => hj h.2.1

theorem ofJson_list (hj : j ≠ .null) (hp : p.repeated = true) :
    ofJson p j = .ok a ↔ ∃ items, j = .arr items ∧
      (∀ item ∈ items, ∃ b, ofJson { scalar := p.scalar } item = .ok b) ∧ a = .text j.compact := by
  have hitem : ∀ item b, ofJson { scalar := p.scalar } item = .ok b ↔ Takes p.scalar item b := by
    intro item b
    rw [ofJson_eq_ok, takesFor_scalar rfl]
    exact or_iff_right fun h => Bool.false_ne_true h.1
  simp only [hitem]
  rw [ofJson_eq_ok, takesFor_list hp]
  exact or_iff_right fun h => hj h.2.1

theorem type?_of_ofJson (h : ofJson p j = .ok a) :
    j = .null ∧ a = .null ∨ j ≠ .null ∧ a.type? = some (columnType p) := by
  cases takesFor_of_ofJson h with
  | null => exact .inl ⟨rfl, rfl⟩
  | list hp => exact .inr ⟨by simp, by simp [type?, columnType, hp]⟩
  | scalar hp h => exact .inr ⟨h.value_ne_null, h.type?_eq hp⟩

/-- Of a list the argument is the text, which tells the list. -/
theorem list_eq_of_ofJson {j' : Json} (hp : p.repeated = true) (hj : j.Finite) (hj' : j'.Finite)
    (h : ofJson p j = .ok a) (h' : ofJson p j' = .ok a) : j = j' := by
  rw [ofJson_eq_ok, takesFor_list hp] at h h'
  obtain ⟨-, rfl, rfl⟩ | ⟨-, -, -, rfl⟩ := h
  · obtain ⟨-, rfl, -⟩ | ⟨-, -, -, h⟩ := h'
    · rfl
    · cases h
  · obtain ⟨-, -, h⟩ | ⟨-, -, -, h⟩ := h'
    · cases h
    · exact Json.compact_injective hj hj' (Argument.text.inj h)

/-- An integer that is asked for as a float stays what it is where some float is this integer. -/
theorem toInt?_of_ofJson {y : Binary64} (h : ofJson p (.num (.int n)) = .ok (.float x))
    (hy : y.toInt? = some n) : x.toInt? = some n := by
  cases takesFor_of_ofJson h with
  | scalar _ h =>
    generalize p.scalar = s at h
    cases h with
    | float64 h =>
      obtain h | ⟨m, hm, hnearest⟩ | ⟨s, hs, -⟩ := float?_eq_some.1 h
      · cases h
      · cases hm
        exact hnearest.toInt?_eq hy
      · cases hs

/-- A point accepts null just when it is nullable. Another value is accepted where a list is asked for just
when it is a list of values that its scalar accepts, and otherwise just when it is a value of the scalar,
for which the argument stands. The argument is of the type of the column for the point. A list is told by
its argument, and an integer given for a float is kept whenever a float is this integer. -/
theorem accepts_values_of_type (p : Point) (j : Json) (a : Argument) :
    (ofJson p .null = .ok a ↔ p.nullable = true ∧ a = .null) ∧
    (j ≠ .null → p.repeated = true →
      (ofJson p j = .ok a ↔ ∃ items, j = .arr items ∧
        (∀ item ∈ items, ∃ b, ofJson { scalar := p.scalar } item = .ok b) ∧ a = .text j.compact)) ∧
    (j ≠ .null → p.repeated = false → (ofJson p j = .ok a ↔ Denotes p.scalar j a)) ∧
    (ofJson p j = .ok a → j = .null ∧ a = .null ∨ j ≠ .null ∧ a.type? = some (columnType p)) ∧
    (∀ j', p.repeated = true → j.Finite → j'.Finite → ofJson p j = .ok a → ofJson p j' = .ok a → j = j') ∧
    ∀ (n : Int) (x y : Binary64), ofJson p (.num (.int n)) = .ok (.float x) → y.toInt? = some n →
      x.toInt? = some n :=
  ⟨ofJson_null, fun hj hp => ofJson_list hj hp, fun hj hp => ofJson_scalar hj hp, type?_of_ofJson,
    fun _ hp hj hj' => list_eq_of_ofJson hp hj hj', fun _ _ _ => toInt?_of_ofJson⟩

/-- An integer between two floats changes: it is stored as the even one of its neighbours. -/
theorem odd_integer_changes :
    ofJson { scalar := .float64 } (.num (.int 9007199254740993)) = .ok (.float ⟨0x4340000000000000⟩) ∧
      Binary64.toInt? ⟨0x4340000000000000⟩ = some 9007199254740992 := by
  decide +kernel

end PagePipes.Sql.Argument
