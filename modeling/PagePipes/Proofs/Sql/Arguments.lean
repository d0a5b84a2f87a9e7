import PagePipes.Proofs.Result
import PagePipes.Sql.Argument

set_option autoImplicit false

/-!
# What becomes an argument

A point takes null where it allows it, a list where it is repeated, and a scalar of its kind otherwise.
-/
namespace PagePipes.Sql.Argument

/-- The argument that a scalar of a kind becomes. -/
inductive Takes : Scalar → Json → Argument → Prop
  | bytes {t : String} {bs : List UInt8} (h : Text.Base64.decode t = .ok bs) :
      Takes .bytes (.str t) (.bytes bs)
  | string {t : String} : Takes .string (.str t) (.text t)
  | bool {b : Bool} : Takes .bool (.bool b) (.bool b)
  | int64 {j : Json} {n : Int} (h : signed? j = some n) : Takes .int64 j (.int n)
  | uint64 {j : Json} {n : Nat} (h : unsigned? j = some n) (hfits : fits n = true) :
      Takes .uint64 j (.int n)
  | float64 {j : Json} {x : Binary64} (h : float? j = some x) : Takes .float64 j (.float x)

/-- The argument that a value becomes for a point. -/
inductive TakesFor (p : Point) : Json → Argument → Prop
  | null (hp : p.nullable = true) : TakesFor p .null .null
  | list {items : List Json} (hp : p.repeated = true)
      (h : ∀ item ∈ items, ∃ a, Takes p.scalar item a) :
      TakesFor p (.arr items) (.text (Json.arr items).compact)
  | scalar {j : Json} {a : Argument} (hp : p.repeated = false) (h : Takes p.scalar j a) :
      TakesFor p j a

variable {p : Point} {s : Scalar} {j : Json} {a : Argument}

theorem takes_of_ofScalar (h : ofScalar s j = .ok a) : Takes s j a := by
  unfold ofScalar at h
  cases s with
  | bytes =>
    cases j with
    | str t =>
      cases hbytes : Text.Base64.decode t with
      | error fault => simp [hbytes] at h
      | ok bs =>
        simp only [hbytes, Except.ok.injEq] at h
        exact h ▸ .bytes hbytes
    | _ => cases h
  | string =>
    cases j with
    | str t => exact Except.ok.inj h ▸ .string
    | _ => cases h
  | bool =>
    cases j with
    | bool b => exact Except.ok.inj h ▸ .bool
    | _ => cases h
  | int64 =>
    cases hn : signed? j with
    | none => simp [hn] at h
    | some n =>
      simp only [hn, Except.ok.injEq] at h
      exact h ▸ .int64 hn
  | uint64 =>
    cases hn : unsigned? j with
    | none => simp [hn] at h
    | some n =>
      simp only [hn] at h
      split at h
      case isTrue hfits => exact Except.ok.inj h ▸ .uint64 hn hfits
      case isFalse => cases h
  | float64 =>
    cases hx : float? j with
    | none => simp [hx] at h
    | some x =>
      simp only [hx, Except.ok.injEq] at h
      exact h ▸ .float64 hx

theorem takesFor_of_ofJson (h : ofJson p j = .ok a) : TakesFor p j a := by
  unfold ofJson at h
  split at h
  case isTrue hj =>
    split at h
    case isTrue hp =>
      cases h
      exact hj ▸ .null hp
    case isFalse => cases h
  case isFalse =>
    split at h
    case isTrue hp =>
      cases j with
      | arr items =>
        obtain ⟨⟨⟩, hitems, h⟩ := Result.bind_eq_ok.1 h
        cases Result.pure_eq_ok.1 h
        refine .list hp fun item hitem => ?_
        obtain ⟨b, hb, -⟩ := Result.map_eq_ok.1 (Result.ok_of_forM hitems hitem)
        exact ⟨b, takes_of_ofScalar hb⟩
      | _ => cases h
    case isFalse hp => exact .scalar (by simpa using hp) (takes_of_ofScalar h)

theorem Takes.ofScalar (h : Takes s j a) : ofScalar s j = .ok a := by
  cases h with
  | bytes h => simp only [Argument.ofScalar, h]
  | string => rfl
  | bool => rfl
  | int64 h => simp only [Argument.ofScalar, h]
  | uint64 h hfits => simp only [Argument.ofScalar, h, hfits, ↓reduceIte]
  | float64 h => simp only [Argument.ofScalar, h]

theorem Takes.value_ne_null (h : Takes s j a) : j ≠ .null := by
  rintro rfl
  cases h with
  | int64 h => cases h
  | uint64 h => cases h
  | float64 h => cases h

theorem TakesFor.ofJson (h : TakesFor p j a) : ofJson p j = .ok a := by
  cases h with
  | null hp => simp only [Argument.ofJson, ↓reduceIte, hp]
  | @list items hp hitems =>
    have hall : items.forM (fun item => discard (Argument.ofScalar p.scalar item)) = .ok () :=
      Result.forM_eq_ok fun item hitem =>
        Result.map_eq_ok.2 ((hitems item hitem).imp fun _ h => ⟨h.ofScalar, rfl⟩)
    simp only [Argument.ofJson, reduceCtorEq, ↓reduceIte, hp]
    rw [hall]
    rfl
  | scalar hp h =>
    simp only [Argument.ofJson, h.value_ne_null, ↓reduceIte, hp, Bool.false_eq_true]
    exact h.ofScalar

theorem ofJson_eq_ok : ofJson p j = .ok a ↔ TakesFor p j a := ⟨takesFor_of_ofJson, TakesFor.ofJson⟩

theorem takesFor_list (hp : p.repeated = true) :
    TakesFor p j a ↔ p.nullable = true ∧ j = .null ∧ a = .null ∨
      ∃ items, j = .arr items ∧ (∀ item ∈ items, ∃ b, Takes p.scalar item b) ∧ a = .text j.compact := by
  constructor
  · intro h
    cases h with
    | null hnull => exact .inl ⟨hnull, rfl, rfl⟩
    | list _ h => exact .inr ⟨_, rfl, h, rfl⟩
    | scalar hscalar => exact absurd (hscalar.symm.trans hp) Bool.false_ne_true
  · rintro (⟨hnull, rfl, rfl⟩ | ⟨items, rfl, h, rfl⟩)
    · exact .null hnull
    · exact .list hp h

theorem takesFor_scalar (hp : p.repeated = false) :
    TakesFor p j a ↔ p.nullable = true ∧ j = .null ∧ a = .null ∨ Takes p.scalar j a := by
  constructor
  · intro h
    cases h with
    | null hnull => exact .inl ⟨hnull, rfl, rfl⟩
    | list hlist => exact absurd (hp.symm.trans hlist) Bool.false_ne_true
    | scalar _ h => exact .inr h
  · rintro (⟨hnull, rfl, rfl⟩ | h)
    · exact .null hnull
    · exact .scalar hp h

theorem Takes.ne_null (h : Takes s j a) : a ≠ .null := by
  cases h <;> simp

theorem ne_null_of_ofJson (h : ofJson p j = .ok a) (hp : p.nullable = false) : a ≠ .null := by
  cases takesFor_of_ofJson h with
  | null hnull => cases hp.symm.trans hnull
  | list => simp
  | scalar _ h => exact h.ne_null

end PagePipes.Sql.Argument
