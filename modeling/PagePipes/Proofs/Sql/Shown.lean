import PagePipes.Proofs.Sql.Arguments
import PagePipes.Proofs.Text.Base64
import PagePipes.Sql.Value

set_option autoImplicit false

/-!
# How recorded values are shown

A value that was accepted for a point is stored as a value of the kind of the point, and rows show it
as it was reported: bytes as the text that was sent, a flag as zero or one, a list as its JSON text.
Integers and floats may have been sent as texts and are shown as numbers.
-/
namespace PagePipes.Sql

/-- How a reported scalar is shown. A float that is no finite number is shown as null. -/
inductive ShownScalar : Scalar → Json → Json → Prop
  | bytes {t : String} : ShownScalar .bytes (.str t) (.str t)
  | string {t : String} : ShownScalar .string (.str t) (.str t)
  | bool {b : Bool} : ShownScalar .bool (.bool b) (.num (.int (if b then 1 else 0)))
  | int64 {j : Json} {n : Int} (h : Argument.signed? j = some n) : ShownScalar .int64 j (.num (.int n))
  | uint64 {j : Json} {n : Nat} (h : Argument.unsigned? j = some n) :
      ShownScalar .uint64 j (.num (.int n))
  | float64 {j : Json} {x : Binary64} (h : Argument.float? j = some x) :
      ShownScalar .float64 j (if x.isFinite then .num (.float x) else .null)

/-- How a reported value of a point is shown. -/
inductive Shown (p : Point) : Json → Json → Prop
  | null : Shown p .null .null
  | list {items : List Json} (hp : p.repeated = true) :
      Shown p (.arr items) (.str (Json.arr items).compact)
  | scalar {j shown : Json} (hp : p.repeated = false) (h : ShownScalar p.scalar j shown) :
      Shown p j shown

variable {p : Point} {s : Scalar} {j : Json} {a : Argument}

theorem toJson_float {x : Binary64} :
    (Value.ofArgument (.float x)).toJson = if x.isFinite then .num (.float x) else .null := by
  cases hnan : x.isNaN with
  | true =>
    have hfinite : x.isFinite = false := by simpa using (Bool.and_eq_true_iff.1 hnan).1
    simp [Value.ofArgument, Value.toJson, hnan, hfinite]
  | false => simp [Value.ofArgument, Value.toJson, hnan]

theorem shownScalar_of_takes (h : Argument.Takes s j a) :
    ShownScalar s j (Value.ofArgument a).toJson := by
  cases h with
  | bytes h =>
    rw [Value.ofArgument, Value.toJson, Text.Base64.encode_of_decode h]
    exact .bytes
  | string => exact .string
  | bool => exact .bool
  | int64 h => exact .int64 h
  | uint64 h => exact .uint64 h
  | float64 h => exact toJson_float ▸ .float64 h

theorem isOf_of_takes (h : Argument.Takes p.scalar j a) (hp : p.repeated = false) :
    (Value.ofArgument a).isOf p = true := by
  generalize hs : p.scalar = s at h
  cases h with
  | @float64 _ x => cases hnan : x.isNaN <;> simp [Value.ofArgument, Value.isOf, hnan, hp, hs]
  | _ => simp [Value.ofArgument, Value.isOf, hp, hs]

/-- What an argument is stored as is of its point, and shown as what was reported. -/
theorem shown_of_ofJson (h : Argument.ofJson p j = .ok a) :
    Shown p j (Value.ofArgument a).toJson ∧ (Value.ofArgument a).isOf p = true := by
  cases Argument.takesFor_of_ofJson h with
  | null => exact ⟨.null, rfl⟩
  | list hp => exact ⟨.list hp, by simp [Value.ofArgument, Value.isOf, hp]⟩
  | scalar hp h => exact ⟨.scalar hp (shownScalar_of_takes h), isOf_of_takes h hp⟩

end PagePipes.Sql
