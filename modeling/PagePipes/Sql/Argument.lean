import PagePipes.Decimal.Literal
import PagePipes.Json.Printer
import PagePipes.Point
import PagePipes.Text.Base64

set_option autoImplicit false

/-!
# SQL arguments

A reported JSON value becomes an argument of the kind that its point asks for. Bytes come as base64,
integers and floats as numbers or as texts, and a list is kept as its JSON text.
-/
namespace PagePipes.Sql

inductive Argument
  | null
  | bytes (value : List UInt8)
  | text (value : String)
  | bool (value : Bool)
  | int (value : Int)
  | float (value : Binary64)
  deriving DecidableEq, Repr

namespace Argument

/-- Whether a signed 64-bit integer can hold the number. -/
def fits (n : Int) : Bool := decide (-(1 <<< 63) ≤ n ∧ n < 1 <<< 63)

def signed? : Json → Option Int
  | .num (.int n) => if fits n then some n else none
  | .str s => (Decimal.Literal.integer? s).filter fits
  | _ => none

def unsigned? : Json → Option Nat
  | .num (.int n) => if 0 ≤ n then some n.toNat else none
  | .str s => (Decimal.Literal.natural? s).filter (· < 1 <<< 64)
  | _ => none

def float? : Json → Option Binary64
  | .num (.int n) => some (Binary64.ofInt n)
  | .num (.float x) => some x
  | .str s => Decimal.Literal.float? s
  | _ => none

def mismatch (s : Scalar) (j : Json) : Error :=
  .invalidArgument ("expected " ++ s.text ++ " result, got " ++ j.compact)

def ofScalar (s : Scalar) (j : Json) : Result Argument :=
  let expect {α : Type} (value : Option α) (make : α → Argument) : Result Argument :=
    match value with
    | some a => .ok (make a)
    | none => .error (mismatch s j)
  match s with
  | .bytes =>
    match j with
    | .str t =>
      match Text.Base64.decode t with
      | .ok bs => .ok (.bytes bs)
      | .error fault =>
        .error (.invalidArgument ("bytes result is not base64: " ++ fault.message))
    | _ => .error (mismatch s j)
  | .string => expect (match j with | .str t => some t | _ => none) .text
  | .bool => expect (match j with | .bool b => some b | _ => none) .bool
  | .int64 => expect (signed? j) .int
  | .uint64 =>
    match unsigned? j with
    | none => .error (mismatch s j)
    | some n =>
      if fits n then .ok (.int n)
      else .error (.invalidArgument ("uint64 result out of range: " ++ toString n))
  | .float64 => expect (float? j) .float

/-- A value of a point; a list is checked item by item. -/
def ofJson (p : Point) (j : Json) : Result Argument :=
  if j = .null then
    if p.nullable then .ok .null
    else .error (.invalidArgument ("null result for non-nullable " ++ p.text))
  else if p.repeated then
    match j with
    | .arr items => do
      items.forM fun item => discard (ofScalar p.scalar item)
      return .text j.compact
    | _ => .error (.invalidArgument ("expected array for " ++ p.text))
  else ofScalar p.scalar j

end Argument
end PagePipes.Sql
