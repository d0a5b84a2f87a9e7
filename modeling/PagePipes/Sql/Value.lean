import PagePipes.Sql.Argument
import PagePipes.Sql.Name

set_option autoImplicit false

/-!
# Stored values

An argument is stored as one of five kinds of value. A flag is stored as zero or one, and a float
that is not a number as null.
-/
namespace PagePipes.Sql

inductive Value
  | null
  | int (value : Int)
  | real (value : Binary64)
  | text (value : String)
  | blob (value : List UInt8)
  deriving DecidableEq, Repr

namespace Value

def ofArgument : Argument → Value
  | .null => .null
  | .bytes bs => .blob bs
  | .text s => .text s
  | .bool b => .int (if b then 1 else 0)
  | .int n => .int n
  | .float x => if x.isNaN then .null else .real x

/-- The value in a column of reals, which keep whole numbers as integers and so know one zero. -/
def inReals : Value → Value
  | .real x => .real (if x.isZero then Binary64.zero else x)
  | v => v

/-- The value as a column for values of a point keeps it. -/
def inColumn (p : Point) (v : Value) : Value :=
  if p.repeated then v
  else match p.scalar with
    | .float64 => v.inReals
    | _ => v

/-- Whether the value is of the kind that a point asks for, or null. -/
def isOf (p : Point) : Value → Bool
  | .null => true
  | .text _ => p.repeated || p.scalar == .string
  | .blob _ => !p.repeated && p.scalar == .bytes
  | .int _ => !p.repeated && (p.scalar == .bool || p.scalar == .int64 || p.scalar == .uint64)
  | .real _ => !p.repeated && p.scalar == .float64

/-- The value cast to the type of a column. A value of its kind stays as it is; no value of another
kind is ever recorded for a point, so conversions are left out. -/
def cast (p : Point) (v : Value) : Result Value :=
  if v.isOf p then .ok v else .error (.internal ("no cast to " ++ columnType p))

/-- The value in a row that is handed out: bytes as base64, and an infinite float as null. -/
def toJson : Value → Json
  | .null => .null
  | .int n => .num (.int n)
  | .real x => if x.isFinite then .num (.float x) else .null
  | .text s => .str s
  | .blob bs => .str (Text.Base64.encode bs)

@[simp] theorem inReals_null : inReals .null = .null := rfl

@[simp] theorem inColumn_null (p : Point) : inColumn p .null = .null := by
  unfold inColumn
  split
  · rfl
  · split <;> rfl

end Value
end PagePipes.Sql
