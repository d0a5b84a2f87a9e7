import PagePipes.Json.Decode
import PagePipes.Text.Quoted

set_option autoImplicit false

/-!
# Points

A point is the type of what a pipe produces: a scalar, or a list of that scalar, either of which
may also be missing.
-/
namespace PagePipes

inductive Scalar
  | bytes
  | string
  | bool
  | int64
  | uint64
  | float64
  deriving DecidableEq, Repr

namespace Scalar

def all : List Scalar := [.bytes, .string, .bool, .int64, .uint64, .float64]

def text : Scalar → String
  | .bytes => "bytes"
  | .string => "string"
  | .bool => "bool"
  | .int64 => "int64"
  | .uint64 => "uint64"
  | .float64 => "float64"

def alternatives : List (String × Scalar) := all.map fun s => (s.text, s)

/-- Reads a scalar by name; no name at all asks for a string. -/
def parse (s : String) : Result Scalar :=
  if s = "" then .ok .string
  else match alternatives.lookup s with
    | some scalar => .ok scalar
    | none => .error (.invalidArgument ("unknown scalar: " ++ Text.Quoted.text s))

end Scalar

structure Point where
  nullable : Bool := false
  repeated : Bool := false
  scalar : Scalar := .string
  deriving DecidableEq, Repr

namespace Point

/-- The written form, such as `nullable repeated int64`. -/
def text (p : Point) : String :=
  (if p.nullable then "nullable " else "") ++ (if p.repeated then "repeated " else "")
    ++ p.scalar.text

def flag (name : String) (b : Bool) : List (String × Json) := if b then [(name, .bool true)] else []

def toJson (p : Point) : Json :=
  .obj (flag "nullable" p.nullable ++ flag "repeated" p.repeated ++ [("scalar", .str p.scalar.text)])

structure Draft where
  nullable : Option Bool := none
  repeated : Option Bool := none
  scalar : Option Scalar := none

def layout : Decoder.Layout := [("nullable", true), ("repeated", true), ("scalar", true)]

open Decoder in
def decoder (origin : Origin) : Decoder Point := fun d => do
  let step (s : Draft) (name : String) (d : Document) : Except DecodeFault Draft :=
    match name with
    | "nullable" => return { s with nullable := ← once s.nullable name (bool d) }
    | "repeated" => return { s with repeated := ← once s.repeated name (bool d) }
    | _ => return { s with scalar := ← once s.scalar name (variant origin Scalar.alternatives d) }
  let s ← record origin layout step {} d
  return ⟨s.nullable.getD false, s.repeated.getD false, s.scalar.getD .string⟩

end Point
end PagePipes
