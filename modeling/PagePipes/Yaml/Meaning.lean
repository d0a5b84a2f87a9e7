import PagePipes.Decimal.Literal
import PagePipes.Json.Value
import PagePipes.Text.Hex

set_option autoImplicit false

/-!
# What plain scalars mean

A plain scalar without a tag is null, a truth value, an integer, a float or a text, as its spelling
says. Integers may be written to the bases sixteen, eight and two; a decimal number that begins
with a needless zero is a text.
-/
namespace PagePipes.Yaml

inductive Meaning
  | null
  | bool (value : Bool)
  /-- An integer of at most 64 bits, signed or unsigned. -/
  | int (value : Int)
  /-- An integer that needs up to 128 bits; no value holds it. -/
  | wide (value : Int)
  | float (value : Binary64)
  | text
  deriving DecidableEq, Repr

namespace Meaning

def isNull (s : String) : Bool := ["null", "Null", "NULL", "~"].contains s

def bool? (s : String) : Option Bool :=
  if ["true", "True", "TRUE"].contains s then some true
  else if ["false", "False", "FALSE"].contains s then some false
  else none

def digits? (base : Nat) (cs : List Char) : Option Nat :=
  if cs.isEmpty then none
  else cs.foldlM (fun n c =>
    match Text.Hex.value? c with
    | some d => if d < base then some (n * base + d) else none
    | none => none) 0

def dropSign : List Char → List Char
  | '+' :: rest => rest
  | '-' :: rest => rest
  | cs => cs

/-- Several digits, of which the first is a needless zero. -/
def isZeroPadded (s : String) : Bool :=
  match dropSign s.toList with
  | '0' :: c :: rest => (c :: rest).all Decimal.Literal.isDigit
  | _ => false

/-- A number without a sign, to the base that its first characters tell. -/
def magnitude? : List Char → Option Nat
  | '0' :: 'x' :: rest => digits? 16 rest
  | '0' :: 'o' :: rest => digits? 8 rest
  | '0' :: 'b' :: rest => digits? 2 rest
  | cs => digits? 10 cs

def integer? (s : String) : Option Int :=
  if isZeroPadded s then none
  else match s.toList with
    | '-' :: rest => (magnitude? rest).map fun n => -(n : Int)
    | '+' :: rest => (magnitude? rest).map Int.ofNat
    | cs => (magnitude? cs).map Int.ofNat

def ofInteger? (n : Int) : Option Meaning :=
  if -(1 <<< 63) ≤ n ∧ n < 1 <<< 64 then some (.int n)
  else if -(1 <<< 127) ≤ n ∧ n < 1 <<< 128 then some (.wide n)
  else none

/-- A float: a finite decimal number, or the dotted name of infinity or of not-a-number. -/
def float? (s : String) : Option Binary64 :=
  if [".inf", ".Inf", ".INF", "+.inf", "+.Inf", "+.INF"].contains s then some .infinity
  else if ["-.inf", "-.Inf", "-.INF"].contains s then some (.neg .infinity)
  else if [".nan", ".NaN", ".NAN"].contains s then some .nan
  else (Decimal.Literal.float? s).filter (·.isFinite)

def ofPlain (s : String) : Meaning :=
  if s.isEmpty || isNull s then .null
  else match bool? s with
    | some b => .bool b
    | none =>
      match (integer? s).bind ofInteger? with
      | some m => m
      | none =>
        if isZeroPadded s then .text
        else match float? s with
          | some x => .float x
          | none => .text

/-- The value that the text of a plain scalar stands for; a float that is not finite is null. -/
def toJson? (s : String) : Meaning → Option Json
  | .null => some .null
  | .bool b => some (.bool b)
  | .int n => some (.num (.int n))
  | .wide _ => none
  | .float x => some (if x.isFinite then .num (.float x) else .null)
  | .text => some (.str s)

end Meaning
end PagePipes.Yaml
