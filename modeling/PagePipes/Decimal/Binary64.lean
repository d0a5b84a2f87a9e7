set_option autoImplicit false

/-!
# Binary floating-point numbers

A 64-bit floating-point number is its bit pattern, so two numbers are equal only when every bit
agrees. A finite number is `magnitude.1 * 2 ^ magnitude.2` with its sign; `ofRatio` rounds a
quotient of natural numbers to the nearest number, a tie to the even fraction.
-/
namespace PagePipes

structure Binary64 where
  bits : UInt64
  deriving DecidableEq, Repr

namespace Binary64

def zero : Binary64 := ⟨0⟩

def infinity : Binary64 := ⟨0x7ff0000000000000⟩

def nan : Binary64 := ⟨0x7ff8000000000000⟩

def isNegative (x : Binary64) : Bool := decide (1 <<< 63 ≤ x.bits.toNat)

def exponentField (x : Binary64) : Nat := (x.bits.toNat >>> 52) % (1 <<< 11)

def fractionField (x : Binary64) : Nat := x.bits.toNat % (1 <<< 52)

def isFinite (x : Binary64) : Bool := decide (x.exponentField ≠ 2047)

def isNaN (x : Binary64) : Bool := !x.isFinite && decide (x.fractionField ≠ 0)

def isZero (x : Binary64) : Bool := decide (x.exponentField = 0 ∧ x.fractionField = 0)

def neg (x : Binary64) : Binary64 := ⟨x.bits ^^^ 0x8000000000000000⟩

def withSign (negative : Bool) (x : Binary64) : Binary64 := if negative then x.neg else x

/-- Integer significand and binary exponent of the absolute value of a finite number. -/
def magnitude (x : Binary64) : Nat × Int :=
  if x.exponentField = 0 then (x.fractionField, -1074)
  else (x.fractionField + (1 <<< 52), (x.exponentField : Int) - 1075)

def ratio (x : Binary64) : Nat × Nat :=
  let (m, e) := x.magnitude
  if 0 ≤ e then (m <<< e.toNat, 1) else (m, 1 <<< (-e).toNat)

/-- `num / den` in units of `2 ^ e`, rounded to the nearest integer, a tie to the even one. -/
def roundUnits (num den : Nat) (e : Int) : Nat :=
  let n := if 0 ≤ e then num else num <<< (-e).toNat
  let d := if 0 ≤ e then den <<< e.toNat else den
  let q := n / d
  let r := n % d
  if 2 * r < d then q else if d < 2 * r then q + 1 else q + q % 2

/-- The binary exponent of the last significand bit for `num / den`. -/
def unitExponent (num den : Nat) : Int :=
  let guess : Int := (Nat.log2 num : Int) - (Nat.log2 den : Int) - 53
  let large : Bool :=
    if 0 ≤ guess then decide (den <<< guess.toNat <<< 53 ≤ num)
    else decide (den <<< 53 ≤ num <<< (-guess).toNat)
  max (if large then guess + 1 else guess) (-1074)

/-- The number nearest to `num / den`; too large a quotient becomes infinite. -/
def ofRatio (num den : Nat) : Binary64 :=
  if num = 0 then zero
  else
    let e := unitExponent num den
    let q := roundUnits num den e
    let bits := if q < 1 <<< 52 then q else ((e + 1075).toNat <<< 52) + (q - (1 <<< 52))
    if bits < 2047 <<< 52 then ⟨UInt64.ofNat bits⟩ else infinity

def ofNat (n : Nat) : Binary64 := ofRatio n 1

def ofInt (n : Int) : Binary64 := withSign (decide (n < 0)) (ofNat n.natAbs)

def ofDecimal (digits : Nat) (exponent : Int) : Binary64 :=
  let size : Int := exponent + (Nat.log2 digits : Int)
  if digits = 0 then zero
  else if size < -5000 then zero
  else if 0 ≤ exponent then
    if 5000 < exponent then infinity else ofRatio (digits * Nat.pow 10 exponent.toNat) 1
  else ofRatio digits (Nat.pow 10 (-exponent).toNat)

def mulAbs (x y : Binary64) : Binary64 :=
  let (a, b) := x.ratio
  let (c, d) := y.ratio
  ofRatio (a * c) (b * d)

/-- The quotient of two finite absolute values, rounded; the second is not zero. -/
def divAbs (x y : Binary64) : Binary64 :=
  let (a, b) := x.ratio
  let (c, d) := y.ratio
  ofRatio (a * d) (b * c)

/-- The value as an integer, when the number is finite and is one. -/
def toInt? (x : Binary64) : Option Int :=
  if x.isFinite then
    let (a, b) := x.ratio
    if a % b = 0 then
      let n : Int := (a / b : Nat)
      some (if x.isNegative then -n else n)
    else none
  else none

/-- Equality of values: both zeros agree, and not-a-number differs from everything. -/
def sameValue (x y : Binary64) : Bool :=
  !x.isNaN && !y.isNaN && (x == y || (x.isZero && y.isZero))

end Binary64
end PagePipes
