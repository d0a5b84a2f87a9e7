import PagePipes.Decimal.Binary64

set_option autoImplicit false

/-!
# Shortest decimal text of a binary number

The reals that round to a finite number form an interval, whose ends belong to it exactly when the
significand is even. `digits` finds the coarsest decimal grid with a point in the interval: on each
grid only the two neighbours of the number can be the nearest point, so those two are tested.
-/
namespace PagePipes.Decimal.Shortest

/-- Twice a significand's distance unit is split in two so that the interval has integer ends: the
interval of `m * 2 ^ e` is from `(4 * m - below) * 2 ^ (e - 2)` to `(4 * m + 2) * 2 ^ (e - 2)`. -/
structure Interval where
  low : Nat
  mid : Nat
  high : Nat
  /-- Common denominator of the three. -/
  den : Nat
  closed : Bool

def interval (x : Binary64) : Interval :=
  let (m, e) := x.magnitude
  let below := if m = 1 <<< 52 ∧ -1074 < e then 1 else 2
  let scale := if 0 ≤ e - 2 then 1 <<< (e - 2).toNat else 1
  let den := if 0 ≤ e - 2 then 1 else 1 <<< (2 - e).toNat
  ⟨(4 * m - below) * scale, 4 * m * scale, (4 * m + 2) * scale, den, m % 2 = 0⟩

def Interval.has (i : Interval) (n d : Nat) : Bool :=
  let lower := i.low * d
  let upper := i.high * d
  let value := n * i.den
  if i.closed then decide (lower ≤ value ∧ value ≤ upper)
  else decide (lower < value ∧ value < upper)

/-- The decimal exponent `p` with `10 ^ p ≤ n / d < 10 ^ (p + 1)`, searched down from `p`. -/
def leadingExponent (n d : Nat) : Nat → Int → Int
  | 0, p => p
  | fuel + 1, p =>
    let holds := if 0 ≤ p then decide (Nat.pow 10 p.toNat * d ≤ n)
      else decide (d ≤ n * Nat.pow 10 (-p).toNat)
    if holds then p else leadingExponent n d fuel (p - 1)

/-- The point of the grid `10 ^ k` nearest to the number, when one of its two neighbours on the
grid is in the interval. -/
def onGrid (i : Interval) (k : Int) : Option Nat :=
  let num := if 0 ≤ k then i.mid else i.mid * Nat.pow 10 (-k).toNat
  let den := if 0 ≤ k then i.den * Nat.pow 10 k.toNat else i.den
  let below := num / den
  let rest := num % den
  let inside (g : Nat) : Bool :=
    if 0 ≤ k then i.has (g * Nat.pow 10 k.toNat) 1 else i.has g (Nat.pow 10 (-k).toNat)
  let nearBelow := decide (2 * rest < den) || (decide (2 * rest = den) && decide (below % 2 = 0))
  match inside below, inside (below + 1) with
  | true, true => some (if nearBelow then below else below + 1)
  | true, false => some below
  | false, true => some (below + 1)
  | false, false => none

def firstGrid (i : Interval) (p : Int) : Nat → Nat → Nat × Int
  | 0, _ => (0, 0)
  | fuel + 1, count =>
    let k := p + 1 - (count : Int)
    match onGrid i k with
    | some g => (g, k)
    | none => firstGrid i p fuel (count + 1)

/-- Drops trailing zeros of a positive significand. -/
def strip : Nat → Nat × Int → Nat × Int
  | 0, r => r
  | fuel + 1, (g, k) => if g % 10 = 0 ∧ g ≠ 0 then strip fuel (g / 10, k + 1) else (g, k)

/-- Significand and decimal exponent of the shortest decimal that reads back as the absolute value
of a finite number other than zero, the nearest one of that length. -/
def digits (x : Binary64) : Nat × Int :=
  let i := interval x
  let (m, e) := x.magnitude
  let guess : Int := ((Nat.log2 m : Int) + e) * 1233 / 4096 + 1
  let p := leadingExponent i.mid i.den 4 guess
  strip 20 (firstGrid i p 18 1)

/-- How a number is laid out: whether a positive exponent carries a plus sign. -/
structure Layout where
  plus : Bool

/-- Positional for decimal exponents from -5 to 15, always with a point; otherwise scientific with
one leading digit. Only finite numbers have a text of this form. -/
def render (layout : Layout) (x : Binary64) : String :=
  let sign := if x.isNegative then "-" else ""
  if x.isZero then sign ++ "0.0"
  else
    let (g, k) := digits x
    let ds := Nat.toDigits 10 g
    let n : Int := ds.length
    let point := n + k
    let zeros (c : Int) : List Char := List.replicate c.toNat '0'
    let body : List Char :=
      if 0 ≤ k ∧ point ≤ 16 then ds ++ zeros k ++ ['.', '0']
      else if 0 < point ∧ point ≤ 16 then ds.take point.toNat ++ ['.'] ++ ds.drop point.toNat
      else if -5 < point ∧ point ≤ 0 then ['0', '.'] ++ zeros (-point) ++ ds
      else
        let e := point - 1
        let exponent := (if e < 0 then "-" else if layout.plus then "+" else "").toList
          ++ Nat.toDigits 10 e.natAbs
        let mantissa := if ds.length = 1 then ds else ds.take 1 ++ ['.'] ++ ds.drop 1
        mantissa ++ ['e'] ++ exponent
    sign ++ String.ofList body

end PagePipes.Decimal.Shortest
