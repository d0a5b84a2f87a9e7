import PagePipes.Decimal.Literal
import PagePipes.Text.Hex
import PagePipes.Toml.Value

set_option autoImplicit false

/-!
# TOML scalars

Numbers, truth values and moments are words; each word has at most one meaning. Underscores may
stand between the digits of a number.
-/
namespace PagePipes.Toml

open Decimal.Literal (isDigit)

/-! ## Digits -/

def isDigitOf (base : Nat) (c : Char) : Bool := (Text.Hex.value? c).any (· < base)

/-- Digits with single underscores between them, without the underscores. -/
def separated? (base : Nat) : List Char → Option (List Char)
  | [] => none
  | [c] => if isDigitOf base c then some [c] else none
  | c :: '_' :: rest => if isDigitOf base c then (separated? base rest).map (c :: ·) else none
  | c :: rest => if isDigitOf base c then (separated? base rest).map (c :: ·) else none

def number? (base : Nat) (cs : List Char) : Option Nat := do
  return (← separated? base cs).foldl (fun n c => n * base + (Text.Hex.value? c).getD 0) 0

/-- Decimal digits, the first of which is zero only if it is the only one. -/
def whole? (cs : List Char) : Option (List Char) := do
  match ← separated? 10 cs with
  | '0' :: _ :: _ => none
  | ds => return ds

def sign : List Char → Bool × List Char
  | '-' :: rest => (true, rest)
  | '+' :: rest => (false, rest)
  | cs => (false, cs)

/-! ## Numbers -/

/-- An integer of 64 bits. Only a decimal one has a sign. -/
def integer? (cs : List Char) : Option Int := do
  let n : Int ← match cs with
    | '0' :: 'x' :: rest => Int.ofNat <$> number? 16 rest
    | '0' :: 'o' :: rest => Int.ofNat <$> number? 8 rest
    | '0' :: 'b' :: rest => Int.ofNat <$> number? 2 rest
    | _ =>
      let (negative, digits) := sign cs
      let ds ← whole? digits
      let n ← Decimal.Literal.digits? ds
      pure (if negative then -(n : Int) else n)
  if -(1 <<< 63) ≤ n ∧ n < 1 <<< 63 then some n else none

def splitAt? (p : Char → Bool) (cs : List Char) : Option (List Char × List Char) :=
  match cs.dropWhile (!p ·) with
  | [] => none
  | _ :: rest => some (cs.takeWhile (!p ·), rest)

/-- A whole part, and a fraction or an exponent or both. -/
def decimal? (cs : List Char) : Option (List Char) := do
  let isMark (c : Char) : Bool := c == 'e' || c == 'E'
  let (mantissa, exponent) ← match splitAt? isMark cs with
    | some (m, e) => do
      let (negative, digits) := sign e
      pure (m, (if negative then ['e', '-'] else ['e']) ++ (← separated? 10 digits))
    | none => pure (cs, [])
  match splitAt? (· == '.') mantissa with
  | some (w, f) => return (← whole? w) ++ '.' :: (← separated? 10 f) ++ exponent
  | none => if exponent.isEmpty then none else return (← whole? mantissa) ++ exponent

/-- A float; one that is too large is refused. -/
def float? (cs : List Char) : Option Binary64 := do
  let (negative, rest) := sign cs
  let signed (x : Binary64) : Binary64 := if negative then x.neg else x
  match String.ofList rest with
  | "inf" => return signed .infinity
  | "nan" => return signed .nan
  | _ =>
    let x ← Decimal.Literal.unsigned? (← decimal? rest)
    if x == .infinity && !negative then none else return signed x

/-! ## Moments -/

def field? (width low high : Nat) (cs : List Char) : Option Nat := do
  let n ← if cs.length = width then Decimal.Literal.digits? cs else none
  if low ≤ n ∧ n ≤ high then some n else none

def daysIn (year month : Nat) : Nat :=
  if month = 2 then
    if year % 4 = 0 ∧ (year % 100 ≠ 0 ∨ year % 400 = 0) then 29 else 28
  else if month = 4 ∨ month = 6 ∨ month = 9 ∨ month = 11 then 30
  else 31

def isDate (cs : List Char) : Bool :=
  match cs with
  | [y₁, y₂, y₃, y₄, '-', m₁, m₂, '-', d₁, d₂] =>
    match field? 4 0 9999 [y₁, y₂, y₃, y₄], field? 2 1 12 [m₁, m₂] with
    | some y, some m => (field? 2 1 (daysIn y m) [d₁, d₂]).isSome
    | _, _ => false
  | _ => false

def isFraction : List Char → Bool
  | [] => true
  | '.' :: rest => !rest.isEmpty && rest.all isDigit
  | _ => false

def isHourMinute : List Char → Bool
  | [h₁, h₂, ':', m₁, m₂] => (field? 2 0 23 [h₁, h₂]).isSome && (field? 2 0 59 [m₁, m₂]).isSome
  | _ => false

def isTime (cs : List Char) : Bool :=
  isHourMinute (cs.take 5)
    && match cs.drop 5 with
      | ':' :: s₁ :: s₂ :: rest => (field? 2 0 60 [s₁, s₂]).isSome && isFraction rest
      | _ => false

def isOffset : List Char → Bool
  | [] | ['Z'] | ['z'] => true
  | '+' :: rest | '-' :: rest => isHourMinute rest
  | _ => false

def isTimeOffset (cs : List Char) : Bool :=
  let isTimeChar (c : Char) : Bool := isDigit c || c == ':' || c == '.'
  isTime (cs.takeWhile isTimeChar) && isOffset (cs.dropWhile isTimeChar)

def isMoment (cs : List Char) : Bool :=
  isTime cs || isDate cs
    || (isDate (cs.take 10) && match cs.drop 10 with
      | c :: rest => (c == 'T' || c == 't' || c == ' ') && isTimeOffset rest
      | [] => false)

/-! ## Words -/

def ofWord? (cs : List Char) : Option Toml :=
  match String.ofList cs with
  | "true" => some (.bool true)
  | "false" => some (.bool false)
  | word =>
    if isMoment cs then some (.moment word)
    else match float? cs with
      | some x => some (.float x)
      | none => (integer? cs).map .integer

end PagePipes.Toml
