import PagePipes.Decimal.Binary64

set_option autoImplicit false

/-!
# Reading numbers from text

Integers are digits behind an optional sign. A float is a decimal number with an optional fraction
and exponent, or the name of infinity or of not-a-number in any case.
-/
namespace PagePipes.Decimal.Literal

def isDigit (c : Char) : Bool := decide ('0' ≤ c ∧ c ≤ '9')

def digits? (cs : List Char) : Option Nat :=
  if cs.isEmpty || !cs.all isDigit then none
  else some (cs.foldl (fun n c => n * 10 + (c.toNat - 48)) 0)

def natural? (s : String) : Option Nat :=
  match s.toList with
  | '+' :: rest => digits? rest
  | cs => digits? cs

def integer? (s : String) : Option Int :=
  match s.toList with
  | '-' :: rest => (digits? rest).map fun n => -(n : Int)
  | '+' :: rest => (digits? rest).map Int.ofNat
  | cs => (digits? cs).map Int.ofNat

/-- The exponent behind `e`, or zero where there is none. -/
def exponent? : List Char → Option Int
  | [] => some 0
  | c :: rest => if c = 'e' ∨ c = 'E' then integer? (String.ofList rest) else none

def unsigned? (cs : List Char) : Option Binary64 :=
  let whole := cs.takeWhile isDigit
  let rest := cs.drop whole.length
  let (fraction, rest) := match rest with
    | '.' :: r => (r.takeWhile isDigit, r.dropWhile isDigit)
    | r => ([], r)
  if whole.isEmpty && fraction.isEmpty then
    match String.ofList (cs.map Char.toLower) with
    | "inf" | "infinity" => some .infinity
    | "nan" => some .nan
    | _ => none
  else do
    let e ← exponent? rest
    let n ← digits? (whole ++ fraction)
    return Binary64.ofDecimal n (e - fraction.length)

/-- The float that is nearest to a decimal number. -/
def float? (s : String) : Option Binary64 :=
  match s.toList with
  | '-' :: rest => (unsigned? rest).map Binary64.neg
  | '+' :: rest => unsigned? rest
  | cs => unsigned? cs

end PagePipes.Decimal.Literal
