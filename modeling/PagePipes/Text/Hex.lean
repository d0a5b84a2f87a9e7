set_option autoImplicit false

/-!
# Hexadecimal text

Digits are lower case on output; on input each operation says which case it takes.
-/
namespace PagePipes.Text.Hex

def digit (n : Nat) : Char :=
  if n < 10 then Char.ofNat (48 + n) else Char.ofNat (87 + n)

def value? (c : Char) : Option Nat :=
  if '0' ≤ c ∧ c ≤ '9' then some (c.toNat - 48)
  else if 'a' ≤ c ∧ c ≤ 'f' then some (c.toNat - 87)
  else if 'A' ≤ c ∧ c ≤ 'F' then some (c.toNat - 55)
  else none

/-- A digit as a digest writes it: `0`–`9` or `a`–`f`. -/
def isLower (c : Char) : Bool :=
  decide ('0' ≤ c ∧ c ≤ '9') || decide ('a' ≤ c ∧ c ≤ 'f')

def ofByte (b : UInt8) : List Char := [digit (b.toNat / 16), digit (b.toNat % 16)]

def ofBytes (bytes : List UInt8) : String := String.ofList (bytes.flatMap ofByte)

/-- The `width` low digits of `n`, most significant first. -/
def fixed (width n : Nat) : List Char :=
  match width with
  | 0 => []
  | w + 1 => fixed w (n / 16) ++ [digit (n % 16)]

/-- The digits of `n` without leading zeros; zero has one digit. -/
def shortest (n : Nat) : String := String.ofList (Nat.toDigits 16 n)

/-- The number that a list of digits denotes; `none` when a character is no digit. -/
def number? (cs : List Char) : Option Nat :=
  cs.foldlM (fun n c => (value? c).map (n * 16 + ·)) 0

def bytes? : List Char → Option (List UInt8)
  | [] => some []
  | a :: b :: rest => do
    let high ← value? a
    let low ← value? b
    let tail ← bytes? rest
    return UInt8.ofNat (high * 16 + low) :: tail
  | [_] => none

theorem fixed_length (width n : Nat) : (fixed width n).length = width := by
  induction width generalizing n with
  | zero => rfl
  | succ w ih => simp [fixed, ih]

theorem ofByte_length (b : UInt8) : (ofByte b).length = 2 := rfl

end PagePipes.Text.Hex
