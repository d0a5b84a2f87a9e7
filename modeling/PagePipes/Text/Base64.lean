set_option autoImplicit false

/-!
# Base64 with padding

The standard alphabet. Decoding is strict: the padding must be there, and the bits that the last
symbol leaves over must be zero. A failure says where the text first goes wrong.
-/
namespace PagePipes.Text.Base64

def alphabet : List Char :=
  "ABCDEFGHIJKLMNOPQRSTUVWXYZabcdefghijklmnopqrstuvwxyz0123456789+/".toList

def symbol (n : Nat) : Char := alphabet.getD n 'A'

def value? (b : UInt8) : Option Nat :=
  let n := b.toNat
  if 65 ≤ n ∧ n ≤ 90 then some (n - 65)
  else if 97 ≤ n ∧ n ≤ 122 then some (n - 71)
  else if 48 ≤ n ∧ n ≤ 57 then some (n + 4)
  else if n = 43 then some 62
  else if n = 47 then some 63
  else none

def encodeChars : List UInt8 → List Char
  | [] => []
  | [a] =>
    let n := a.toNat * 16
    [symbol (n / 64), symbol (n % 64), '=', '=']
  | [a, b] =>
    let n := (a.toNat * 256 + b.toNat) * 4
    [symbol (n / 4096), symbol (n / 64 % 64), symbol (n % 64), '=']
  | a :: b :: c :: rest =>
    let n := (a.toNat * 256 + b.toNat) * 256 + c.toNat
    symbol (n / 262144) :: symbol (n / 4096 % 64) :: symbol (n / 64 % 64) :: symbol (n % 64)
      :: encodeChars rest

def encode (bytes : List UInt8) : String := String.ofList (encodeChars bytes)

inductive Fault
  | invalidSymbol (offset : Nat) (byte : UInt8)
  | invalidLength (length : Nat)
  | invalidLastSymbol (offset : Nat) (byte : UInt8)
  | invalidPadding
  deriving DecidableEq, Repr

def Fault.message : Fault → String
  | .invalidSymbol offset byte => s!"Invalid symbol {byte.toNat}, offset {offset}."
  | .invalidLength length => s!"Invalid input length: {length}"
  | .invalidLastSymbol offset byte => s!"Invalid last symbol {byte.toNat}, offset {offset}."
  | .invalidPadding => "Invalid padding"

/-- What reading the last quad has seen so far. -/
structure Tail where
  values : List Nat
  last : UInt8
  /-- Offset of the first padding byte within the quad. -/
  firstPad : Option Nat
  pads : Nat
  deriving Repr

def Tail.empty : Tail := ⟨[], 0, none, 0⟩

/-- One byte of the last quad; `index` is its offset within the quad and `base` that of the quad. -/
def Tail.step (base index : Nat) (t : Tail) (b : UInt8) : Except Fault Tail :=
  if b = 61 then
    if index < 2 then .error (.invalidSymbol (base + index) b)
    else .ok { t with firstPad := t.firstPad.or (some index), pads := t.pads + 1 }
  else match t.firstPad with
    | some first => .error (.invalidSymbol (base + first) 61)
    | none => match value? b with
      | none => .error (.invalidSymbol (base + index) b)
      | some v => .ok { t with values := t.values ++ [v], last := b }

def Tail.read (base index : Nat) (t : Tail) : List UInt8 → Except Fault Tail
  | [] => .ok t
  | b :: rest => do Tail.read base (index + 1) (← t.step base index b) rest

/-- The bytes of a last quad with two, three or four symbols, and the bits left over. -/
def Tail.bytes : List Nat → List UInt8 × Nat
  | [a, b] => ([UInt8.ofNat (a * 4 + b / 16)], b % 16)
  | [a, b, c] => ([UInt8.ofNat (a * 4 + b / 16), UInt8.ofNat (b % 16 * 16 + c / 4)], c % 4)
  | [a, b, c, d] =>
    ([UInt8.ofNat (a * 4 + b / 16), UInt8.ofNat (b % 16 * 16 + c / 4),
      UInt8.ofNat (c % 4 * 64 + d)], 0)
  | _ => ([], 0)

/-- The last quad of a text, complete or not. -/
def decodeTail (base : Nat) (bs : List UInt8) : Except Fault (List UInt8) := do
  if bs.isEmpty then return []
  let t ← Tail.empty.read base 0 bs
  let n := t.values.length
  if n < 2 then throw (.invalidLength (base + n))
  if (t.pads + n) % 4 ≠ 0 then throw .invalidPadding
  let (bytes, left) := Tail.bytes t.values
  if left ≠ 0 then throw (.invalidLastSymbol (base + n - 1) t.last)
  return bytes

def symbolValue (offset : Nat) (b : UInt8) : Except Fault Nat :=
  match value? b with
  | some v => .ok v
  | none => .error (.invalidSymbol offset b)

/-- Reads quad after quad; `base` is the offset of the first byte of the list. -/
def decodeFrom (base : Nat) : List UInt8 → Except Fault (List UInt8)
  | a :: b :: c :: d :: e :: rest => do
    let va ← symbolValue base a
    let vb ← symbolValue (base + 1) b
    let vc ← symbolValue (base + 2) c
    let vd ← symbolValue (base + 3) d
    let tail ← decodeFrom (base + 4) (e :: rest)
    return (Tail.bytes [va, vb, vc, vd]).1 ++ tail
  | bs => decodeTail base bs

/-- Reads a whole text. A lone last byte that is neither symbol nor padding is reported before
anything else. -/
def decode (s : String) : Except Fault (List UInt8) :=
  let bs := s.toUTF8.toList
  match bs.getLast? with
  | some b =>
    if bs.length % 4 = 1 ∧ b ≠ 61 ∧ value? b = none then
      .error (.invalidSymbol (bs.length - 1) b)
    else decodeFrom 0 bs
  | none => .ok []

end PagePipes.Text.Base64
