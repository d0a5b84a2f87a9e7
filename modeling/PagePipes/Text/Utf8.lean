set_option autoImplicit false

/-!
# UTF-8 with gaps

Bytes are read as a text. Where they are no UTF-8, the longest part that begins a character is
replaced by one replacement character.
-/
namespace PagePipes.Text.Utf8

/-- The range of the byte after a first byte, and how many more bytes follow it. -/
def continuation (b : UInt8) : Option (UInt8 × UInt8 × Nat) :=
  if 0xc2 ≤ b ∧ b ≤ 0xdf then some (0x80, 0xbf, 0)
  else if b = 0xe0 then some (0xa0, 0xbf, 1)
  else if b = 0xed then some (0x80, 0x9f, 1)
  else if 0xe1 ≤ b ∧ b ≤ 0xef then some (0x80, 0xbf, 1)
  else if b = 0xf0 then some (0x90, 0xbf, 2)
  else if 0xf1 ≤ b ∧ b ≤ 0xf3 then some (0x80, 0xbf, 2)
  else if b = 0xf4 then some (0x80, 0x8f, 2)
  else none

def leading (b : UInt8) : Nat :=
  if b < 0xe0 then b.toNat - 0xc0 else if b < 0xf0 then b.toNat - 0xe0 else b.toNat - 0xf0

def replacement : Char := '\ufffd'

/-- The state between bytes: nothing is open, or the value so far, the range of the next byte and
how many more follow it. -/
inductive Open
  | none
  | char (value : Nat) (low high : UInt8) (more : Nat)
  deriving DecidableEq, Repr

def first (b : UInt8) : List Char × Open :=
  if b < 0x80 then ([Char.ofNat b.toNat], .none)
  else match continuation b with
    | some (low, high, more) => ([], .char (leading b) low high more)
    | none => ([replacement], .none)

/-- Reads one byte. Answers the characters that it completes. -/
def step (s : Open) (b : UInt8) : List Char × Open :=
  match s with
  | .none => first b
  | .char value low high more =>
    if low ≤ b ∧ b ≤ high then
      let value := value * 64 + (b.toNat - 0x80)
      match more with
      | 0 => ([Char.ofNat value], .none)
      | more + 1 => ([], .char value 0x80 0xbf more)
    else
      let (cs, s) := first b
      (replacement :: cs, s)

def decodeFrom (s : Open) : List UInt8 → List Char
  | [] => if s = .none then [] else [replacement]
  | b :: rest =>
    let (cs, s) := step s b
    cs ++ decodeFrom s rest

def decode (bytes : List UInt8) : List Char := decodeFrom .none bytes

end PagePipes.Text.Utf8
