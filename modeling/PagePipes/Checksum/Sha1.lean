import PagePipes.Checksum.Block
import PagePipes.Text.Hex

set_option autoImplicit false

/-!
# SHA-1

The digest that names every resource: 40 lower-case hexadecimal digits. Words are numbers below
2 to the 32.
-/
namespace PagePipes.Checksum.Sha1
open PagePipes.Checksum

structure State where
  a : Nat
  b : Nat
  c : Nat
  d : Nat
  e : Nat

def initial : State := ⟨0x67452301, 0xefcdab89, 0x98badcfe, 0x10325476, 0xc3d2e1f0⟩

def low (n : Nat) : Nat := n % 0x100000000

def rotateLeft (x n : Nat) : Nat := low (x <<< n) ||| x >>> (32 - n)

/-- Words, the latest first, followed by the given number of further ones, each of which is made of
four of the sixteen before it. -/
def schedule (words : List Nat) : Nat → List Nat
  | 0 => words
  | n + 1 =>
    let next := rotateLeft
      (words.getD 2 0 ^^^ words.getD 7 0 ^^^ words.getD 13 0 ^^^ words.getD 15 0) 1
    schedule (next :: words) n

def choice (b c d : Nat) : Nat := (b &&& c) ||| ((b ^^^ 0xffffffff) &&& d)

def parity (b c d : Nat) : Nat := b ^^^ c ^^^ d

def majority (b c d : Nat) : Nat := (b &&& c) ||| (b &&& d) ||| (c &&& d)

def round (mix : Nat → Nat → Nat → Nat) (constant : Nat) (s : State) (word : Nat) : State :=
  ⟨low (rotateLeft s.a 5 + mix s.b s.c s.d + s.e + constant + word), s.a, rotateLeft s.b 30, s.c,
    s.d⟩

/-- Eighty rounds, one for each word, in four stages. -/
def compress (s : State) (block : List Nat) : State :=
  let words := (schedule block.reverse 64).reverse
  let t := (words.take 20).foldl (round choice 0x5a827999) s
  let t := ((words.drop 20).take 20).foldl (round parity 0x6ed9eba1) t
  let t := ((words.drop 40).take 20).foldl (round majority 0x8f1bbcdc) t
  let t := (words.drop 60).foldl (round parity 0xca62c1d6) t
  ⟨low (s.a + t.a), low (s.b + t.b), low (s.c + t.c), low (s.d + t.d), low (s.e + t.e)⟩

def hash (message : ByteArray) : List UInt8 :=
  let s := Block.run compress initial message
  [s.a, s.b, s.c, s.d, s.e].flatMap (Block.bytesOf 4)

def digest (message : ByteArray) : String := Text.Hex.ofBytes (hash message)

def digestText (s : String) : String := digest s.toUTF8

end PagePipes.Checksum.Sha1
