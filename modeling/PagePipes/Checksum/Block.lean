set_option autoImplicit false

/-!
# Padded messages of 64-byte blocks

The two hash functions of this library read the same padded message: the bytes, one marker byte,
zeros, and the length in bits as eight bytes, so that the whole is a multiple of 64 bytes. A block is
a list of sixteen words. The functions differ in their state and in what one block does to it.
-/
namespace PagePipes.Checksum.Block

def zerosAfter (size : Nat) : Nat := (119 - size % 64) % 64

def bytesOf (width n : Nat) : List UInt8 :=
  match width with
  | 0 => []
  | w + 1 => UInt8.ofNat (n >>> (8 * w)) :: bytesOf w n

def pad (message : List UInt8) : List UInt8 :=
  message ++ 0x80 :: List.replicate (zerosAfter message.length) 0
    ++ bytesOf 8 (message.length * 8)

def wordsOf : List UInt8 → List Nat
  | a :: b :: c :: d :: rest =>
    (a.toNat <<< 24 ||| b.toNat <<< 16 ||| c.toNat <<< 8 ||| d.toNat) :: wordsOf rest
  | _ => []

/-- Folds a compression function over a number of blocks. -/
def absorb {σ : Type} (compress : σ → List Nat → σ) (s : σ) (words : List Nat) : Nat → σ
  | 0 => s
  | n + 1 => absorb compress (compress s (words.take 16)) (words.drop 16) n

def run {σ : Type} (compress : σ → List Nat → σ) (initial : σ) (message : ByteArray) : σ :=
  let words := wordsOf (pad message.data.toList)
  absorb compress initial words (words.length / 16)

/-- With the marker and the length, the zeros fill the last block. -/
theorem size_add_zerosAfter (size : Nat) : (size + 1 + zerosAfter size + 8) % 64 = 0 := by
  unfold zerosAfter
  omega

end PagePipes.Checksum.Block
