import PagePipes.Text.Hex

set_option autoImplicit false

/-!
# CRC-32C

The cyclic redundancy check with the reflected polynomial `0x82f63b78`.
-/
namespace PagePipes.Checksum.Crc32c

def bitStep (r : UInt32) : UInt32 :=
  if r &&& 1 = 1 then (r >>> 1) ^^^ 0x82f63b78 else r >>> 1

def byteStep (r : UInt32) (b : UInt8) : UInt32 :=
  Nat.fold 8 (fun _ _ r => bitStep r) (r ^^^ b.toUInt32)

def sum (message : ByteArray) : UInt32 :=
  message.foldl byteStep 0xffffffff ^^^ 0xffffffff

def digest (message : ByteArray) : String :=
  String.ofList (Text.Hex.fixed 8 (sum message).toNat)

end PagePipes.Checksum.Crc32c
