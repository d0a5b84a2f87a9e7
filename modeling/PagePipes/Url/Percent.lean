import PagePipes.Text.Hex

set_option autoImplicit false

/-!
# Percent encoding

Inside a URL a byte may be written as a percent sign and two hexadecimal digits. Each part of a URL
has its own set of ASCII characters that must be written so; every byte beyond ASCII is.
-/
namespace PagePipes.Url.Percent

def escape (b : UInt8) : List Char :=
  '%' :: (Text.Hex.fixed 2 b.toNat).map Char.toUpper

/-- Writes the characters of a set as bytes; the set holds for ASCII characters only. -/
def encodeChar (set : Char → Bool) (c : Char) : List Char :=
  if c.toNat < 128 && !set c then [c]
  else (String.singleton c).toUTF8.toList.flatMap escape

def encode (set : Char → Bool) (cs : List Char) : List Char := cs.flatMap (encodeChar set)

def isControl (c : Char) : Bool := decide (c.toNat < 32 ∨ c.toNat = 127)

def inFragment (c : Char) : Bool := isControl c || " \"<>\x60".toList.contains c

def inQuery (c : Char) : Bool := isControl c || " \"#<>".toList.contains c

/-- A query of a special URL also escapes the apostrophe. -/
def inSpecialQuery (c : Char) : Bool := inQuery c || c == '\''

def inPath (c : Char) : Bool := inFragment c || "#?\x7b\x7d".toList.contains c

def inUserInfo (c : Char) : Bool := inPath c || "/:;=@[\\]^|".toList.contains c

/-- Reads escaped bytes; a percent sign without two digits stands for itself. -/
def decodeBytes : List UInt8 → List UInt8
  | [] => []
  | [b] => [b]
  | [a, b] => [a, b]
  | a :: b :: c :: rest =>
    let hex (d : UInt8) : Option Nat := Text.Hex.value? (Char.ofNat d.toNat)
    if a = 0x25 then
      match hex b, hex c with
      | some x, some y => UInt8.ofNat (16 * x + y) :: decodeBytes rest
      | _, _ => a :: decodeBytes (b :: c :: rest)
    else a :: decodeBytes (b :: c :: rest)

def decode? (cs : List Char) : Option (List Char) :=
  let bytes := decodeBytes (String.ofList cs).toUTF8.toList
  (String.fromUTF8? ⟨bytes.toArray⟩).map String.toList

end PagePipes.Url.Percent
