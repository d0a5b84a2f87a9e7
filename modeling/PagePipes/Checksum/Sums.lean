import PagePipes.Checksum.Crc32c
import PagePipes.Checksum.Sha1
import PagePipes.Checksum.Sha256
import PagePipes.Text.Blank

set_option autoImplicit false

/-!
# File checksums

Three checksums of one content, and the question whether a given text is one of them.
-/
namespace PagePipes.Checksum

structure Sums where
  crc32c : String
  sha1 : String
  sha256 : String
  deriving DecidableEq, Repr

namespace Sums

def of (content : ByteArray) : Sums :=
  ⟨Crc32c.digest content, Sha1.digest content, Sha256.digest content⟩

def toList (s : Sums) : List String := [s.crc32c, s.sha1, s.sha256]

/-- Blanks around the expected text and the case of ASCII letters do not count. -/
def matchesText (s : Sums) (expected : String) : Bool :=
  let lowered (t : String) : List Char := t.toList.map Char.toLower
  s.toList.any fun t => lowered t == lowered (Text.Blank.trim expected)

end Sums
end PagePipes.Checksum
