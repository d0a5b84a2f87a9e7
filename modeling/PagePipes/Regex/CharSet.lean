set_option autoImplicit false

/-!
# Sets of characters in a pattern

A pattern is matched against the text of a URL, and that text is ASCII. A set is therefore decided
for ASCII characters and for the two others whose case forms are ASCII letters, the long s and the
kelvin sign; set operations and case folding are exact there. Whether a set keeps to ASCII is kept
beside it, because a pattern that leaves Unicode mode may not hold a set that does not. So is an
estimate of the bytes that its automaton takes, because a pattern may not grow too large.
-/
namespace PagePipes.Regex

structure CharSet where
  has : Char → Bool
  /-- No character of the set lies outside ASCII. -/
  ascii : Bool
  /-- Estimated bytes of the automaton that accepts one character of the set. -/
  weight : Nat

namespace CharSet

def empty : CharSet := ⟨fun _ => false, true, 32⟩

def all : CharSet := ⟨fun _ => true, false, 480⟩

def single (c : Char) : CharSet := ⟨fun d => d == c, decide (c.toNat < 128), 32 * c.utf8Size⟩

def range (a b : Char) : CharSet :=
  ⟨fun d => decide (a ≤ d ∧ d ≤ b), decide (b.toNat < 128), 32 * b.utf8Size⟩

/-- Code points of a list of ranges, as part of a property of many scripts. -/
def ofRanges (ranges : List (Nat × Nat)) : CharSet :=
  ⟨fun d => ranges.any fun r => decide (r.1 ≤ d.toNat ∧ d.toNat ≤ r.2), false,
    if ranges.isEmpty then 2000 else 40000⟩

def union (a b : CharSet) : CharSet := ⟨fun c => a.has c || b.has c, a.ascii && b.ascii, a.weight + b.weight⟩

def inter (a b : CharSet) : CharSet := ⟨fun c => a.has c && b.has c, a.ascii || b.ascii,
  max a.weight b.weight⟩

def diff (a b : CharSet) : CharSet := ⟨fun c => a.has c && !b.has c, a.ascii, a.weight + b.weight⟩

def symmDiff (a b : CharSet) : CharSet := ⟨fun c => a.has c != b.has c, a.ascii && b.ascii,
  a.weight + b.weight⟩

def compl (a : CharSet) : CharSet := ⟨fun c => !a.has c, false, a.weight + 480⟩

def asciiPart (a : CharSet) : CharSet := ⟨fun c => decide (c.toNat < 128) && a.has c, true, 64⟩

def longS : Char := '\u017f'

def kelvin : Char := '\u212a'

/-- The characters that differ from a character in case only, itself included. -/
def caseForms (c : Char) : List Char :=
  if c = 's' ∨ c = 'S' ∨ c = longS then ['s', 'S', longS]
  else if c = 'k' ∨ c = 'K' ∨ c = kelvin then ['k', 'K', kelvin]
  else [c, c.toLower, c.toUpper]

def fold (a : CharSet) : CharSet := ⟨fun c => (caseForms c).any a.has, false, a.weight + 16⟩

def digits : CharSet := range '0' '9'

def letters : CharSet := union (range 'a' 'z') (range 'A' 'Z')

/-- Letters, digits and the underscore; outside ASCII also the long s and the kelvin sign. -/
def words : CharSet :=
  union (union letters digits)
    (union (single '_') ⟨fun c => c == longS || c == kelvin, false, 48000⟩)

def allDigits : CharSet := union digits ⟨fun _ => false, false, 3600⟩

def spaces : CharSet := union (range '\t' '\x0d') (single ' ')

def named? : String → Option CharSet
  | "alnum" => some (union letters digits)
  | "alpha" => some letters
  | "ascii" => some (range '\x00' '\x7f')
  | "blank" => some (union (single '\t') (single ' '))
  | "cntrl" => some (union (range '\x00' '\x1f') (single '\x7f'))
  | "digit" => some digits
  | "graph" => some (range '!' '~')
  | "lower" => some (range 'a' 'z')
  | "print" => some (range ' ' '~')
  | "punct" => some (union (union (range '!' '/') (range ':' '@'))
      (union (range '[' '\x60') (range '\x7b' '~')))
  | "space" => some spaces
  | "upper" => some (range 'A' 'Z')
  | "word" => some words.asciiPart
  | "xdigit" => some (union digits (union (range 'a' 'f') (range 'A' 'F')))
  | _ => none

end CharSet
end PagePipes.Regex
