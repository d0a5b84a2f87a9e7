set_option autoImplicit false

/-!
# Characters with places

A YAML text is read as cells: characters with the line and the column where they stand. Line breaks
of all spellings are one character; the breaks that separate lines or paragraphs keep theirs.
-/
namespace PagePipes.Yaml

def nextLine : Char := '\u0085'

def lineSeparator : Char := '\u2028'

def paragraphSeparator : Char := '\u2029'

def byteOrderMark : Char := '\ufeff'

def isBreak (c : Char) : Bool := c == '\n' || c == lineSeparator || c == paragraphSeparator

def isBlank (c : Char) : Bool := c == ' ' || c == '\t'

/-- Whether a text may hold the character; most control characters are out. -/
def isAllowed (c : Char) : Bool :=
  let n := c.toNat
  c == '\t' || c == '\n' || c == '\r' || c == nextLine || decide (0x20 ≤ n ∧ n ≤ 0x7e)
    || (decide (0xa0 ≤ n) && n != 0xfffe && n != 0xffff)

/-- Every break that only ends a line is a line feed. -/
def unifyBreaks : List Char → List Char
  | [] => []
  | '\r' :: '\n' :: rest => '\n' :: unifyBreaks rest
  | c :: rest => (if c = '\r' ∨ c = nextLine then '\n' else c) :: unifyBreaks rest

structure Cell where
  char : Char
  line : Nat
  column : Nat
  deriving DecidableEq, Repr

namespace Cell

def place (line column : Nat) : List Char → List Cell
  | [] => []
  | c :: rest =>
    ⟨c, line, column⟩ :: (if isBreak c then place (line + 1) 0 rest else place line (column + 1) rest)

def ofChars (cs : List Char) : List Cell := place 0 0 (unifyBreaks cs)

def isBreak (c : Cell) : Bool := Yaml.isBreak c.char

def isBlank (c : Cell) : Bool := Yaml.isBlank c.char

def has (c : Cell) (ch : Char) : Bool := c.char == ch

end Cell

abbrev Cells := List Cell

namespace Cells

def char? (cs : Cells) (i : Nat) : Option Char := (cs[i]?).map (·.char)

/-- Whether a blank, a break or the end stands at a position. -/
def blankAt (cs : Cells) (i : Nat) : Bool :=
  match cs.char? i with
  | some c => isBlank c || Yaml.isBreak c
  | none => true

def startsWith (cs : Cells) (text : List Char) : Bool :=
  (cs.take text.length).map (·.char) == text

/-- Whether a line begins with three of a character and then a blank. -/
def isMarker (cs : Cells) (c : Char) : Bool :=
  (cs.head?.map (·.column)) == some 0 && cs.startsWith [c, c, c] && cs.blankAt 3

def isDocumentMarker (cs : Cells) : Bool := cs.isMarker '-' || cs.isMarker '.'

def text (cs : Cells) : String := String.ofList (cs.map (·.char))

end Cells
end PagePipes.Yaml
