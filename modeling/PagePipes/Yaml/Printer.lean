import PagePipes.Decimal.Shortest
import PagePipes.Yaml.Cell
import PagePipes.Yaml.Meaning

set_option autoImplicit false

/-!
# Writing YAML

Mappings and sequences are written as blocks, two columns deeper for every level; a sequence under
a key stands at the column of the key. A text is written plain where it can be and where it would
not be read as something else. A text of several lines is written as lines, and what has no other
form stands between double quotes.
-/
namespace PagePipes.Yaml

/-! ## Styles of a text -/

inductive Style
  | plain
  | singleQuoted
  | doubleQuoted
  | literal
  deriving DecidableEq, Repr

def isPrintable (c : Char) : Bool :=
  let n := c.toNat
  c == '\n' || decide (0x20 ≤ n ∧ n ≤ 0x7e)
    || (decide (0xa0 ≤ n) && n != 0xfffe && n != 0xffff && c != byteOrderMark)

/-- Characters that a plain text does not begin with. -/
def indicators : List Char :=
  [ '#', ',', '[', ']', '\x7b', '\x7d', '&', '*', '!', '|', '>', '\'', '"', '%', '@', '\x60']

def isGap : Option Char → Bool
  | none => true
  | some c => isBlank c || isBreak c

/-- Whether the beginning of a text means something else than a text. -/
def startsSpecial (cs : List Char) : Bool :=
  cs.take 3 == ['-', '-', '-'] || cs.take 3 == ['.', '.', '.']
    || match cs with
      | [] => false
      | c :: rest =>
        indicators.contains c || ((c == '?' || c == ':' || c == '-') && isGap rest.head?)

/-- Whether a key mark or a comment mark stands inside a text behind its first character. -/
def holdsMark : List Char → Bool
  | a :: b :: rest =>
    (b == ':' && isGap rest.head?) || (b == '#' && isGap (some a)) || holdsMark (b :: rest)
  | _ => false

def hasPair (first second : Char → Bool) : List Char → Bool
  | a :: b :: rest => (first a && second b) || hasPair first second (b :: rest)
  | _ => false

def isSpace (c : Char) : Bool := c == ' '

/-- Some texts have no form but the double quoted one. -/
def needsEscapes (cs : List Char) : Bool :=
  !cs.all isPrintable || hasPair isSpace isBreak cs

def allowsSingle (cs : List Char) : Bool := !needsEscapes cs && !hasPair isBreak isSpace cs

def allowsPlain (cs : List Char) : Bool :=
  allowsSingle cs && !startsSpecial cs && !holdsMark cs && !cs.any isBreak
    && cs.head? != some ' ' && cs.getLast? != some ' '

def allowsLiteral (cs : List Char) : Bool := !needsEscapes cs && cs.getLast? != some ' '

/-- Whether a plain scalar of this text would be read as that text. -/
def readsAsText (s : String) : Bool :=
  Meaning.ofPlain s == .text && !Meaning.isZeroPadded s

def Style.ofText (s : String) : Style :=
  let cs := s.toList
  if cs.contains '\n' then
    if allowsLiteral cs then .literal else .doubleQuoted
  else if readsAsText s && allowsPlain cs then .plain
  else if allowsSingle cs then .singleQuoted
  else .doubleQuoted

/-! ## Texts -/

def escapes : List (Char × Char) :=
  [('\x00', '0'), ('\x07', 'a'), ('\x08', 'b'), ('\t', 't'), ('\n', 'n'), ('\x0b', 'v'),
    ('\x0c', 'f'), ('\r', 'r'), ('\x1b', 'e'), ('"', '"'), ('\\', '\\'), (nextLine, 'N'),
    (lineSeparator, 'L'), (paragraphSeparator, 'P')]

def upperDigits (width n : Nat) : List Char := (Text.Hex.fixed width n).map Char.toUpper

def escapeChar (c : Char) : List Char :=
  if isPrintable c && !isBreak c && c != '"' && c != '\\' then [c]
  else match escapes.lookup c with
    | some e => ['\\', e]
    | none =>
      let n := c.toNat
      if n ≤ 0xff then '\\' :: 'x' :: upperDigits 2 n
      else if n ≤ 0xffff then '\\' :: 'u' :: upperDigits 4 n
      else '\\' :: 'U' :: upperDigits 8 n

def spaces (n : Nat) : List Char := List.replicate n ' '

/-- The characters of a text on lines; a character behind a break is indented. -/
def lines (indent : Nat) : (fresh : Bool) → List Char → List Char
  | _, [] => []
  | fresh, c :: rest =>
    if isBreak c then c :: lines indent true rest
    else (if fresh then spaces indent else []) ++ c :: lines indent false rest

def doubleQuotes (cs : List Char) : List Char :=
  cs.flatMap fun c => if c = '\'' then ['\'', '\''] else [c]

def endsWithBreak (cs : List Char) : Bool := cs.getLast?.any isBreak

/-- What stands between the mark of a literal text and its first line: the indentation, when the
text does not show it, and what becomes of the breaks at its end. -/
def literalHints (cs : List Char) : List Char :=
  let start := if cs.head?.any fun c => isSpace c || isBreak c then ['2'] else []
  let last := match cs.reverse with
    | a :: b :: _ => if !isBreak a then ['-'] else if isBreak b then ['+'] else []
    | [a] => if isBreak a then ['+'] else ['-']
    | [] => ['-']
  start ++ last

def textChars (indent : Nat) (s : String) : List Char :=
  let cs := s.toList
  match Style.ofText s with
  | .plain => cs
  | .singleQuoted =>
    '\'' :: lines indent false (doubleQuotes cs)
      ++ (if endsWithBreak cs then spaces indent else []) ++ ['\'']
  | .doubleQuoted => '"' :: cs.flatMap escapeChar ++ ['"']
  | .literal => '|' :: literalHints cs ++ ['\n'] ++ lines indent true cs

/-! ## Values -/

def numberLayout : Decimal.Shortest.Layout := ⟨false⟩

def numberText : Number → String
  | .int n => toString n
  | .float x =>
    if x.isFinite then Decimal.Shortest.render numberLayout x
    else if x == .infinity then ".inf"
    else if x == .neg .infinity then "-.inf"
    else ".nan"

/-- A key stands on one line and takes at most 128 bytes; another key has a mark before it. -/
def isSimpleKey (key : String) : Bool := !key.toList.any isBreak && key.utf8ByteSize ≤ 128

def endLine (cs : List Char) : List Char := if endsWithBreak cs then cs else cs ++ ['\n']

/-- Two pieces with a line end between them, the second indented. -/
def joinLines (column : Nat) (a b : List Char) : List Char := endLine a ++ spaces column ++ b

def entry (column : Nat) (key : String) (value : List Char) : List Char :=
  let keyChars := textChars (column + 2) key
  if isSimpleKey key then keyChars ++ ':' :: value
  else joinLines column ('?' :: ' ' :: keyChars) (':' :: value)

mutual

/-- A value behind the mark of an item or an entry at a column. A block begins on a line of its own
behind a simple key, else beside the mark. -/
def value (column : Nat) (behindKey : Bool) : Json → List Char
  | .null => " null".toList
  | .bool b => (if b then " true" else " false").toList
  | .num n => ' ' :: (numberText n).toList
  | .str s => ' ' :: textChars (column + 2) s
  | .arr [] => " []".toList
  | .obj [] => [' ', '\x7b', '\x7d']
  | .arr (j :: rest) =>
    if behindKey then '\n' :: spaces column ++ items column (j :: rest)
    else ' ' :: items (column + 2) (j :: rest)
  | .obj (f :: rest) =>
    (if behindKey then '\n' :: spaces (column + 2) else [' '])
      ++ entries (column + 2) (f :: rest)

def items (column : Nat) : List Json → List Char
  | [] => []
  | [j] => '-' :: value column false j
  | j :: rest => joinLines column ('-' :: value column false j) (items column rest)

def entries (column : Nat) : List (String × Json) → List Char
  | [] => []
  | [(k, j)] => entry column k (value column (isSimpleKey k) j)
  | (k, j) :: rest =>
    joinLines column (entry column k (value column (isSimpleKey k) j)) (entries column rest)

end

def documentChars : Json → List Char
  | .arr (j :: rest) => endLine (items 0 (j :: rest))
  | .obj (f :: rest) => endLine (entries 0 (f :: rest))
  | .str s => endLine (textChars 2 s)
  | j => endLine ((value 0 false j).drop 1)

def print (j : Json) : String := String.ofList (documentChars j)

end PagePipes.Yaml
