import PagePipes.Json.Value
import PagePipes.Decimal.Shortest
import PagePipes.Text.Hex

set_option autoImplicit false

/-!
# Writing JSON

`compact` is the canonical text that digests are taken of: no blanks, short escapes where there are
any, and floats with the fewest digits that read back. `pretty` breaks lines and indents by two.
-/
namespace PagePipes.Json
open PagePipes.Text

/-- A positive exponent is written with a plus sign. -/
def numberLayout : Decimal.Shortest.Layout := ⟨true⟩

/-- A float that is not finite has no number text and is written as null. -/
def numberText : Number → String
  | .int n => toString n
  | .float x => if x.isFinite then Decimal.Shortest.render numberLayout x else "null"

/-- Only the quote, the backslash and the controls below the blank are escaped. -/
def escapeChar (c : Char) : List Char :=
  if c = '"' then ['\\', '"']
  else if c = '\\' then ['\\', '\\']
  else if c = '\n' then ['\\', 'n']
  else if c = '\r' then ['\\', 'r']
  else if c = '\t' then ['\\', 't']
  else if c = '\x08' then ['\\', 'b']
  else if c = '\x0c' then ['\\', 'f']
  else if c.toNat < 32 then ['\\', 'u'] ++ Hex.fixed 4 c.toNat
  else [c]

def stringChars (s : String) : List Char :=
  '"' :: (s.toList.flatMap escapeChar ++ ['"'])

mutual

def compactChars : Json → List Char
  | .null => "null".toList
  | .bool b => (if b then "true" else "false").toList
  | .num n => (numberText n).toList
  | .str s => stringChars s
  | .arr items => '[' :: (compactItems items ++ [']'])
  | .obj fields => '\x7b' :: (compactFields fields ++ ['\x7d'])

def compactItems : List Json → List Char
  | [] => []
  | [j] => compactChars j
  | j :: rest => compactChars j ++ (',' :: compactItems rest)

def compactFields : List (String × Json) → List Char
  | [] => []
  | [(k, j)] => stringChars k ++ (':' :: compactChars j)
  | (k, j) :: rest => stringChars k ++ (':' :: compactChars j) ++ (',' :: compactFields rest)

end

def compact (j : Json) : String := String.ofList (compactChars j)

def newLine (depth : Nat) : List Char := '\n' :: List.replicate (2 * depth) ' '

mutual

def prettyChars (depth : Nat) : Json → List Char
  | .arr [] => "[]".toList
  | .arr items => '[' :: (prettyItems (depth + 1) items ++ newLine depth ++ [']'])
  | .obj [] => ['\x7b', '\x7d']
  | .obj fields => '\x7b' :: (prettyFields (depth + 1) fields ++ newLine depth ++ ['\x7d'])
  | .null => "null".toList
  | .bool b => (if b then "true" else "false").toList
  | .num n => (numberText n).toList
  | .str s => stringChars s

def prettyItems (depth : Nat) : List Json → List Char
  | [] => []
  | [j] => newLine depth ++ prettyChars depth j
  | j :: rest => newLine depth ++ prettyChars depth j ++ (',' :: prettyItems depth rest)

def prettyFields (depth : Nat) : List (String × Json) → List Char
  | [] => []
  | [(k, j)] => newLine depth ++ stringChars k ++ (':' :: ' ' :: prettyChars depth j)
  | (k, j) :: rest =>
    newLine depth ++ stringChars k ++ (':' :: ' ' :: prettyChars depth j)
      ++ (',' :: prettyFields depth rest)

end

def pretty (j : Json) : String := String.ofList (prettyChars 0 j)

end PagePipes.Json
