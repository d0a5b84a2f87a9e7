import PagePipes.Text.Hex
import PagePipes.Text.Printable

set_option autoImplicit false

/-!
# Quoted text in messages

A message shows a text between double quotes and a single character between apostrophes. The quote
itself and the backslash get a backslash, four controls have short escapes, and every character
that would not show by itself is written by its code point.
-/
namespace PagePipes.Text.Quoted
open PagePipes.Text

def escape (quote c : Char) : List Char :=
  if c = '\x00' then ['\\', '0']
  else if c = '\t' then ['\\', 't']
  else if c = '\r' then ['\\', 'r']
  else if c = '\n' then ['\\', 'n']
  else if c = '\\' ∨ c = quote then ['\\', c]
  else if Printable.isShown c then [c]
  else ['\\', 'u', '\x7b'] ++ (Hex.shortest c.toNat).toList ++ ['\x7d']

def text (s : String) : String :=
  String.ofList ('"' :: (s.toList.flatMap (escape '"') ++ ['"']))

def char (c : Char) : String :=
  String.ofList ('\'' :: (escape '\'' c ++ ['\'']))

end PagePipes.Text.Quoted
