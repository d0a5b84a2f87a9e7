import PagePipes.Text.Hex

set_option autoImplicit false

/-!
# Universally unique identifiers

A UUID is a number of 128 bits. It is written as thirty-two hexadecimal digits in five groups, and
read with or without hyphens, in braces, or behind `urn:uuid:`.
-/
namespace PagePipes

structure Uuid where
  value : Nat
  deriving DecidableEq, Repr, Ord

namespace Uuid
open PagePipes.Text

def grouped (mark : Char) (u : Uuid) : String :=
  let ds := Hex.fixed 32 u.value
  String.ofList (List.intercalate [mark]
    [ds.take 8, (ds.drop 8).take 4, (ds.drop 12).take 4, (ds.drop 16).take 4, ds.drop 20])

def text (u : Uuid) : String := grouped '-' u

/-- The form that names in the store contain. -/
def identifier (u : Uuid) : String := grouped '_' u

def readSimple (cs : List Char) : Option Uuid :=
  if cs.length = 32 then (Hex.number? cs).map Uuid.mk else none

def readHyphenated (cs : List Char) : Option Uuid :=
  if cs.length = 36 ∧ [8, 13, 18, 23].all (fun i => cs[i]? == some '-') then
    readSimple (cs.take 8 ++ (cs.drop 9).take 4 ++ (cs.drop 14).take 4 ++ (cs.drop 19).take 4
      ++ cs.drop 24)
  else none

def parse? (s : String) : Option Uuid :=
  let cs := s.toList
  match cs with
  | '{' :: rest => if rest.getLast? = some '}' then readHyphenated rest.dropLast else none
  | 'u' :: 'r' :: 'n' :: ':' :: 'u' :: 'u' :: 'i' :: 'd' :: ':' :: rest => readHyphenated rest
  | cs => if cs.length = 32 then readSimple cs else readHyphenated cs

end Uuid
end PagePipes
