import PagePipes.Url.Folding
import PagePipes.Url.Punycode
import PagePipes.Text.Composition

set_option autoImplicit false

/-!
# Domains

A domain is stored in ASCII. Its characters are folded and composed, it is cut at its dots, and a
label with characters beyond ASCII is written in punycode behind `xn--`. A label that comes with
this mark has to be the punycode of a label that folding leaves alone.
-/
namespace PagePipes.Url.Domain

/-- The dots of other scripts end a label as well. -/
def isDot (c : Char) : Bool := c == '.' || c == '。' || c == '．' || c == '｡'

def foldChar (c : Char) : Option (List Char) :=
  if c.toNat < 128 then some [c.toLower]
  else if isDot c then some ['.']
  else Folding.fold? c

def isForbidden (c : Char) : Bool :=
  decide (c.toNat ≤ 32 ∨ c.toNat = 127) || "%#/:<>?@[\\]^|".toList.contains c

def isAscii (cs : List Char) : Bool := cs.all (·.toNat < 128)

def punycodeMark : List Char := ['x', 'n', '-', '-']

/-- A label of characters that folding and composition leave alone; a mark may not come first. -/
def isStable (label : List Char) : Bool :=
  (label.mapM foldChar).map (Text.Composition.compose ·.flatten) == some label
    && !((label.head?.map Text.Composition.isMark).getD false)

def label? (cs : List Char) : Option (List Char) :=
  if punycodeMark.isPrefixOf cs then
    match Punycode.decode? (cs.drop 4) with
    | some decoded =>
      if !isAscii decoded && isStable decoded && !decoded.contains '.'
          && Punycode.encode decoded == cs.drop 4 then some cs
      else none
    | none => none
  else if isAscii cs then some cs
  else if isStable cs then some (punycodeMark ++ Punycode.encode cs)
  else none

def splitLabels : List Char → List (List Char)
  | [] => [[]]
  | c :: rest =>
    match splitLabels rest with
    | [] => [[c]]
    | label :: labels => if c = '.' then [] :: label :: labels else (c :: label) :: labels

def toAscii? (cs : List Char) : Option (List Char) := do
  let folded ← cs.mapM foldChar
  let labels ← (splitLabels (Text.Composition.compose folded.flatten)).mapM label?
  let domain := List.intercalate ['.'] labels
  if domain.any isForbidden then none else some domain

end PagePipes.Url.Domain
