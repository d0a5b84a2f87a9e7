import PagePipes.Error
import PagePipes.Text.Hex

set_option autoImplicit false

/-!
# Reading keys

A name is a lower-case letter followed by lower-case letters, digits and hyphens. A digest is forty
lower-case hexadecimal digits. A written key is split at its first at sign and both parts are
lowered over ASCII before they are checked, so every spelling of a key reads as the same one.
-/
namespace PagePipes

inductive NameFault
  | empty
  | badStart
  | badChar (c : Char)
  deriving DecidableEq, Repr

inductive DigestFault
  | badLength (bytes : Nat)
  | badDigit
  deriving DecidableEq, Repr

namespace Key
open PagePipes.Text

def isNameStart (c : Char) : Bool := decide ('a' ≤ c ∧ c ≤ 'z')

def isNameChar (c : Char) : Bool :=
  decide ('a' ≤ c ∧ c ≤ 'z') || decide ('0' ≤ c ∧ c ≤ '9') || c == '-'

def nameFault? (name : String) : Option NameFault :=
  match name.toList with
  | [] => some .empty
  | c :: rest =>
    if isNameStart c then (rest.find? (fun d => !isNameChar d)).map .badChar
    else some .badStart

def digestLength : Nat := 40

/-- The length is counted in bytes and is checked before the digits. -/
def digestFault? (digest : String) : Option DigestFault :=
  if digest.utf8ByteSize ≠ digestLength then some (.badLength digest.utf8ByteSize)
  else if digest.toList.all Hex.isLower then none
  else some .badDigit

end Key

def NameFault.message (name : String) : NameFault → String
  | .empty => "name must not be empty"
  | .badStart => "name must start with a lowercase letter: " ++ Text.Quoted.text name
  | .badChar c =>
    "name contains invalid character " ++ Text.Quoted.char c ++ ": " ++ Text.Quoted.text name

def DigestFault.message (digest : String) : DigestFault → String
  | .badLength n =>
    "digest must be " ++ toString Key.digestLength ++ " hex characters, got " ++ toString n
  | .badDigit => "digest must be lowercase hex: " ++ Text.Quoted.text digest

namespace Key

def validateName (name : String) : Result Unit :=
  match nameFault? name with
  | none => .ok ()
  | some fault => .error (.invalidArgument (fault.message name))

def validateDigest (digest : String) : Result Unit :=
  match digestFault? digest with
  | none => .ok ()
  | some fault => .error (.invalidArgument (fault.message digest))

/-- ASCII letters to lower case; every other character stays. -/
def lower (s : String) : String := String.ofList (s.toList.map Char.toLower)

def splitAt (s : String) : String × Option String :=
  let cs := s.toList
  let name := cs.takeWhile (· ≠ '@')
  match cs.dropWhile (· ≠ '@') with
  | [] => (String.ofList name, none)
  | _ :: rest => (String.ofList name, some (String.ofList rest))

/-- Reads `name` or `name@digest` in any case. -/
def parse (s : String) : Result Key := do
  let (name, digest) := splitAt s
  let name := lower name
  validateName name
  match digest with
  | none => return bare name
  | some d =>
    let d := lower d
    validateDigest d
    return exact name d

end Key
end PagePipes
