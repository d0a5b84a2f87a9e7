import PagePipes.Url.Address
import PagePipes.Url.Percent

set_option autoImplicit false

/-!
# URLs

A URL is a scheme, perhaps an authority, a path, and perhaps a query and a fragment. All parts are
kept in the encoded form in which they are written, so `text` only joins them.
-/
namespace PagePipes

namespace Url

inductive Host
  /-- A domain, or the opaque host of a scheme of its own; it may be empty. -/
  | name (chars : List Char)
  | ipv4 (address : Nat)
  | ipv6 (pieces : List Nat)
  deriving DecidableEq, Repr

def Host.chars : Host → List Char
  | .name cs => cs
  | .ipv4 n => IPv4.text n
  | .ipv6 pieces => '[' :: (IPv6.text pieces ++ [']'])

structure Authority where
  user : List Char := []
  password : List Char := []
  host : Host
  port : Option Nat := none
  deriving DecidableEq, Repr

inductive Path
  /-- A text that is not divided further. -/
  | opaqueText (chars : List Char)
  /-- Segments, each written behind a slash. -/
  | segments (segments : List (List Char))
  deriving DecidableEq, Repr

end Url

structure Url where
  scheme : List Char
  authority : Option Url.Authority
  path : Url.Path
  query : Option (List Char) := none
  fragment : Option (List Char) := none
  deriving DecidableEq, Repr

namespace Url

def Authority.chars (a : Authority) : List Char :=
  a.user ++ (if a.password.isEmpty then [] else ':' :: a.password)
    ++ (if a.user.isEmpty && a.password.isEmpty then [] else ['@'])
    ++ a.host.chars
    ++ (match a.port with
      | some n => ':' :: (toString n).toList
      | none => [])

def Path.chars : Path → List Char
  | .opaqueText cs => cs
  | .segments ss => ss.flatMap ('/' :: ·)

/-- Without an authority a path must not look like one. -/
def pathChars (u : Url) : List Char :=
  match u.authority, u.path.chars with
  | none, '/' :: '/' :: rest => '/' :: '.' :: '/' :: '/' :: rest
  | _, cs => cs

def optional (mark : Char) : Option (List Char) → List Char
  | some cs => mark :: cs
  | none => []

def text (u : Url) : String :=
  String.ofList (u.scheme ++ ':' ::
    ((match u.authority with
      | some a => '/' :: '/' :: a.chars
      | none => [])
    ++ u.pathChars ++ optional '?' u.query ++ optional '#' u.fragment))

/-- The host as it is written; an empty one is none. -/
def hostText? (u : Url) : Option String :=
  match u.authority with
  | some a => if a.host = .name [] then none else some (String.ofList a.host.chars)
  | none => none

end Url
end PagePipes
