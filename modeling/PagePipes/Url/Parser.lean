import PagePipes.Url.Basic
import PagePipes.Url.Domain

set_option autoImplicit false

/-!
# Reading URLs

Only a URL with a scheme is read. Blanks and controls around the text and tabs and line breaks
inside it are skipped. A special scheme has an authority however many slashes come before it and
takes a backslash for a slash; dot segments are resolved while the path is read.
-/
namespace PagePipes.Url

inductive Fault
  | emptyHost
  | domain
  | domainCharacter
  | port
  | ipv4
  | ipv6
  | relative
  deriving DecidableEq, Repr

def Fault.message : Fault → String
  | .emptyHost => "empty host"
  | .domain => "invalid international domain name"
  | .domainCharacter => "invalid domain character"
  | .port => "invalid port number"
  | .ipv4 => "invalid IPv4 address"
  | .ipv6 => "invalid IPv6 address"
  | .relative => "relative URL without a base"

/-- How a scheme is read. -/
inductive SchemeKind
  | file
  | special (defaultPort : Nat)
  | other
  deriving DecidableEq, Repr

def SchemeKind.of (scheme : List Char) : SchemeKind :=
  match String.ofList scheme with
  | "file" => .file
  | "http" | "ws" => .special 80
  | "https" | "wss" => .special 443
  | "ftp" => .special 21
  | _ => .other

def SchemeKind.isSpecial : SchemeKind → Bool
  | .other => false
  | _ => true

def SchemeKind.isSlash (k : SchemeKind) (c : Char) : Bool := c == '/' || (c == '\\' && k.isSpecial)

def isLetter (c : Char) : Bool := decide ('a' ≤ c ∧ c ≤ 'z') || decide ('A' ≤ c ∧ c ≤ 'Z')

def isSchemeChar (c : Char) : Bool :=
  isLetter c || c.isDigit || c == '+' || c == '-' || c == '.'

def scheme? (cs : List Char) : Option (List Char × List Char) :=
  match cs with
  | c :: _ =>
    if !isLetter c then none
    else match cs.dropWhile isSchemeChar with
      | ':' :: rest => some ((cs.takeWhile isSchemeChar).map Char.toLower, rest)
      | _ => none
  | [] => none

def endsAuthority (k : SchemeKind) (c : Char) : Bool := k.isSlash c || c == '?' || c == '#'

def ipv6Host (cs : List Char) : Except Fault Host :=
  if cs.getLast? = some ']' then
    match IPv6.parse? ((cs.drop 1).dropLast) with
    | some pieces => .ok (.ipv6 pieces)
    | none => .error .ipv6
  else .error .ipv6

/-- The host of a special scheme: an address or a domain. -/
def specialHost (cs : List Char) : Except Fault Host :=
  if cs.head? = some '[' then ipv6Host cs
  else match Percent.decode? cs with
    | none => .error .domain
    | some decoded =>
      match Domain.toAscii? decoded with
      | none => .error .domain
      | some [] => .error .emptyHost
      | some domain =>
        if IPv4.endsInNumber domain then
          match IPv4.parse? domain with
          | some n => .ok (.ipv4 n)
          | none => .error .ipv4
        else .ok (.name domain)

def isForbiddenInOpaqueHost (c : Char) : Bool :=
  c == '\x00' || " #/:<>?@[\\]^|".toList.contains c

/-- The host of any other scheme: an IPv6 address or a text. -/
def opaqueHost (cs : List Char) : Except Fault Host :=
  if cs.head? = some '[' then ipv6Host cs
  else if cs.any isForbiddenInOpaqueHost then .error .domainCharacter
  else .ok (.name (Percent.encode Percent.isControl cs))

def splitLastAt (cs : List Char) : Option (List Char × List Char) :=
  match cs.reverse.dropWhile (· ≠ '@') with
  | [] => none
  | _ :: before => some (before.reverse, cs.drop (before.length + 1))

/-- Cuts a host from the port behind it; a colon between brackets belongs to the host. -/
def splitPort (bracketed : Bool) : List Char → List Char × Option (List Char)
  | [] => ([], none)
  | c :: rest =>
    if c = ':' && !bracketed then ([], some rest)
    else
      let inside := if c = '[' then true else if c = ']' then false else bracketed
      let (host, port) := splitPort inside rest
      (c :: host, port)

/-- The number behind a colon; a missing number and the default of the scheme are none. -/
def readPort (k : SchemeKind) (cs : List Char) : Except Fault (Option Nat) :=
  if cs.all Char.isDigit then
    let n := cs.foldl (fun n c => n * 10 + (c.toNat - 48)) 0
    if 65535 < n then .error .port
    else if cs.isEmpty || k = .special n then .ok none
    else .ok (some n)
  else .error .port

/-- Reads everything between the slashes before an authority and the path; `last` says that nothing
comes after it. -/
def readAuthority (k : SchemeKind) (last : Bool) (cs : List Char) : Except Fault Authority := do
  let (info, rest) := match splitLastAt cs with
    | some (info, rest) => (some info, rest)
    | none => (none, cs)
  if info = some [] && rest.isEmpty && !last then throw .emptyHost
  let info := info.getD []
  let user := Percent.encode Percent.inUserInfo (info.takeWhile (· ≠ ':'))
  let password := Percent.encode Percent.inUserInfo ((info.dropWhile (· ≠ ':')).drop 1)
  let (hostChars, portChars) := splitPort false rest
  if hostChars.isEmpty && k.isSpecial then throw .emptyHost
  let host ← if k.isSpecial then specialHost hostChars else opaqueHost hostChars
  if host = .name [] then
    if portChars.isSome || !user.isEmpty || !password.isEmpty then throw .emptyHost
  let port ← match portChars with
    | some cs => readPort k cs
    | none => pure none
  return ⟨user, password, host, port⟩

/-- A drive: a letter and a colon or bar. -/
def isDrive : List Char → Bool
  | [a, b] => isLetter a && (b == ':' || b == '|')
  | _ => false

/-- Full stops in dot segments may be escaped. -/
def dots (segment : List Char) : Option Nat :=
  match String.ofList (segment.map Char.toLower) with
  | "." | "%2e" => some 1
  | ".." | ".%2e" | "%2e." | "%2e%2e" => some 2
  | _ => none

/-- The segments of a path in reverse; the last one is still open. A drive is never left. -/
def addSegment (k : SchemeKind) (done : List (List Char)) (segment : List Char) :
    List (List Char) :=
  match dots segment with
  | some 1 => done
  | some _ =>
    match done with
    | [] => []
    | last :: rest => if isDrive last then last :: rest else rest
  | none =>
    match k, done, segment with
    | .file, [], [a, _] => if isDrive segment then [[a, ':']] else [segment]
    | _, _, _ => segment :: done

def resolveSegments (k : SchemeKind) : List (List Char) → List (List Char) → List (List Char)
  | done, [] => done.reverse
  | done, [last] =>
    match dots last with
    | some _ => ([] :: addSegment k done last).reverse
    | none => (addSegment k done last).reverse
  | done, segment :: rest => resolveSegments k (addSegment k done segment) rest

/-- Empty segments at the front of a file path are dropped. -/
def dropEmptyFront : List (List Char) → List (List Char)
  | [] :: s :: rest => dropEmptyFront (s :: rest)
  | ss => ss

def readSegments (k : SchemeKind) (cs : List Char) : List (List Char) :=
  let cs := if k.isSpecial then cs.map (fun c => if c = '\\' then '/' else c) else cs
  let raw := (splitChars '/' cs).map (Percent.encode Percent.inPath)
  let ss := resolveSegments k [] raw
  if k = .file then dropEmptyFront ss else ss

def splitTail (cs : List Char) : List Char × Option (List Char) × Option (List Char) :=
  let beforeFragment := cs.takeWhile (· ≠ '#')
  let fragment := match cs.dropWhile (· ≠ '#') with
    | [] => none
    | _ :: f => some f
  let query := match beforeFragment.dropWhile (· ≠ '?') with
    | [] => none
    | _ :: q => some q
  (beforeFragment.takeWhile (· ≠ '?'), query, fragment)

def dropSlash (k : SchemeKind) : List Char → List Char
  | c :: rest => if k.isSlash c then rest else c :: rest
  | [] => []

/-- The authority and the path of a file URL; a drive takes the place of a host. -/
def readFile (cs : List Char) : Except Fault (Authority × Path) := do
  let hostless : Authority := { host := .name [] }
  match cs with
  | a :: b :: rest =>
    if SchemeKind.file.isSlash a && SchemeKind.file.isSlash b then
      let hostChars := rest.takeWhile (fun c => !SchemeKind.file.isSlash c)
      let path := rest.drop hostChars.length
      if isDrive hostChars then return (hostless, .segments (readSegments .file rest))
      let host ← if hostChars.isEmpty then pure (Host.name []) else specialHost hostChars
      let host := if host = .name "localhost".toList then .name [] else host
      let ss := readSegments .file (dropSlash .file path)
      let host := if (ss.head?.map isDrive).getD false then .name [] else host
      return ({ host }, .segments ss)
    else return (hostless, .segments (readSegments .file (dropSlash .file cs)))
  | cs => return (hostless, .segments (readSegments .file (dropSlash .file cs)))

def readHierarchy (k : SchemeKind) (hasTail : Bool) (cs : List Char) :
    Except Fault (Option Authority × Path) := do
  match k, cs with
  | .file, cs =>
    let (a, p) ← readFile cs
    return (some a, p)
  | .special _, cs =>
    let cs := cs.dropWhile k.isSlash
    let path := cs.dropWhile (fun c => !endsAuthority k c)
    let a ← readAuthority k (path.isEmpty && !hasTail)
      (cs.takeWhile (fun c => !endsAuthority k c))
    return (some a, .segments (readSegments k (dropSlash k path)))
  | .other, '/' :: '/' :: cs =>
    let path := cs.dropWhile (fun c => !endsAuthority k c)
    let a ← readAuthority k (path.isEmpty && !hasTail)
      (cs.takeWhile (fun c => !endsAuthority k c))
    if path.isEmpty then return (some a, .segments [])
    else return (some a, .segments (readSegments k (dropSlash k path)))
  | .other, '/' :: cs => return (none, .segments (readSegments k cs))
  | .other, cs => return (none, .opaqueText (Percent.encode Percent.isControl cs))

def isOuter (c : Char) : Bool := decide (c.toNat ≤ 32)

def isSkipped (c : Char) : Bool := c == '\t' || c == '\n' || c == '\r'

/-- The characters that count. -/
def trimmed (s : String) : List Char :=
  let cs := (s.toList.dropWhile isOuter).reverse.dropWhile isOuter
  cs.reverse.filter (fun c => !isSkipped c)

def parse (s : String) : Except Fault Url := do
  match scheme? (trimmed s) with
  | none => throw .relative
  | some (scheme, rest) =>
    let k := SchemeKind.of scheme
    let (body, query, fragment) := splitTail rest
    let (authority, path) ← readHierarchy k (query.isSome || fragment.isSome) body
    let queryEncoded := if k.isSpecial then Percent.inSpecialQuery else Percent.inQuery
    return {
      scheme
      authority
      path
      query := query.map (Percent.encode queryEncoded)
      fragment := fragment.map (Percent.encode Percent.inFragment) }

end PagePipes.Url
