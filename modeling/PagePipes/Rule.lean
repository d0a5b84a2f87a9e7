import PagePipes.Key.Decode
import PagePipes.Pipe
import PagePipes.Url.Parser
import PagePipes.View

set_option autoImplicit false

/-!
# Rules

A rule attaches pipes to pages. It applies to every URL, or to those whose host is its hostname and
whose text matches its pattern; a predicate that is not set does not restrict, but a rule needs at
least one of them.
-/
namespace PagePipes

/-- What a rule asks of a URL. -/
structure Predicate where
  hostname : Option String := none
  pattern : Option String := none
  always : Bool := false
  deriving DecidableEq, Repr

structure Rule where
  predicate : Predicate := {}
  labels : List String := []
  pipes : List Key := []
  deriving DecidableEq, Repr

namespace Predicate

/-- Whether two texts agree but for the case of ASCII letters. -/
def sameHost (a b : String) : Bool := Key.lower a == Key.lower b

/-- An empty text restricts nothing. -/
def nonempty (s : Option String) : Option String := s.filter (· ≠ "")

def accepts (always : Bool) (hostname : Option String) (pattern : Option Regex) (u : Url) : Bool :=
  if always then true
  else
    let hostname := nonempty hostname
    if hostname.isNone && pattern.isNone then false
    else
      (match hostname with
        | some h => (u.hostText?.map (sameHost · h)).getD false
        | none => true)
      && (match pattern with
        | some r => r.isMatch u.text
        | none => true)

/-- A pattern that cannot be read matches nothing. -/
def applies (p : Predicate) (u : Url) : Bool :=
  match p.pattern with
  | none => accepts p.always p.hostname none u
  | some s =>
    match Regex.parse s with
    | .ok r => accepts p.always p.hostname (some r) u
    | .error _ => false

/-- Empty texts are dropped and the hostname is lowered. -/
def normalized (p : Predicate) : Predicate :=
  { p with
    hostname := (nonempty p.hostname).map Key.lower
    pattern := nonempty p.pattern }

def validate (p : Predicate) : Result Unit := do
  if !p.always && p.hostname.isNone && p.pattern.isNone then
    throw (.invalidArgument "rule needs a hostname, a url_pattern, or always_trigger")
  match p.pattern with
  | none => return
  | some s =>
    match Regex.parse s with
    | .ok _ => return
    | .error fault => throw (.invalidArgument ("url_pattern: " ++ fault.message))

end Predicate

namespace Rule

def ofHostname (h : String) : Rule := { predicate := { hostname := some (Key.lower h) } }

def ofPattern (s : String) : Rule := { predicate := { pattern := some s } }

def always : Rule := { predicate := { always := true } }

def toJson (r : Rule) : Json :=
  .obj (Column.textField "hostname" r.predicate.hostname
    ++ Column.textField "url_pattern" r.predicate.pattern
    ++ Point.flag "always_trigger" r.predicate.always
    ++ Pipe.listField "labels" (r.labels.map Json.str)
    ++ Pipe.listField "pipes" (r.pipes.map Key.toJson))

def digest (r : Rule) : String := Checksum.Sha1.digestText r.toJson.compact

def references (r : Rule) : List Key := r.pipes

def normalized (r : Rule) : Rule := { r with predicate := r.predicate.normalized }

def validate (r : Rule) : Result Unit := r.predicate.validate

def applies (r : Rule) (u : Url) : Bool := r.predicate.applies u

def qualify (resolve : Key → Result Key) (r : Rule) : Result Rule :=
  return { r with pipes := ← r.pipes.mapM resolve }

structure Draft where
  hostname : Option (Option String) := none
  pattern : Option (Option String) := none
  always : Option Bool := none
  labels : Option (List String) := none
  pipes : Option (List Key) := none

def layout : Decoder.Layout :=
  [("hostname", true), ("url_pattern", true), ("always_trigger", true), ("labels", true),
    ("pipes", true)]

open Decoder in
def decoder (origin : Origin) : Decoder Rule := fun d => do
  let step (s : Draft) (name : String) (d : Document) : Except DecodeFault Draft :=
    match name with
    | "hostname" => return { s with hostname := ← once s.hostname name (option string d) }
    | "url_pattern" => return { s with pattern := ← once s.pattern name (option string d) }
    | "always_trigger" => return { s with always := ← once s.always name (bool d) }
    | "labels" => return { s with labels := ← once s.labels name (list string d) }
    | _ => return { s with pipes := ← once s.pipes name (list Key.decoder d) }
  let s ← record origin layout step {} d
  return {
    predicate := ⟨s.hostname.getD none, s.pattern.getD none, s.always.getD false⟩
    labels := s.labels.getD []
    pipes := s.pipes.getD [] }

end Rule
end PagePipes
