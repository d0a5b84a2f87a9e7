import PagePipes.Resource
import PagePipes.Graph
import PagePipes.Pipe.Flatten

set_option autoImplicit false

/-!
# Indexes

An index holds resources under their keys. Maps by kind give the specs, and a map by name gives the
keys that a bare name may stand for.
-/
namespace PagePipes

structure Index where
  resources : Key.Map Resource := ∅
  names : Std.ExtTreeMap String KeySet := ∅
  pipes : Key.Map Pipe := ∅
  views : Key.Map View := ∅
  rules : Key.Map Rule := ∅
  deriving DecidableEq

namespace Index

def empty : Index := {}

def putSpec (ix : Index) (k : Key) : Spec → Index
  | .pipe p => { ix with pipes := ix.pipes.insert k p }
  | .view v => { ix with views := ix.views.insert k v }
  | .rule r => { ix with rules := ix.rules.insert k r }

def keysOf (ix : Index) (name : String) : KeySet := (ix.names[name]?).getD ∅

def put (ix : Index) (k : Key) (r : Resource) : Index :=
  let ix := ix.putSpec k r.spec
  { ix with
    names := ix.names.insert k.name ((ix.keysOf k.name).insert k)
    resources := ix.resources.insert k r }

/-- Adds a valid resource. The same resource may be added again; another one of the same key may
not. -/
def add (ix : Index) (r : Resource) : Result (Index × Key) := do
  r.validate
  let k := r.key
  match ix.resources[k]? with
  | some existing =>
    if existing = r then return (ix, k)
    else throw (.alreadyExists
      (r.kind.text ++ " " ++ k.text ++ " is already indexed with different metadata"))
  | none => return (ix.put k r, k)

/-- The names without a key; a name without keys goes away. -/
def dropName (names : Std.ExtTreeMap String KeySet) (k : Key) : Std.ExtTreeMap String KeySet :=
  match names[k.name]? with
  | none => names
  | some keys =>
    let keys := keys.erase k
    if keys.isEmpty then names.erase k.name else names.insert k.name keys

def remove (ix : Index) (k : Key) : Index × Option Resource :=
  match ix.resources[k]? with
  | none => (ix, none)
  | some r =>
    ({
      resources := ix.resources.erase k
      names := dropName ix.names k
      pipes := ix.pipes.erase k
      views := ix.views.erase k
      rules := ix.rules.erase k }, some r)

def unique? (ix : Index) (name : String) : Option Key :=
  match (ix.keysOf name).toList with
  | [k] => some k
  | _ => none

def pipeNotFound (k : Key) : Error := .notFound ("pipe not found: " ++ k.text)

/-- The pipe that a reference means: a qualified one has to be there, a bare name has to have
exactly one pipe. -/
def resolve (ix : Index) (k : Key) : Result Key :=
  if k.isQualified then if k ∈ ix.pipes then .ok k else .error (pipeNotFound k)
  else match (ix.keysOf k.name).toList.filter (· ∈ ix.pipes) with
    | [] => .error (pipeNotFound k)
    | [only] => .ok only
    | many => .error (.ambiguous k.name many.length)

/-- Who depends on whom; a reference without a meaning is no edge. -/
def dependencies (ix : Index) : Graph :=
  ix.resources.map fun _ r =>
    Std.ExtTreeSet.ofList (r.references.filterMap fun k => (ix.resolve k).toOption)

def traversal (ix : Index) : Traversal := ix.dependencies.order

/-- The pipes on a stack of references and all that they refer to. The pipes not met so far are in
`unmet`; a reference to a pipe met before is passed over. -/
def collect (unmet met : Key.Map Pipe) : List Key → Result (Key.Map Pipe)
  | [] => .ok met
  | k :: stack =>
    if k ∈ met then collect unmet met stack
    else match _h : unmet[k]? with
      | none => .error (.notFound ("referenced pipe not found: " ++ k.text))
      | some p => collect (unmet.erase k) (met.insert k p) (p.references.reverse ++ stack)
termination_by stack => Pipe.load unmet + stack.length
decreasing_by
  · simp
  · have hrefs := p.length_references
    rw [Pipe.load_erase _h, List.length_append, List.length_reverse, List.length_cons]
    omega

def referencedPipes (ix : Index) (k : Key) : Result (Key.Map Pipe) :=
  match ix.pipes[k]? with
  | none => .error (pipeNotFound k)
  | some p => collect ix.pipes ∅ p.references.reverse

end Index
end PagePipes
