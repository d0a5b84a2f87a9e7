import PagePipes.Rule

set_option autoImplicit false

/-!
# Resources

A resource is a pipe, a view or a rule together with its name, a description and labels. Its key is
its name with the digest of its spec, so renaming a resource keeps the digest.
-/
namespace PagePipes

inductive Kind
  | pipe
  | view
  | rule
  deriving DecidableEq, Repr

namespace Kind

def text : Kind → String
  | .pipe => "pipe"
  | .view => "view"
  | .rule => "rule"

def parse (s : String) : Result Kind :=
  match s with
  | "pipe" => .ok .pipe
  | "view" => .ok .view
  | "rule" => .ok .rule
  | other => .error (.invalidArgument ("unknown resource kind: " ++ Text.Quoted.text other))

end Kind

structure Metadata where
  name : String
  description : Option String := none
  labels : List String := []
  deriving DecidableEq, Repr

def Metadata.toJson (m : Metadata) : Json :=
  .obj (("name", .str m.name) :: Column.textField "description" m.description
    ++ Pipe.listField "labels" (m.labels.map Json.str))

inductive Spec
  | pipe (spec : Pipe)
  | view (spec : View)
  | rule (spec : Rule)
  deriving DecidableEq

namespace Spec

def kind : Spec → Kind
  | .pipe _ => .pipe
  | .view _ => .view
  | .rule _ => .rule

def toJson : Spec → Json
  | .pipe p => p.toJson
  | .view v => v.toJson
  | .rule r => r.toJson

def digest (s : Spec) : String := Checksum.Sha1.digestText s.toJson.compact

def references : Spec → List Key
  | .pipe p => p.references
  | .view v => v.references
  | .rule r => r.references

def validate : Spec → Result Unit
  | .pipe p => p.validate
  | .view v => v.validate
  | .rule r => r.validate

def qualify (resolve : Key → Result Key) : Spec → Result Spec
  | .pipe p => .pipe <$> p.qualify resolve
  | .view v => .view <$> v.qualify resolve
  | .rule r => .rule <$> r.qualify resolve

end Spec

structure Resource where
  version : String
  metadata : Metadata
  spec : Spec
  deriving DecidableEq

namespace Resource

def currentVersion : String := "v1"

def ofSpec (name : String) (spec : Spec) : Resource := ⟨currentVersion, { name }, spec⟩

def name (r : Resource) : String := r.metadata.name

def kind (r : Resource) : Kind := r.spec.kind

def key (r : Resource) : Key := .exact r.name r.spec.digest

def references (r : Resource) : List Key := r.spec.references

def pipe? (r : Resource) : Option Pipe :=
  match r.spec with
  | .pipe p => some p
  | _ => none

def view? (r : Resource) : Option View :=
  match r.spec with
  | .view v => some v
  | _ => none

def rule? (r : Resource) : Option Rule :=
  match r.spec with
  | .rule x => some x
  | _ => none

def toJson (r : Resource) : Json :=
  .obj [("api_version", .str r.version), ("kind", .str r.kind.text),
    ("metadata", r.metadata.toJson), ("spec", r.spec.toJson)]

def validate (r : Resource) : Result Unit := do
  if r.version ≠ currentVersion then
    throw (.invalidArgument ("unsupported api_version: " ++ Text.Quoted.text r.version))
  Key.validateName r.name
  r.spec.validate

def qualify (resolve : Key → Result Key) (r : Resource) : Result Resource :=
  return { r with spec := ← r.spec.qualify resolve }

end Resource
end PagePipes
