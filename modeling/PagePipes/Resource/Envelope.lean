import PagePipes.Resource

set_option autoImplicit false

/-!
# Envelopes

A resource is read in two steps: its envelope, whose spec is any value, and then the spec as the
envelope's kind asks. A missing spec is empty, the name is lowered, and a rule is normalized.
-/
namespace PagePipes

structure Envelope where
  version : Option String := none
  kind : String
  metadata : Metadata
  spec : Json := .null
  deriving DecidableEq

namespace Metadata

structure Draft where
  name : Option String := none
  description : Option (Option String) := none
  labels : Option (List String) := none

def layout : Decoder.Layout := [("name", false), ("description", true), ("labels", true)]

open Decoder in
def decoder (origin : Origin) : Decoder Metadata := fun d => do
  let step (s : Draft) (name : String) (d : Document) : Except DecodeFault Draft :=
    match name with
    | "name" => return { s with name := ← once s.name name (string d) }
    | "description" =>
      return { s with description := ← once s.description name (option string d) }
    | _ => return { s with labels := ← once s.labels name (list string d) }
  let s ← record origin layout step {} d
  return ⟨← need "name" s.name, s.description.getD none, s.labels.getD []⟩

end Metadata

namespace Envelope

structure Draft where
  version : Option (Option String) := none
  kind : Option String := none
  metadata : Option Metadata := none
  spec : Option Json := none

def layout : Decoder.Layout :=
  [("api_version", true), ("kind", false), ("metadata", false), ("spec", true)]

open Decoder in
def decoder (origin : Origin) : Decoder Envelope := fun d => do
  let step (s : Draft) (name : String) (d : Document) : Except DecodeFault Draft :=
    match name with
    | "api_version" => return { s with version := ← once s.version name (option string d) }
    | "kind" => return { s with kind := ← once s.kind name (string d) }
    | "metadata" => return { s with metadata := ← once s.metadata name (Metadata.decoder origin d) }
    | _ => return { s with spec := ← once s.spec name (json d) }
  let s ← record origin layout step {} d
  let kind ← need "kind" s.kind
  let metadata ← need "metadata" s.metadata
  return ⟨s.version.getD none, kind, metadata, s.spec.getD .null⟩

def readSpec (kind : Kind) (spec : Json) : Result Spec :=
  match kind with
  | .pipe => .pipe <$> Decoder.ofValue Pipe.decoder spec
  | .view => .view <$> Decoder.ofValue View.decoder spec
  | .rule => (fun r => .rule r.normalized) <$> Decoder.ofValue Rule.decoder spec

def toResource (e : Envelope) : Result Resource := do
  let kind ← Kind.parse e.kind
  let spec ← readSpec kind (if e.spec = .null then .obj [] else e.spec)
  return ⟨e.version.getD Resource.currentVersion,
    { e.metadata with name := Key.lower e.metadata.name }, spec⟩

end Envelope

namespace Resource

def ofJsonText (s : String) : Result Resource := do
  (← Decoder.ofText Envelope.decoder s).toResource

end Resource
end PagePipes
