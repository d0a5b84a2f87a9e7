import PagePipes.Resource.Envelope
import PagePipes.Yaml.Printer
import PagePipes.Yaml.Reading

set_option autoImplicit false

/-!
# Resources in YAML

An envelope in YAML says what one in JSON does. Its name, description and labels are the texts that
stand in the document, whatever they would mean as values; its spec is a value.
-/
namespace PagePipes

open Yaml (Reading)

namespace Metadata

open Yaml.Reading in
def read (d : Yaml.Document) (path : Yaml.Path) (n : Yaml.Node) : Reading Metadata := do
  let step (s : Draft) (name : String) (here : Yaml.Path) (n : Yaml.Node) : Reading Draft :=
    match name with
    | "name" => return { s with name := ← once path s.name name (string d here n) }
    | "description" =>
      return { s with
        description := ← once path s.description name (option d (string d here) n) }
    | _ => return { s with labels := ← once path s.labels name (list d here (string d) n) }
  let s ← record d path (layout.map (·.1)) step {} n
  return ⟨← need path "name" s.name, s.description.getD none, s.labels.getD []⟩

end Metadata

namespace Envelope

open Yaml.Reading in
def read (d : Yaml.Document) : Reading Envelope := do
  let step (s : Draft) (name : String) (here : Yaml.Path) (n : Yaml.Node) : Reading Draft :=
    match name with
    | "api_version" =>
      return { s with version := ← once [] s.version name (option d (string d here) n) }
    | "kind" => return { s with kind := ← once [] s.kind name (string d here n) }
    | "metadata" =>
      return { s with metadata := ← once [] s.metadata name (Metadata.read d here n) }
    | _ => return { s with spec := ← once [] s.spec name (json d (depthLimit - 1) n) }
  let s ← record d [] (layout.map (·.1)) step {} d.root
  let kind ← need [] "kind" s.kind
  let metadata ← need [] "metadata" s.metadata
  return ⟨s.version.getD none, kind, metadata, s.spec.getD .null⟩

end Envelope

namespace Resource

def ofYaml (d : Yaml.Document) : Result Resource :=
  match (Envelope.read d).run 0 with
  | .ok (e, _) => e.toResource
  | .error fault => .error (.invalidArgument fault.message)

/-- Reads a resource. When that fails and the text is no value at all, this is what is reported. -/
def ofYamlText (s : String) : Result Resource :=
  let malformed : Result Resource := .error (.invalidArgument Yaml.ReadFault.unreadable.message)
  match Yaml.Document.ofText? s with
  | none => malformed
  | some d =>
    let d := d.getD ⟨Yaml.Node.missing, []⟩
    match ofYaml d with
    | .ok r => .ok r
    | .error e => if d.toJson?.isSome then .error e else malformed

def toYaml (r : Resource) : String := Yaml.print r.toJson

end Resource
end PagePipes
