import PagePipes.Key.Parse
import PagePipes.Json.Printer
import PagePipes.Checksum.Sha1
import PagePipes.Regex.Parser
import PagePipes.Point

set_option autoImplicit false

/-!
# Actions

An action is one step of extraction: a map from argument names to JSON values, one of which is its
tag. The map is kept in key order, so the encoding of an action and its digest do not depend on the
order in which it was written.
-/
namespace PagePipes

inductive ActionKind
  | selector
  | document
  | attribute
  | field
  | pattern
  | pipe
  | exchange
  deriving DecidableEq, Repr

namespace ActionKind

def all : List ActionKind :=
  [.selector, .document, .attribute, .field, .pattern, .pipe, .exchange]

def text : ActionKind → String
  | .selector => "selector"
  | .document => "document"
  | .attribute => "attribute"
  | .field => "field"
  | .pattern => "pattern"
  | .pipe => "pipe"
  | .exchange => "exchange"

def parse (s : String) : Result ActionKind :=
  match all.find? (fun k => k.text == s) with
  | some k => .ok k
  | none => .error (.invalidArgument ("unknown action: " ++ Text.Quoted.text s))

/-- The argument that an action of this kind must carry as a string. -/
def requiredArgument? : ActionKind → Option String
  | .selector => some "selector"
  | .document => none
  | .attribute => some "attribute"
  | .field => some "field"
  | .pattern => some "pattern"
  | .pipe => some "name"
  | .exchange => some "name"

end ActionKind

structure Action where
  arguments : Std.ExtTreeMap String Json
  deriving DecidableEq

namespace Action

def tag : String := "action"

def ofFields (fields : List (String × Json)) : Action :=
  ⟨fields.foldl (fun m f => m.insert f.1 f.2) ∅⟩

def get? (a : Action) (name : String) : Option Json := a.arguments[name]?

def string? (a : Action) (name : String) : Option String :=
  match a.get? name with
  | some (.str s) => some s
  | _ => none

def set (a : Action) (name : String) (value : Json) : Action := ⟨a.arguments.insert name value⟩

def setString (a : Action) (name value : String) : Action := a.set name (.str value)

def toJson (a : Action) : Json := .obj a.arguments.toList

def digest (a : Action) : String := Checksum.Sha1.digestText a.toJson.compact

def ofKind (k : ActionKind) : Action := ofFields [(tag, .str k.text)]

def ofArgument (k : ActionKind) (value : String) : Action :=
  match k.requiredArgument? with
  | some name => (ofKind k).setString name value
  | none => ofKind k

/-- Sets the name and, when the key carries one, the digest. -/
def setKey (a : Action) (k : Key) : Action :=
  let a := a.setString "name" k.name
  match k.digest with
  | some d => a.setString "digest" d
  | none => a

def pipe (k : Key) : Action := (ofKind .pipe).setKey k

/-- The last action of a planned pipe, which reports its value. -/
def exchange (k : Key) (s : Scalar) : Action :=
  ((ofKind .exchange).setKey k).setString "scalar" s.text

def is (a : Action) (k : ActionKind) : Bool := a.string? tag == some k.text

def kind (a : Action) : Result ActionKind :=
  match a.get? tag with
  | some (.str s) => ActionKind.parse s
  | some other => .error (.invalidArgument ("action tag must be a string, got " ++ other.compact))
  | none => .error (.invalidArgument "action is missing the \"action\" key")

/-- The key that a pipe or exchange action names; an empty digest is none. -/
def reference (a : Action) : Result Key := do
  match a.string? "name" with
  | none => .error (.invalidArgument "action is missing \"name\"")
  | some name =>
    let name := Key.lower name
    Key.validateName name
    match a.string? "digest" with
    | some d =>
      if d = "" then return .bare name
      let d := Key.lower d
      Key.validateDigest d
      return .exact name d
    | none => return .bare name

def flags : List String := ["passthrough", "populate_indices", "populate_matches"]

def validateFlag (a : Action) (name : String) : Result Unit :=
  match a.get? name with
  | none | some (.bool _) => .ok ()
  | some _ =>
    .error (.invalidArgument
      ("pattern action: " ++ Text.Quoted.text name ++ " must be a bool"))

def validateArgument (a : Action) (k : ActionKind) (name : String) : Result Unit :=
  match a.get? name with
  | some (.str _) => .ok ()
  | some _ =>
    .error (.invalidArgument
      (k.text ++ " action: " ++ Text.Quoted.text name ++ " must be a string"))
  | none =>
    .error (.invalidArgument (k.text ++ " action is missing " ++ Text.Quoted.text name))

def validate (a : Action) : Result Unit := do
  let k ← a.kind
  match k.requiredArgument? with
  | some name => a.validateArgument k name
  | none => pure ()
  match k with
  | .pipe | .exchange => discard a.reference
  | .pattern =>
    match Regex.parse ((a.string? "pattern").getD "") with
    | .error fault => throw (.invalidArgument ("pattern action: " ++ fault.message))
    | .ok _ => flags.forM a.validateFlag
  | _ => pure ()

def decoder : Decoder Action := fun d =>
  match d with
  | .object fields closed => do
    let fields ← fields.mapM fun f =>
      match f.1, f.2.toJson? with
      | some name, some j => Except.ok (name, j)
      | _, _ => Except.error DecodeFault.broken
    if closed then .ok (ofFields fields) else .error .broken
  | .deep _ => .error .broken
  | d => .error (Decoder.mismatch d)

end Action
end PagePipes
