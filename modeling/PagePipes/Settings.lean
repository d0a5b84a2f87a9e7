import PagePipes.Failure
import PagePipes.Toml.Parser

set_option autoImplicit false

/-!
# Settings

The settings of a folder are in a file in it; what the file leaves out has a default. A table of
settings may also be given as an array of its values in order.
-/
namespace PagePipes

structure ServerSettings where
  host : String := "127.0.0.1"
  port : Nat := 9402
  /-- Seconds that a request may take. -/
  timeout : Nat := 30
  deriving DecidableEq, Repr

def ServerSettings.address (s : ServerSettings) : String := s.host ++ ":" ++ toString s.port

inductive StorageKind
  | file
  | inMemory
  deriving DecidableEq, Repr

structure StorageSettings where
  kind : StorageKind := .file
  path : Option String := none
  deriving DecidableEq, Repr

structure Settings where
  folder : String := ""
  server : ServerSettings := {}
  storage : StorageSettings := {}
  deriving DecidableEq, Repr

namespace Settings

/-! ## From TOML -/

def text? : Toml → Option String
  | .text s => some s
  | _ => none

def natural? (bound : Nat) : Toml → Option Nat
  | .integer n => if 0 ≤ n ∧ n < bound then some n.toNat else none
  | _ => none

def isEmpty : Toml → Bool
  | .array [] | .tables [] | .table _ [] => true
  | _ => false

/-- A kind of storage by its name, which may also be the only key of a table. -/
def kind? (v : Toml) : Option StorageKind := do
  let name ← match v with
    | .text s => pure s
    | .table _ [(key, content)] => if isEmpty content then pure key else none
    | _ => none
  match name with
  | "sqlite" => some .file
  | "inmemory" => some .inMemory
  | _ => none

/-- The fields that a value sets: those of a table, or the items of an array under the names in
order. A moment sets none. -/
def fields? (names : List String) : Toml → Option Toml.Fields
  | .table _ fields => some fields
  | .array items => some (names.zip items)
  | .moment _ => some []
  | _ => none

/-- Sets fields one after the other; other names are passed over. -/
def ofFields? {α : Type} (names : List String) (set : α → String → Toml → Option α) (initial : α)
    (fields : Toml.Fields) : Option α :=
  (fields.filter fun f => names.contains f.1).foldlM (fun a f => set a f.1 f.2) initial

def server? (v : Toml) : Option ServerSettings := do
  let names := ["host", "port", "request_timeout_secs"]
  ofFields? names (fun (s : ServerSettings) name v =>
    match name with
    | "host" => return { s with host := ← text? v }
    | "port" => return { s with port := ← natural? (1 <<< 16) v }
    | _ => return { s with timeout := ← natural? (1 <<< 64) v }) {} (← fields? names v)

def storage? (v : Toml) : Option StorageSettings := do
  let names := ["kind", "db_path"]
  ofFields? names (fun (s : StorageSettings) name v =>
    match name with
    | "kind" => return { s with kind := ← kind? v }
    | _ => return { s with path := some (← text? v) }) {} (← fields? names v)

def ofToml? (fields : Toml.Fields) : Option Settings :=
  ofFields? ["nuggit_dir", "server", "storage"] (fun (s : Settings) name v =>
    match name with
    | "nuggit_dir" => return { s with folder := ← text? v }
    | "server" => return { s with server := ← server? v }
    | _ => return { s with storage := ← storage? v }) {} fields

/-! ## Of a folder -/

def fileName : String := "nuggit.toml"

def databaseName : String := "nuggit.sqlite"

/-- Fills in the folder and the path of a database file. -/
def complete (folder : String) (s : Settings) : Settings :=
  let s := if s.folder.isEmpty then { s with folder } else s
  if s.storage.kind = .file ∧ s.storage.path.isNone then
    { s with storage.path := some (Files.Path.join s.folder databaseName) }
  else s

def ofFolder (folder : String) : Settings := complete folder { folder }

def inMemory (s : Settings) : Settings := { s with storage.kind := .inMemory }

variable {m : Type → Type} [Monad m]

def load (files : Files m) (folder : String) : Attempt m Settings := do
  let path := Files.Path.join folder fileName
  let s ← if ← ExceptT.lift (files.present path) then do
      let text ← Attempt.ofFiles (.unreadableSettings path) (files.readText path)
      match (Toml.parse? text).bind ofToml? with
      | some s => pure (complete folder s)
      | none => throw (.malformedSettings path)
    else pure (ofFolder folder)
  if s.server.port = 0 then throw (.zeroSetting "server.port")
  if s.server.timeout = 0 then throw (.zeroSetting "server.request_timeout_secs")
  return s

end Settings
end PagePipes
