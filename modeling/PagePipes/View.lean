import PagePipes.Key.Decode
import PagePipes.Pipe

set_option autoImplicit false

/-!
# Views

A view is a table over what pipes report: one column for each of its pipes. The columns and the
view itself may carry an alias, which has to be usable as a name in the store.
-/
namespace PagePipes

structure Column where
  aliasName : Option String := none
  pipe : Key
  deriving DecidableEq, Repr

namespace Column

/-- The alias, or the name of the pipe with every hyphen written as an underscore. -/
def name (c : Column) : String :=
  match c.aliasName with
  | some a => a
  | none => String.ofList (c.pipe.name.toList.map fun ch => if ch = '-' then '_' else ch)

def textField (name : String) (value : Option String) : List (String × Json) :=
  value.toList.map fun s => (name, .str s)

def toJson (c : Column) : Json :=
  .obj (textField "alias" c.aliasName ++ [("pipe", .str c.pipe.text)])

structure Draft where
  aliasName : Option (Option String) := none
  pipe : Option Key := none

def layout : Decoder.Layout := [("alias", true), ("pipe", false)]

open Decoder in
def decoder (origin : Origin) : Decoder Column := fun d => do
  let step (s : Draft) (name : String) (d : Document) : Except DecodeFault Draft :=
    match name with
    | "alias" => return { s with aliasName := ← once s.aliasName name (option string d) }
    | _ => return { s with pipe := ← once s.pipe name (Key.decoder d) }
  let s ← record origin layout step {} d
  return ⟨s.aliasName.getD none, ← need "pipe" s.pipe⟩

end Column

structure View where
  aliasName : Option String := none
  columns : List Column := []
  deriving DecidableEq, Repr

namespace View

def toJson (v : View) : Json :=
  .obj (Column.textField "alias" v.aliasName
    ++ Pipe.listField "columns" (v.columns.map Column.toJson))

def digest (v : View) : String := Checksum.Sha1.digestText v.toJson.compact

def references (v : View) : List Key := v.columns.map (·.pipe)

/-- Lower-case letters, digits and underscores, a letter first. -/
def isIdentifier (s : String) : Bool :=
  match s.toList with
  | [] => false
  | c :: rest =>
    Key.isNameStart c
      && rest.all fun d => Key.isNameStart d || decide ('0' ≤ d ∧ d ≤ '9') || d == '_'

def validateIdentifier (s : String) : Result Unit :=
  if isIdentifier s then .ok ()
  else .error (.invalidArgument
    ("alias must match ^[a-z][a-z0-9_]*$: " ++ Text.Quoted.text s))

/-- The tables of the store, in lower case; the store tells no cases apart. -/
def storeTables : List String :=
  ["pipes", "views", "triggerrules", "piperules", "viewpipes", "resources", "resourcelabels",
    "triggerplans", "triggerplanpipes", "triggerevents", "triggerresults"]

/-- How names begin that the store makes for itself. -/
def reservedStarts : List String := ["sqlite_", "collection_", "view_", "idx_"]

/-- An alias of a view stands beside the store's own names, so it must be none of them. -/
def validateAlias (s : String) : Result Unit := do
  validateIdentifier s
  if s ∈ storeTables then
    throw (.invalidArgument ("view alias collides with a store table: " ++ s))
  match reservedStarts.find? (·.toList.isPrefixOf s.toList) with
  | some start =>
    throw (.invalidArgument
      ("view alias may not start with " ++ Text.Quoted.text start ++ ": " ++ s))
  | none => return

def validateColumns (pipes : List Key) (names : List String) : List Column → Result Unit
  | [] => .ok ()
  | c :: rest => do
    match c.aliasName with
    | some a => validateIdentifier a
    | none => pure ()
    if c.pipe ∈ pipes then
      throw (.invalidArgument ("duplicate pipe in view: " ++ c.pipe.text))
    if c.name ∈ names then
      throw (.invalidArgument ("duplicate column name in view: " ++ c.name))
    validateColumns (c.pipe :: pipes) (c.name :: names) rest

def validate (v : View) : Result Unit := do
  if v.columns.isEmpty then throw (.invalidArgument "view must have at least one column")
  match v.aliasName with
  | some a => validateAlias a
  | none => pure ()
  validateColumns [] [] v.columns

def qualify (resolve : Key → Result Key) (v : View) : Result View := do
  return { v with columns := ← v.columns.mapM fun c => return { c with pipe := ← resolve c.pipe } }

structure Draft where
  aliasName : Option (Option String) := none
  columns : Option (List Column) := none

def layout : Decoder.Layout := [("alias", true), ("columns", true)]

open Decoder in
def decoder (origin : Origin) : Decoder View := fun d => do
  let step (s : Draft) (name : String) (d : Document) : Except DecodeFault Draft :=
    match name with
    | "alias" => return { s with aliasName := ← once s.aliasName name (option string d) }
    | _ => return { s with columns := ← once s.columns name (list (Column.decoder origin) d) }
  let s ← record origin layout step {} d
  return ⟨s.aliasName.getD none, s.columns.getD []⟩

end View
end PagePipes
