import PagePipes.Decimal.Binary64

set_option autoImplicit false

/-!
# TOML values

A table is made by a header, by dotted keys, inline, or as a folder of a later table; how it was
made decides what may still be added to it. `insert` and `open` follow these rules and refuse
everything else.
-/
namespace PagePipes

/-- How a table was made. -/
inductive TableForm
  | inline
  | header
  /-- Named only on the way to the table of a header. -/
  | implied
  | dotted
  deriving DecidableEq, Repr

inductive Toml
  | text (value : String)
  | integer (value : Int)
  | float (value : Binary64)
  | bool (value : Bool)
  /-- A date, a time of day, or both, as it is written. -/
  | moment (value : String)
  | array (items : List Toml)
  | table (form : TableForm) (fields : List (String × Toml))
  /-- Tables of one name, one for every header. -/
  | tables (items : List (List (String × Toml)))
  deriving Repr, Inhabited

namespace Toml

abbrev Fields := List (String × Toml)

def set (name : String) (v : Toml) (fields : Fields) : Fields :=
  if (fields.lookup name).isSome then
    fields.map fun f => if f.1 = name then (name, v) else f
  else fields ++ [(name, v)]

/-- Applies a step to the last of several tables. -/
def onLast (step : Fields → Option Fields) (items : List Fields) : Option Toml := do
  let fields ← items.getLast?
  return .tables (items.dropLast ++ [← step fields])

/-- Inserts a value under a dotted key. Tables on the way must have been made by dotted keys, or
be open to more. -/
def insert (name : String) (v : Toml) : List String → Fields → Option Fields
  | [], fields =>
    if (fields.lookup name).isSome then none else some (set name v fields)
  | key :: path, fields => do
    let inner ← match fields.lookup key with
      | none => Toml.table .dotted <$> insert name v path []
      | some (.table .dotted fs) => Toml.table .dotted <$> insert name v path fs
      | some (.table .implied fs) =>
        if path.isEmpty then none else Toml.table .implied <$> insert name v path fs
      | some (.tables items) =>
        if path.isEmpty then none else onLast (insert name v path) items
      | some _ => none
    return set key inner fields

/-- Applies a step to the value of a header's key, making the tables on the way. -/
def modify (name : String) (step : Option Toml → Option Toml) :
    List String → Fields → Option Fields
  | [], fields => return set name (← step (fields.lookup name)) fields
  | key :: path, fields => do
    let inner ← match fields.lookup key with
      | none => Toml.table .implied <$> modify name step path []
      | some (.table .inline _) => none
      | some (.table form fs) => Toml.table form <$> modify name step path fs
      | some (.tables items) => onLast (modify name step path) items
      | some _ => none
    return set key inner fields

/-- A header opens a new table, or one that was named only on the way. -/
def openTable : Option Toml → Option Toml
  | none => some (.table .header [])
  | some (.table .implied fs) => some (.table .header fs)
  | some _ => none

/-- A doubled header adds one more table of its name. -/
def openTables : Option Toml → Option Toml
  | none => some (.tables [[]])
  | some (.tables items) => some (.tables (items ++ [[]]))
  | some _ => none

/-- Applies a step to the table that a header has opened. -/
def inTable (step : Fields → Option Fields) : Option Toml → Option Toml
  | some (.table form fs) => Toml.table form <$> step fs
  | some (.tables items) => onLast step items
  | _ => none

structure KeyPath where
  before : List String
  last : String
  deriving Repr

inductive Statement
  | pair (key : KeyPath) (value : Toml)
  | header (key : KeyPath)
  | arrayHeader (key : KeyPath)
  deriving Repr

structure Draft where
  root : Fields := []
  open? : Option KeyPath := none

def Draft.add (d : Draft) : Statement → Option Draft
  | .header k => do
    return { root := ← modify k.last openTable k.before d.root, open? := some k }
  | .arrayHeader k => do
    return { root := ← modify k.last openTables k.before d.root, open? := some k }
  | .pair k v => do
    let step := insert k.last v k.before
    match d.open? with
    | none => return { d with root := ← step d.root }
    | some t => return { d with root := ← modify t.last (inTable step) t.before d.root }

def ofStatements? (statements : List Statement) : Option Fields :=
  (statements.foldlM Draft.add {}).map (·.root)

def ofPairs? (pairs : List (KeyPath × Toml)) : Option Fields :=
  pairs.foldlM (fun fields (k, v) => insert k.last v k.before fields) []

end Toml
end PagePipes
