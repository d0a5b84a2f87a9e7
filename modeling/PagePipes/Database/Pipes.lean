import PagePipes.Database.Basic

set_option autoImplicit false

/-!
# Stored pipes

Pipes are looked up by key, and by name when there is only one of the name.
-/
namespace PagePipes

def PipeRow.pipe (r : PipeRow) : Result Pipe := Decoder.ofText Pipe.decoder r.spec

structure PipeEntry where
  name : Key
  pipe : Pipe
  disabled : Bool
  deriving DecidableEq

namespace PipeEntry

def toJson (e : PipeEntry) : Json :=
  .obj [("name", e.name.toJson), ("pipe", e.pipe.toJson), ("disabled", .bool e.disabled)]

def ofRow (r : PipeRow) : Result PipeEntry := return ⟨r.key, ← r.pipe, r.disabled⟩

end PipeEntry

namespace Database

def pipeRow? (db : Database) (k : Key) : Option PipeRow := db.pipes.find? (·.key == k)

def hasPipe (db : Database) (k : Key) : Bool := (db.pipeRow? k).isSome

def needPipe (db : Database) (k : Key) : Result Unit :=
  if db.hasPipe k then .ok () else .error (Index.pipeNotFound k)

def pipe (db : Database) (k : Key) : Result Pipe :=
  match db.pipeRow? k with
  | some r => r.pipe
  | none => .error (Index.pipeNotFound k)

/-- Adds a pipe under a key; a pipe that has the key already stays. -/
def insertPipe (db : Database) (k : Key) (p : Pipe) : Database :=
  if db.hasPipe k then db else { db with pipes := db.pipes ++ [⟨k, p.toJson.compact, false⟩] }

def resolve (db : Database) (k : Key) : Result Key :=
  if k.isQualified then
    if db.hasPipe k then .ok k else .error (Index.pipeNotFound k)
  else match db.pipes.filter (·.key.name == k.name) with
    | [] => .error (Index.pipeNotFound k)
    | [only] => .ok only.key
    | many => .error (.ambiguous k.name many.length)

def pipeEntry (db : Database) (k : Key) : Result PipeEntry := do
  let k ← db.resolve k
  match db.pipeRow? k with
  | some r => PipeEntry.ofRow r
  | none => throw (Index.pipeNotFound k)

/-- Whether a row of one key comes before a row of another: by name and then by digest. -/
def listedBefore (a b : Key) : Bool :=
  (compareLex (compareOn Key.name) (compareOn Key.digest) a b).isLE

def listedPipes (db : Database) : List PipeRow :=
  db.pipes.mergeSort fun a b => listedBefore a.key b.key

def listPipes (db : Database) : Result (List PipeEntry) := db.listedPipes.mapM PipeEntry.ofRow

/-- Switches a pipe off or on for matching. Answers the key that the reference means. -/
def setDisabled (db : Database) (k : Key) (disabled : Bool) : Result (Database × Key) := do
  let k ← db.resolve k
  let pipes := db.pipes.map fun r => if r.key = k then { r with disabled } else r
  return ({ db with pipes }, k)

/-- The stored pipes on a stack of references and all that they refer to. -/
def collect (unmet : List PipeRow) (met : Key.Map Pipe) : List Key → Result (Key.Map Pipe)
  | [] => .ok met
  | k :: stack =>
    if k ∈ met then collect unmet met stack
    else match _h : unmet.find? (·.key == k) with
      | none => .error (Index.pipeNotFound k)
      | some r => do
        let p ← r.pipe
        collect (unmet.erase r) (met.insert k p) (p.references.reverse ++ stack)
termination_by stack => (unmet.length, stack.length)
decreasing_by
  · exact Prod.Lex.right _ (by simp)
  · have hr := List.mem_of_find?_eq_some _h
    have hl := List.length_erase_of_mem hr
    have hp := List.length_pos_of_mem hr
    exact Prod.Lex.left _ _ (by omega)

def referencedPipes (db : Database) (k : Key) : Result (Key.Map Pipe) := do
  let p ← db.pipe k
  collect db.pipes ∅ p.references.reverse

/-- Adds a stored pipe to an index; its spec has to decode to what its digest was made of. -/
def indexPipe (ix : Index) (r : PipeRow) : Result Index := do
  let p ← r.pipe
  let (ix, k) ← ix.add (.ofSpec r.key.name (.pipe p))
  if k ≠ r.key then
    throw (.internal ("stored pipe " ++ r.key.text ++ " does not match its spec digest"))
  return ix

def namesOf (references : List Key) : List String :=
  (Std.ExtTreeSet.ofList (references.map Key.name)).toList

/-- An index of every stored pipe that has the name of a reference. -/
def dependencyIndex (db : Database) (references : List Key) : Result Index :=
  (namesOf references).foldlM (fun ix name =>
    (db.pipes.filter (·.key.name == name)).foldlM indexPipe ix) Index.empty

end Database
end PagePipes
