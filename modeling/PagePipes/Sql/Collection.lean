import PagePipes.Sql.Argument
import PagePipes.Sql.Name
import PagePipes.View

set_option autoImplicit false

/-!
# Collections

Every stored view owns a collection: a table with one column for each of its pipes, typed by the
point of the pipe. A report fills at most one row of it.
-/
namespace PagePipes

structure PipeResult where
  pipe : Key
  result : Json := .null
  deriving DecidableEq, Repr

namespace PipeResult

structure Draft where
  pipe : Option Key := none
  result : Option Json := none

def layout : Decoder.Layout := [("pipe", false), ("result", true)]

open Decoder in
def decoder (origin : Origin) : Decoder PipeResult := fun d => do
  let step (s : Draft) (name : String) (d : Document) : Except DecodeFault Draft :=
    match name with
    | "pipe" => return { s with pipe := ← once s.pipe name (Key.decoder d) }
    | _ => return { s with result := ← once s.result name (json d) }
  let s ← record origin layout step {} d
  return ⟨← need "pipe" s.pipe, s.result.getD .null⟩

end PipeResult

namespace Sql

structure CollectionColumn where
  name : String
  pipe : Key
  point : Point
  deriving DecidableEq, Repr

structure Collection where
  name : String
  digest : String
  columns : List CollectionColumn
  deriving DecidableEq, Repr

structure Statement where
  sql : String
  arguments : List Argument
  deriving DecidableEq, Repr

abbrev Points := Key.Map Point

def columnPipeNotFound (k : Key) : Error := .notFound ("view column pipe not found: " ++ k.text)

namespace Collection

def columnOf (points : Points) (c : Column) : Result CollectionColumn :=
  match points[c.pipe]? with
  | some point => .ok ⟨c.name, c.pipe, point⟩
  | none => .error (columnPipeNotFound c.pipe)

/-- The collection of a view, under the alias of the view or else its identifier. -/
def ofView (u : Uuid) (v : View) (digest : String) (points : Points) : Result Collection :=
  return ⟨v.aliasName.getD u.identifier, digest, ← v.columns.mapM (columnOf points)⟩

def tableName (c : Collection) : String := Sql.tableName c.name c.digest

def covers (c : Collection) (k : Key) : Bool := c.columns.any (·.pipe == k)

/-- The statement that makes the table; rows are unique over all columns. -/
def createTable (c : Collection) : String :=
  let definitions := c.columns.map fun col => columnDefinition col.name col.point
  let unique := if c.columns.isEmpty then []
    else ["UNIQUE (" ++ String.intercalate ", " (c.columns.map (quoteName ·.name)) ++ ")"]
  "CREATE TABLE IF NOT EXISTS " ++ c.tableName ++ " ("
    ++ String.intercalate ", " (definitions ++ unique) ++ ");"

/-- The value that a report holds for a pipe; of several the last counts. -/
def reported? (results : List PipeResult) (k : Key) : Option Json :=
  (results.reverse.find? (·.pipe == k)).map (·.result)

/-- The columns with a value and their arguments; none when a column that needs a value has none. -/
def cells (results : List PipeResult) :
    List CollectionColumn → Result (Option (List (CollectionColumn × Argument)))
  | [] => .ok (some [])
  | col :: rest =>
    match reported? results col.pipe with
    | some j => do
      let a ← Argument.ofJson col.point j
      return (← cells results rest).map ((col, a) :: ·)
    | none => if col.point.nullable then cells results rest else .ok none

/-- The cells of the row that a report adds, if it adds one. -/
def row? (c : Collection) (results : List PipeResult) :
    Result (Option (List (CollectionColumn × Argument))) :=
  return (← cells results c.columns).filter (!·.isEmpty)

def insertStatement (c : Collection) (cells : List (CollectionColumn × Argument)) : Statement :=
  { sql := "INSERT INTO " ++ c.tableName ++ " ("
      ++ String.intercalate ", " (cells.map fun cell => quoteName cell.1.name) ++ ") VALUES ("
      ++ String.intercalate ", " (cells.map fun _ => "?") ++ ") ON CONFLICT DO NOTHING"
    arguments := cells.map (·.2) }

def insertRow (c : Collection) (results : List PipeResult) : Result (Option Statement) :=
  return (← c.row? results).map c.insertStatement

end Collection

/-- The selected value of a column and the join that finds it. -/
def selectColumn (points : Points) (i : Nat) (c : Column) : Result (String × String) := do
  let some point := points[c.pipe]? | throw (columnPipeNotFound c.pipe)
  let some digest := c.pipe.digest
    | throw (.invalidArgument ("view column must be qualified: " ++ c.pipe.text))
  let r := "r" ++ toString i
  return ("CAST(" ++ r ++ ".Result AS " ++ columnType point ++ ") AS " ++ quoteName c.name,
    "LEFT JOIN TriggerResults " ++ r ++ " ON e.ID = " ++ r ++ ".EventID AND " ++ r
      ++ ".PipeID = (SELECT p.ID FROM Pipes p WHERE p.Name = " ++ quoteText c.pipe.name
      ++ " AND p.Digest = " ++ quoteText digest ++ ")")

def selectColumns (points : Points) : Nat → List Column → Result (List (String × String))
  | _, [] => .ok []
  | i, c :: rest => do
    let s ← selectColumn points i c
    return s :: (← selectColumns points (i + 1) rest)

/-- The statements that make the SQL view of a view, and a second one under its alias. -/
def createView (u : Uuid) (v : View) (points : Points) : Result (List String) := do
  let columns ← selectColumns points 0 v.columns
  let name := viewName u
  let selected := columns.map (·.1) ++ ["e.Timestamp", "e.URL"]
  let view := "CREATE VIEW IF NOT EXISTS " ++ name ++ " AS SELECT\n    "
    ++ String.intercalate ",\n    " selected ++ "\nFROM TriggerEvents e\n"
    ++ String.intercalate "\n" (columns.map (·.2)) ++ "\nORDER BY e.ID;"
  match v.aliasName with
  | none => return [view]
  | some a =>
    if !View.isIdentifier a then
      throw (.invalidArgument ("invalid view alias: " ++ Text.Quoted.text a))
    return [view, "CREATE VIEW " ++ quoteName a ++ " AS SELECT * FROM " ++ name ++ ";"]

end Sql
end PagePipes
