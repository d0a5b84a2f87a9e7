import PagePipes.Database.Trigger
import PagePipes.Database.Views

set_option autoImplicit false

/-!
# Exchanges

A client reports the values of a plan. A report becomes one event with a value for each reported
pipe, and at most one row in every collection that it has values for. The plan is then finished.
-/
namespace PagePipes

structure Report where
  uuid : Uuid
  url : String := ""
  results : List PipeResult := []
  deriving DecidableEq, Repr

namespace Report

structure Draft where
  uuid : Option Uuid := none
  url : Option String := none
  results : Option (List PipeResult) := none

def layout : Decoder.Layout := [("uuid", false), ("url", true), ("results", true)]

def uuidDecoder : Decoder Uuid := fun d => do
  match Uuid.parse? (← Decoder.string d) with
  | some u => return u
  | none => throw (.custom "UUID parsing failed")

open Decoder in
def decoder (origin : Origin) : Decoder Report := fun d => do
  let step (s : Draft) (name : String) (d : Document) : Except DecodeFault Draft :=
    match name with
    | "uuid" => return { s with uuid := ← once s.uuid name (uuidDecoder d) }
    | "url" => return { s with url := ← once s.url name (string d) }
    | _ => return { s with results := ← once s.results name (list (PipeResult.decoder origin) d) }
  let s ← record origin layout step {} d
  return ⟨← need "uuid" s.uuid, s.url.getD "", s.results.getD []⟩

end Report

/-- What a report came to: the number of its event, of its results, and of the rows added. -/
structure Receipt where
  event : Nat
  results : Nat
  rows : Nat
  deriving DecidableEq, Repr

def Receipt.toJson (r : Receipt) : Json :=
  .obj [("event_id", .ofNat r.event), ("results", .ofNat r.results), ("rows", .ofNat r.rows)]

namespace Database

/-- A pipe that a report may name, under its own key or under that of its exchange. -/
structure Target where
  planned : PlannedPipe
  point : Point
  deriving DecidableEq, Repr

def Target.answers (t : Target) (k : Key) : Bool := t.planned.name == k || t.planned.exchange == k

def target (db : Database) (p : PlannedPipe) : Result Target := return ⟨p, (← db.pipe p.name).point⟩

/-- The values of a report: those of the event, of which the first for a pipe stays, and the
reported ones by pipe, of which the last stays. -/
structure Recorded where
  values : List (Key × Sql.Value) := []
  reported : Key.Map Json := ∅

namespace Recorded

def add (r : Recorded) (t : Target) (j : Json) : Result Recorded := do
  let a ← Sql.Argument.ofJson t.point j
  let k := t.planned.name
  return {
    values := if r.values.any (·.1 == k) then r.values else r.values ++ [(k, .ofArgument a)]
    reported := r.reported.insert k j }

def addResult (plan : Uuid) (targets : List Target) (r : Recorded) (p : PipeResult) :
    Result Recorded :=
  match targets.filter (·.answers p.pipe) with
  | [] => .error (.invalidArgument
      ("pipe " ++ p.pipe.text ++ " is not part of plan " ++ plan.text))
  | named => named.foldlM (fun r t => r.add t p.result) r

end Recorded

/-! ## Collection tables -/

/-- The row of a table that has the given cells; the other columns are null. -/
def tableRow (columns : List Sql.CollectionColumn)
    (cells : List (Sql.CollectionColumn × Sql.Argument)) : List Sql.Value :=
  columns.map fun c =>
    match cells.find? (·.1.name == c.name) with
    | some cell => (Sql.Value.ofArgument cell.2).inColumn c.point
    | none => .null

def lacking? (columns : List Sql.CollectionColumn) (row : List Sql.Value) :
    Option Sql.CollectionColumn :=
  ((columns.zip row).find? fun (c, v) => !c.point.nullable && v == .null).map (·.1)

/-- Whether a row may not stand beside another: they are equal and hold no null, which differs from
itself. -/
def conflicts (row other : List Sql.Value) : Bool := row == other && !row.contains .null

/-- Adds a row to a table unless it conflicts with one. Answers the number of rows added. -/
def insertRow (table : String) (columns : List Sql.CollectionColumn)
    (rows : List (List Sql.Value)) (row : List Sql.Value) :
    Result (List (List Sql.Value) × Nat) :=
  match lacking? columns row with
  | some c => .error (.invalidArgument
      ("NOT NULL constraint failed: " ++ table ++ "." ++ c.name))
  | none => .ok (if rows.any (conflicts row) then (rows, 0) else (rows ++ [row], 1))

def insertInto (table : String) (cells : List (Sql.CollectionColumn × Sql.Argument)) :
    List SchemaObject → Result (List SchemaObject × Nat)
  | [] => .error (.internal ("no such table: " ++ table))
  | .table name columns rows :: rest =>
    if name = table then do
      let (rows, n) ← insertRow table columns rows (tableRow columns cells)
      return (.table name columns rows :: rest, n)
    else do
      let (rest, n) ← insertInto table cells rest
      return (.table name columns rows :: rest, n)
  | o :: rest => do
    let (rest, n) ← insertInto table cells rest
    return (o :: rest, n)

/-- Adds the row of a report to a collection, if the report has one for it. -/
def fill (results : List PipeResult) (s : List SchemaObject × Nat) (c : Sql.Collection) :
    Result (List SchemaObject × Nat) := do
  if !results.any fun r => c.covers r.pipe then return s
  match ← c.row? results with
  | none => return s
  | some cells =>
    let (objects, n) ← insertInto c.tableName cells s.1
    return (objects, s.2 + n)

def exchange (db : Database) (timestamp : String) (report : Report) :
    Result (Database × Receipt) := do
  let some row := db.planRow? report.uuid | throw (planNotFound report.uuid)
  let targets ← row.pipes.mapM db.target
  let recorded ← report.results.foldlM (Recorded.addResult report.uuid targets) {}
  let results := recorded.reported.toList.map fun (k, j) => PipeResult.mk k j
  let (objects, n) ← (← db.collections).foldlM (fill results) (db.objects, 0)
  let event : Event := ⟨timestamp, report.url, report.uuid, recorded.values⟩
  let plans := db.plans.map fun p =>
    if p.uuid = report.uuid then { p with finished := true } else p
  return ({ db with events := db.events ++ [event], objects, plans },
    ⟨db.events.length + 1, report.results.length, n⟩)

end Database
end PagePipes
