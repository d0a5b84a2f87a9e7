import PagePipes.Database.Pipes

set_option autoImplicit false

/-!
# Stored views

A stored view gets an identifier, a link to each of its pipes, a collection table, an SQL view of
its own and, under its alias, a second SQL view. When it is removed its table stays with its rows; a
view that is stored again under the same alias goes on filling it.
-/
namespace PagePipes

structure StoredView where
  uuid : Uuid
  digest : String
  view : View
  deriving DecidableEq, Repr

def StoredView.toJson (v : StoredView) : Json :=
  .obj [("uuid", .str v.uuid.text), ("digest", .str v.digest), ("view", v.view.toJson)]

namespace ViewRow

def view (r : ViewRow) : Result View := Decoder.ofText View.decoder r.spec

def stored (r : ViewRow) : Result StoredView := return ⟨r.uuid, r.digest, ← r.view⟩

end ViewRow

namespace Database

def qualifyView (db : Database) (v : View) : Result View := do
  let ix ← db.dependencyIndex v.references
  v.qualify ix.resolve

def viewRow? (db : Database) (u : Uuid) : Option ViewRow := db.views.find? (·.uuid == u)

def storedView (db : Database) (u : Uuid) : Result StoredView :=
  match db.viewRow? u with
  | some r => r.stored
  | none => .error (.notFound ("view not found: " ++ u.text))

def hasObject (db : Database) (name : String) : Bool := db.objects.any (·.name == name)

def points (db : Database) (v : View) : Result Sql.Points :=
  v.columns.foldlM (fun (m : Sql.Points) c => do
    let p ← db.pipe c.pipe
    return m.insert c.pipe p.point) ∅

def linkView (db : Database) (u : Uuid) (k : Key) : Result Database := do
  db.needPipe k
  if (u, k) ∈ db.viewPipes then
    throw (.alreadyExists "UNIQUE constraint failed: ViewPipes.ViewID, ViewPipes.PipeID")
  return { db with viewPipes := db.viewPipes ++ [(u, k)] }

/-- The most columns that a table may have. -/
def columnLimit : Nat := 2000

def makeTable (db : Database) (c : Sql.Collection) : Result Database :=
  if db.hasObject c.tableName then .ok db
  else if columnLimit < c.columns.length then
    .error (.internal ("too many columns on " ++ c.tableName))
  else .ok { db with objects := db.objects ++ [.table c.tableName c.columns []] }

def makeViews (db : Database) (u : Uuid) (v : View) (c : Sql.Collection) : Database :=
  { db with
    objects := db.objects ++ .view u c.columns ::
      (v.aliasName.toList.map fun a => .aliasView a u) }

def insertView (db : Database) (u : Uuid) (v : View) : Result (Database × StoredView) := do
  match v.aliasName with
  | some a =>
    if db.hasObject a then
      throw (.alreadyExists ("view alias is already in use: " ++ a))
  | none => pure ()
  if (db.viewRow? u).isSome then
    throw (.alreadyExists "UNIQUE constraint failed: Views.UUID")
  let row : ViewRow := ⟨u, v.digest, v.toJson.compact⟩
  let db ← v.references.foldlM (linkView · u) { db with views := db.views ++ [row] }
  let c ← Sql.Collection.ofView u v row.digest (← db.points v)
  let db ← db.makeTable c
  return (db.makeViews u v c, ⟨u, row.digest, v⟩)

def createView (db : Database) (u : Uuid) (v : View) : Result (Database × StoredView) := do
  v.validate
  db.insertView u (← db.qualifyView v)

/-- Whether an SQL view was made for a stored view and its alias. -/
def servesView (u : Uuid) (aliasName : Option String) : SchemaObject → Bool
  | .table _ _ _ => false
  | .view v _ => v == u
  | .aliasView name _ => aliasName == some name

def deleteView (db : Database) (u : Uuid) : Result Database := do
  let v := (← db.storedView u).view
  return { db with
    objects := db.objects.filter (!servesView u (v.aliasName.filter View.isIdentifier) ·)
    viewPipes := db.viewPipes.filter (·.1 ≠ u)
    views := db.views.filter (·.uuid ≠ u) }

def collections (db : Database) : Result (List Sql.Collection) :=
  db.views.mapM fun r => do
    let v ← r.view
    Sql.Collection.ofView r.uuid v r.digest (← db.points v)

/-! ## Rows -/

/-- The number of tables that one query may join. -/
def joinLimit : Nat := 64

/-- The name of a column behind columns of the given names; letters are compared without case. -/
def freshName (names : List String) (name : String) : String :=
  if names.any (fun n => Key.lower n == Key.lower name) then name ++ ":1" else name

/-- A recorded value with the number of its event and the pipe that it is for. -/
structure ResultRow where
  event : Nat
  pipe : Key
  value : Sql.Value
  deriving DecidableEq, Repr

/-- An event with its number and what has been joined to it. -/
structure JoinedRow where
  number : Nat
  event : Event
  values : List Sql.Value := []
  deriving DecidableEq, Repr

def resultRows (db : Database) : List ResultRow :=
  (db.events.zipIdx 1).flatMap fun (e, n) => e.results.map fun (k, v) => ⟨n, k, v⟩

/-- Joins every row to the values that are recorded for its event and a pipe, one row for each, and
to null where there are none. -/
def leftJoin (results : List ResultRow) (pipe? : Option Key) (rows : List JoinedRow) :
    List JoinedRow :=
  rows.flatMap fun row =>
    let found := results.filter fun r => r.event == row.number && some r.pipe == pipe?
    let values := if found.isEmpty then [.null] else found.map (·.value)
    values.map fun v => { row with values := row.values ++ [v] }

/-- The events joined to the values of every column, by number. -/
def joinedRows (db : Database) (columns : List Sql.CollectionColumn) : List JoinedRow :=
  let results := db.resultRows
  let events := (db.events.zipIdx 1).map fun (e, n) => JoinedRow.mk n e []
  let joined := columns.foldl
    (fun rows c => leftJoin results ((db.pipeRow? c.pipe).map (·.key)) rows) events
  joined.mergeSort fun a b => decide (a.number ≤ b.number)

/-- The columns of an SQL view at a joined row. -/
def selectRow (columns : List Sql.CollectionColumn) (row : JoinedRow) :
    Result (List (String × Sql.Value)) := do
  let names := columns.map (·.name)
  let cells ← (columns.zip row.values).mapM fun (c, v) => return (c.name, ← v.cast c.point)
  return cells ++ [(freshName names "Timestamp", .text row.event.timestamp),
    (freshName names "URL", .text row.event.url)]

/-- The columns of an SQL view, if it was made for the stored view. -/
def columnsFor (u : Uuid) : SchemaObject → Option (List Sql.CollectionColumn)
  | .view v columns => if v = u then some columns else none
  | _ => none

def viewRows (db : Database) (u : Uuid) : Result (List (List (String × Sql.Value))) :=
  match db.objects.findSome? (columnsFor u) with
  | none => .error (.internal ("no such table: " ++ Sql.viewName u))
  | some columns =>
    if joinLimit ≤ columns.length then
      .error (.internal ("at most " ++ toString joinLimit ++ " tables in a join"))
    else (db.joinedRows columns).mapM (selectRow columns)

def viewRowsJson (db : Database) (u : Uuid) : Result (List Json) := do
  discard (db.storedView u)
  return (← db.viewRows u).map fun row => .obj (row.map fun (name, v) => (name, v.toJson))

def namedRows (db : Database) (name : String) : Result (List (List (String × Sql.Value))) :=
  match db.objects.find? (·.name == name) with
  | some (.table _ columns rows) => .ok (rows.map ((columns.map (·.name)).zip ·))
  | some (.view u _) | some (.aliasView _ u) => db.viewRows u
  | none => .error (.internal ("no such table: " ++ name))

end Database
end PagePipes
