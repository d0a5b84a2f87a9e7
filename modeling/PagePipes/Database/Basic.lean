import PagePipes.Index
import PagePipes.Planner
import PagePipes.Sql.Collection
import PagePipes.Sql.Value

set_option autoImplicit false

/-!
# Databases

A database is a list of rows for each of its tables, in the order in which the rows were made. Specs
and plans are kept as the texts of their encodings and decoded again where they are needed. Rows
refer to each other by their natural keys: a pipe and a resource by its key, a view and a plan by
its identifier, a condition by itself. An operation that fails answers no database, so it leaves no
trace.
-/
namespace PagePipes

structure PipeRow where
  key : Key
  spec : String
  disabled : Bool := false
  deriving DecidableEq, Repr

structure ViewRow where
  uuid : Uuid
  digest : String
  spec : String
  deriving DecidableEq, Repr

/-- What a stored rule asks of a URL; an empty text asks nothing. -/
structure Condition where
  hostname : String := ""
  pattern : String := ""
  always : Bool := false
  deriving DecidableEq, Repr

/-- Attaches a pipe to a condition. The owner is the rule resource that made the link; a link of
the rules interface has none. -/
structure Link where
  pipe : Key
  condition : Condition
  owner : Option Key
  deriving DecidableEq, Repr

/-- The row that a resource stands for; a pipe has the key of its resource. -/
inductive Subject
  | pipe
  | view (uuid : Uuid)
  | rule (condition : Condition)
  deriving DecidableEq, Repr

def Subject.kind : Subject → Kind
  | .pipe => .pipe
  | .view _ => .view
  | .rule _ => .rule

structure ResourceRow where
  version : String
  key : Key
  description : Option String
  labels : List String
  spec : String
  subject : Subject
  deriving DecidableEq, Repr

structure PlanRow where
  uuid : Uuid
  text : String
  pipes : List PlannedPipe
  finished : Bool := false
  deriving DecidableEq, Repr

/-- One report of a client. Events are numbered from one in the order of their rows. -/
structure Event where
  timestamp : String
  url : String
  plan : Uuid
  results : List (Key × Sql.Value) := []
  deriving DecidableEq, Repr

/-- A table or an SQL view that was made for a stored view. -/
inductive SchemaObject
  | table (name : String) (columns : List Sql.CollectionColumn) (rows : List (List Sql.Value))
  | view (uuid : Uuid) (columns : List Sql.CollectionColumn)
  | aliasView (name : String) (uuid : Uuid)
  deriving DecidableEq, Repr

def SchemaObject.name : SchemaObject → String
  | .table name _ _ => name
  | .view uuid _ => Sql.viewName uuid
  | .aliasView name _ => name

structure Database where
  pipes : List PipeRow := []
  views : List ViewRow := []
  viewPipes : List (Uuid × Key) := []
  conditions : List Condition := []
  links : List Link := []
  resources : List ResourceRow := []
  plans : List PlanRow := []
  events : List Event := []
  objects : List SchemaObject := []
  deriving DecidableEq, Repr

namespace Database

def empty : Database := {}

def insertNew {α : Type} [DecidableEq α] (row : α) (rows : List α) : List α :=
  if row ∈ rows then rows else rows ++ [row]

@[simp] theorem mem_insertNew {α : Type} [DecidableEq α] {a row : α} {rows : List α} :
    a ∈ insertNew row rows ↔ a ∈ rows ∨ a = row := by
  unfold insertNew
  split <;> simp_all

def counts (db : Database) : List (String × Nat) :=
  [("Pipes", db.pipes.length), ("Views", db.views.length),
    ("TriggerRules", db.conditions.length), ("PipeRules", db.links.length),
    ("ViewPipes", db.viewPipes.length), ("Resources", db.resources.length),
    ("ResourceLabels", (db.resources.flatMap (·.labels)).length),
    ("TriggerPlans", db.plans.length),
    ("TriggerPlanPipes", (db.plans.flatMap (·.pipes)).length),
    ("TriggerEvents", db.events.length),
    ("TriggerResults", (db.events.flatMap (·.results)).length)]

end Database
end PagePipes
