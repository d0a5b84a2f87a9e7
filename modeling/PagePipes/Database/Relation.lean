import PagePipes.Database.Resources

set_option autoImplicit false

/-!
# Relations

The statements of the store name tables of its schema, indexes, the catalogue of the schema, the
tables and SQL views that are made for stored views, and the one function that a statement reads
rows from. SQL reads all of these names without case. An SQL view of such a name stands in the way
of the statements that mean the relation itself.
-/
namespace PagePipes

/-- The tables of the schema, in the order in which they are made. -/
inductive Table
  | pipes
  | views
  | triggerRules
  | pipeRules
  | viewPipes
  | resources
  | resourceLabels
  | triggerPlans
  | triggerPlanPipes
  | triggerEvents
  | triggerResults
  deriving DecidableEq, Repr

namespace Table

def all : List Table :=
  [pipes, views, triggerRules, pipeRules, viewPipes, resources, resourceLabels, triggerPlans,
    triggerPlanPipes, triggerEvents, triggerResults]

theorem mem_all (t : Table) : t ∈ all := by cases t <;> decide

def name : Table → String
  | pipes => "Pipes"
  | views => "Views"
  | triggerRules => "TriggerRules"
  | pipeRules => "PipeRules"
  | viewPipes => "ViewPipes"
  | resources => "Resources"
  | resourceLabels => "ResourceLabels"
  | triggerPlans => "TriggerPlans"
  | triggerPlanPipes => "TriggerPlanPipes"
  | triggerEvents => "TriggerEvents"
  | triggerResults => "TriggerResults"

end Table

/-- The indexes of the schema, each over one column of a table. -/
inductive TableIndex
  | pipeNames
  | hostnames
  | linkedRules
  | viewedPipes
  | resultEvents
  deriving DecidableEq, Repr

def TableIndex.name : TableIndex → String
  | pipeNames => "idx_pipes_name"
  | hostnames => "idx_trigger_rules_hostname"
  | linkedRules => "idx_pipe_rules_rule"
  | viewedPipes => "idx_view_pipes_pipe"
  | resultEvents => "idx_trigger_results_event"

/-- What a statement of the store may name. SQLite itself makes an index for each constraint that
rows be unique, a table of the last row numbers, and the catalogue. -/
inductive Relation
  | table (t : Table)
  | index (i : TableIndex)
  | uniqueIndex (owner : String) (number : Nat)
  | rowNumbers
  | catalogue
  | view (u : Uuid)
  | collection (name digest : String)
  | actions
  deriving DecidableEq, Repr

def Relation.name : Relation → String
  | .table t => t.name
  | .index i => i.name
  | .uniqueIndex owner number => "sqlite_autoindex_" ++ owner ++ "_" ++ toString number
  | .rowNumbers => "sqlite_sequence"
  | .catalogue => "sqlite_master"
  | .view u => Sql.viewName u
  | .collection name digest => Sql.tableName name digest
  | .actions => Database.actionSource

/-- Some SQL view of an alias has the name of the relation. -/
def Database.Captures (db : Database) (r : Relation) : Prop :=
  ∃ name u, .aliasView name u ∈ db.objects ∧ Key.lower name = Key.lower r.name

end PagePipes
