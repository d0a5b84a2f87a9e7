import PagePipes.Pipe.Flatten
import PagePipes.Plan.Graph

set_option autoImplicit false

/-!
# Planners

A planner folds pipes into one plan. Each pipe is flattened with the pipes that it may refer to and
ends with an exchange, which reports under the name of the pipe and the digest of its flat form.
-/
namespace PagePipes

/-- A pipe of a plan and the key that its exchange reports under. -/
structure PlannedPipe where
  name : Key
  exchange : Key
  deriving DecidableEq, Repr

def PlannedPipe.toJson (p : PlannedPipe) : Json :=
  .obj [("name", .str p.name.text), ("exchange", .str p.exchange.text)]

structure Planner where
  table : Key.Map Pipe := ∅
  /-- The pipes added so far with the keys of their exchanges. -/
  pipes : Key.Map (Pipe × Key) := ∅
  graph : PlanGraph := {}
  deriving DecidableEq

namespace Planner

def provide (s : Planner) (k : Key) (p : Pipe) : Planner := { s with table := s.table.insert k p }

def chain (name : String) (flat : Pipe) : List Action :=
  flat.actions ++ [Action.exchange (.exact name flat.digest) flat.point.scalar]

/-- Adds a pipe; one that was added before is passed over. -/
def add (s : Planner) (k : Key) (p : Pipe) : Result Planner := do
  if !k.isQualified then
    throw (.invalidArgument ("planned pipes must be qualified: " ++ k.text))
  if k ∈ s.pipes then return s
  let flat ← p.flatten s.table
  return { s with
    pipes := s.pipes.insert k (p, .exact k.name flat.digest)
    graph := s.graph.insert (chain k.name flat) }

def planned (s : Planner) : List PlannedPipe :=
  s.pipes.toList.map fun (k, _, exchange) => ⟨k, exchange⟩

def build (s : Planner) : Plan := s.graph.build

end Planner
end PagePipes
