import PagePipes.Graph

set_option autoImplicit false

/-!
# Walking a dependency graph

A walk answers the nodes of a graph one at a time. It counts for every node the dependencies that are
still to come and keeps for every key the nodes that wait for it, so that a step touches no node but
those that depend on the one it answers.
-/
namespace PagePipes

/-- A walk under way: how many dependencies of each node are outstanding, which nodes depend on a key,
and which are ready to be answered. -/
structure Walk where
  deps : Graph
  outstanding : Key.Map Nat := ∅
  dependents : Key.Map (List Key) := ∅
  ready : KeySet := ∅
  done : Bool := false

namespace Walk

/-- The nodes that wait for a key. -/
def waitingFor (w : Walk) (k : Key) : List Key := w.dependents[k]?.getD []

def await (node : Key) (dependents : Key.Map (List Key)) (dep : Key) : Key.Map (List Key) :=
  dependents.insert dep (dependents[dep]?.getD [] ++ [node])

/-- Takes a node and what it depends on into the walk. -/
def register (w : Walk) (entry : Key × KeySet) : Walk :=
  { w with
    outstanding := w.outstanding.insert entry.1 entry.2.size
    ready := if entry.2.isEmpty then w.ready.insert entry.1 else w.ready
    dependents := entry.2.toList.foldl (await entry.1) w.dependents }

/-- The walk at its start. Dependencies that are no nodes do not count. -/
def start (g : Graph) : Walk := g.closed.toList.foldl register { deps := g.closed }

/-- An edge between nodes left over: the least node that still waits, and the least of its
dependencies that waits too. -/
def cycleExample (w : Walk) : Option (Key × Key) := do
  let (source, _) ← w.outstanding.toList.find? (0 < ·.2)
  let deps ← w.deps[source]?
  let target ← deps.toList.find? fun d => w.outstanding[d]?.any (0 < ·)
  return (source, target)

/-- One dependency less for a node; with none left it is ready. There is no answer where the count
would fall below zero. -/
def release (w : Walk) (node : Key) : Option Walk :=
  match w.outstanding[node]? with
  | none => some w
  | some 0 => none
  | some (n + 1) =>
    some { w with
      outstanding := w.outstanding.insert node n
      ready := if n = 0 then w.ready.insert node else w.ready }

/-- Takes a node out of the walk. -/
def drop (w : Walk) (k : Key) : Walk :=
  { w with
    outstanding := w.outstanding.erase k
    dependents := w.dependents.erase k
    ready := w.ready.erase k }

/-- The next item and the walk after it: the least node that is ready, else once the cycle if there is
one, else nothing any more. -/
def next (w : Walk) : Option (Option (Result Key) × Walk) :=
  if w.done then some (none, w)
  else match w.ready.min? with
    | none =>
      some (w.cycleExample.map fun (source, target) => .error (.cycle source target),
        { w with done := true })
    | some k => do
      let after ← (w.waitingFor k).foldlM release (w.drop k)
      return (some (.ok k), after)

/-- What a number of steps answer. -/
def answers : Nat → Walk → Option (List (Option (Result Key)))
  | 0, _ => some []
  | n + 1, w => do
    let (item, after) ← w.next
    let rest ← answers n after
    return item :: rest

end Walk
end PagePipes
