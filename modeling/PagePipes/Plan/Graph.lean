import PagePipes.Plan

set_option autoImplicit false

/-!
# Plan graphs

Chains of actions share their common beginnings. The nodes of a graph stand in one list, in the order
in which they were added: the page comes first, and each node names the nodes that follow it by the
digests of their actions. A plan takes the nodes breadth first, the followers of one node in digest
order.
-/
namespace PagePipes

/-- A node and the numbers of its followers. The page has no action. -/
structure PlanNode where
  action : Option Action := none
  followers : Std.ExtTreeMap String Nat := ∅
  deriving DecidableEq

/-- Nodes follow nodes that were added before them. -/
def PlanNode.Ascending (nodes : List PlanNode) : Prop :=
  ∀ (i : Nat) (node : PlanNode), nodes[i]? = some node →
    ∀ (d : String) (j : Nat), node.followers[d]? = some j → i < j

theorem PlanNode.ascending_page : Ascending [{}] := by
  intro i node h d j hj
  cases i with
  | zero =>
    cases h
    simp at hj
  | succ i => simp at h

structure PlanGraph where
  nodes : List PlanNode := [{}]
  ascending : PlanNode.Ascending nodes := by exact PlanNode.ascending_page
  deriving DecidableEq

namespace PlanGraph

/-- The node of a number; a number that is not given out yet stands for a node without action. -/
def node (g : PlanGraph) (i : Nat) : PlanNode := (g.nodes[i]?).getD {}

def followers (g : PlanGraph) (i : Nat) : List (String × Nat) := (g.node i).followers.toList

def grown (nodes : List PlanNode) (i : Nat) (a : Action) : List PlanNode :=
  nodes.modify i (fun n => { n with followers := n.followers.insert a.digest nodes.length }) ++
    [{ action := some a }]

theorem ascending_grown {nodes : List PlanNode} (h : PlanNode.Ascending nodes) (i : Nat)
    (a : Action) : PlanNode.Ascending (grown nodes i a) := by
  intro k node hk d j hj
  rw [grown, List.getElem?_append, List.length_modify] at hk
  split at hk
  · next hlt =>
    rw [List.getElem?_modify] at hk
    split at hk
    · next hik =>
      obtain ⟨old, hold, rfl⟩ := Option.map_eq_some_iff.1 hk
      rw [Std.ExtTreeMap.getElem?_insert] at hj
      split at hj
      · cases hj
        exact hlt
      · exact h k old hold d j hj
    · exact h k node (by simpa using hk) d j hj
  · rw [List.getElem?_singleton] at hk
    split at hk
    · cases hk
      simp at hj
    · cases hk

def grow (g : PlanGraph) (i : Nat) (a : Action) : PlanGraph where
  nodes := grown g.nodes i a
  ascending := ascending_grown g.ascending i a

/-- Adds the actions of a chain from a node on; an action that follows there already stays. -/
def insertFrom (g : PlanGraph) (i : Nat) : List Action → PlanGraph
  | [] => g
  | a :: rest =>
    match (g.node i).followers[a.digest]? with
    | some j => g.insertFrom j rest
    | none => (g.grow i a).insertFrom g.nodes.length rest

def insert (g : PlanGraph) (actions : List Action) : PlanGraph := g.insertFrom 0 actions

def size (g : PlanGraph) : Nat := g.nodes.length - 1

theorem lt_of_mem_followers {g : PlanGraph} {i : Nat} {e : String × Nat}
    (h : e ∈ g.followers i) : i < g.nodes.length ∧ i < e.2 := by
  obtain ⟨d, j⟩ := e
  have hj := Std.ExtTreeMap.mem_toList_iff_getElem?_eq_some.1 h
  cases hi : g.nodes[i]? with
  | none => simp [node, hi] at hj
  | some n =>
    rw [node, hi] at hj
    exact ⟨(List.getElem?_eq_some_iff.1 hi).1, g.ascending i n hi d j hj⟩

/-- A node and all that follow it. -/
def reached (g : PlanGraph) (i : Nat) : List Nat :=
  i :: (g.followers i).attach.flatMap fun e => g.reached e.1.2
termination_by g.nodes.length - i
decreasing_by
  have := lt_of_mem_followers e.2
  omega

def load (g : PlanGraph) (queue : List (Nat × Nat)) : Nat :=
  (queue.flatMap fun e => g.reached e.1).length

theorem reached_eq {g : PlanGraph} {i : Nat} :
    g.reached i = i :: (g.followers i).flatMap fun e => g.reached e.2 := by
  rw [reached, List.flatMap_def, List.flatMap_def,
    ← List.attach_map_val (l := g.followers i) (f := fun e => g.reached e.2)]

theorem load_cons {g : PlanGraph} {i input : Nat} {rest : List (Nat × Nat)} :
    g.load ((i, input) :: rest) =
      1 + ((g.followers i).flatMap fun e => g.reached e.2).length + g.load rest := by
  simp only [load, List.flatMap_cons, List.length_append]
  rw [reached_eq, List.length_cons]
  omega

theorem load_rest_lt {g : PlanGraph} {i input : Nat} {rest : List (Nat × Nat)} :
    g.load rest < g.load ((i, input) :: rest) := by
  rw [load_cons]
  omega

theorem load_next_lt {g : PlanGraph} {i input number : Nat} {rest : List (Nat × Nat)} :
    g.load (rest ++ (g.followers i).map fun e => (e.2, number)) < g.load ((i, input) :: rest) := by
  rw [load_cons]
  simp only [load, List.flatMap_append, List.length_append, List.flatMap_map]
  omega

/-- Takes the nodes on the queue and all that follow them, in turn. -/
def visit (g : PlanGraph) (plan : Plan) : List (Nat × Nat) → Plan
  | [] => plan
  | (i, input) :: rest =>
    match (g.node i).action with
    | none => g.visit plan rest
    | some a =>
      let number := plan.steps.length + 1
      let plan := {
        steps := plan.steps ++ [⟨input, a⟩]
        roots := if input = 0 then plan.roots ++ [number] else plan.roots
        exchanges := if (g.followers i).isEmpty && a.is .exchange then plan.exchanges ++ [number]
          else plan.exchanges }
      g.visit plan (rest ++ (g.followers i).map fun e => (e.2, number))
termination_by queue => g.load queue
decreasing_by
  · exact load_rest_lt
  · exact load_next_lt

def build (g : PlanGraph) : Plan := g.visit {} ((g.followers 0).map fun e => (e.2, 0))

end PlanGraph
end PagePipes
