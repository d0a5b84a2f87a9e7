import PagePipes.Error
import Std.Data.ExtTreeSet

set_option autoImplicit false

/-!
# Dependency graphs

A graph maps each node to the keys that it depends on. The traversal puts every node after its
dependencies: it emits the least node all of whose dependencies have been emitted, until there is
none. Dependencies that are no nodes do not count. Nodes left over lie on a cycle or behind one, and
one edge between two of them is reported.
-/
namespace PagePipes

abbrev KeySet := Std.ExtTreeSet Key

abbrev Graph := Key.Map KeySet

/-- The nodes in the order of emission, and an edge between nodes left over, if any. -/
structure Traversal where
  emitted : List Key
  cycle : Option (Key × Key)
  deriving DecidableEq, Repr

namespace Graph

/-- Drops dependencies that are no nodes. -/
def closed (g : Graph) : Graph := g.map fun _ deps => deps.filter (· ∈ g)

/-- The least node without dependencies. -/
def ready? (g : Graph) : Option Key := (g.toList.find? (·.2.isEmpty)).map (·.1)

def emit (g : Graph) (k : Key) : Graph := (g.erase k).map fun _ deps => deps.erase k

/-- An edge between nodes left over: the least node and its least dependency. -/
def leftover? (g : Graph) : Option (Key × Key) :=
  match g.toList with
  | [] => none
  | (source, deps) :: _ => deps.toList.head?.map fun target => (source, target)

theorem ready_mem {g : Graph} {k : Key} (h : ready? g = some k) : k ∈ g := by
  obtain ⟨e, he, rfl⟩ := Option.map_eq_some_iff.1 h
  have hm := List.mem_of_find?_eq_some he
  obtain ⟨k, deps⟩ := e
  have := Std.ExtTreeMap.mem_toList_iff_getElem?_eq_some.1 hm
  rw [Std.ExtTreeMap.mem_iff_isSome_getElem?]
  simp [this]

theorem size_emit_lt {g : Graph} {k : Key} (h : ready? g = some k) :
    (emit g k).size < g.size := by
  have hk := ready_mem h
  have hs : g.size ≠ 0 := by
    intro h0
    have := Std.ExtTreeMap.eq_empty_iff_size_eq_zero.2 h0
    simp [this] at hk
  rw [emit, Std.ExtTreeMap.size_map, Std.ExtTreeMap.size_erase]
  split
  · omega
  · contradiction

def traverse (g : Graph) : Traversal :=
  match _h : ready? g with
  | none => ⟨[], leftover? g⟩
  | some k =>
    let rest := traverse (emit g k)
    ⟨k :: rest.emitted, rest.cycle⟩
termination_by g.size
decreasing_by exact size_emit_lt (by assumption)

def order (g : Graph) : Traversal := g.closed.traverse

end Graph

def Traversal.error? (t : Traversal) : Option Error := t.cycle.map fun (a, b) => .cycle a b

end PagePipes
