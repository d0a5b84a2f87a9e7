import Mathlib.Data.Finset.Card
import Mathlib.Data.List.Infix
import PagePipes.Proofs.Plan.Stability

set_option autoImplicit false

/-!
# The size of a plan graph

A plan graph has one node for every beginning of its chains, as far as the digests of their actions tell
them apart, and its plan has one step for each node.
-/
namespace PagePipes.PlanGraph

variable {g : PlanGraph} {chains : List (List Action)} {actions : List Action} {p : Place} {i : Nat}
  {a : Action}

/-- The non-empty beginnings of the chains, as lists of digests. -/
def beginnings (chains : List (List Action)) : Finset Place :=
  (chains.flatMap fun actions => (placeOf actions).inits).toFinset.erase []

theorem mem_beginnings : p ∈ beginnings chains ↔ p ≠ [] ∧ ∃ actions ∈ chains, p <+: placeOf actions := by
  simp [beginnings]

theorem exists_along_iff : (∃ b, Along [] actions p b) ↔ p ≠ [] ∧ p <+: placeOf actions := by
  simp only [along_iff_beginning, List.nil_append]
  constructor
  · rintro ⟨b, before, hbegin, rfl⟩
    exact ⟨by simp [placeOf], hbegin.map _⟩
  · rintro ⟨hne, hbegin⟩
    obtain ⟨beginning, hprefix, rfl⟩ : ∃ beginning, beginning <+: actions ∧ placeOf beginning = p := by
      refine ⟨actions.take p.length, List.take_prefix _ _, ?_⟩
      rw [placeOf, List.map_take]
      exact (List.prefix_iff_eq_take.1 hbegin).symm
    rcases List.eq_nil_or_concat' beginning with rfl | ⟨before, b, rfl⟩
    · exact absurd rfl hne
    · exact ⟨b, before, hprefix, rfl⟩

/-- Whatever their digests, the places of a graph are the beginnings of its chains. -/
theorem exists_actionAt_iff : (∃ b, (ofChains chains).actionAt p = some b) ↔ p ∈ beginnings chains := by
  rw [mem_beginnings]
  induction chains using List.reverseRecOn with
  | nil => simp [not_actionAt_empty]
  | append_singleton chains actions ih =>
    have hsplit : (p ≠ [] ∧ ∃ c ∈ chains ++ [actions], p <+: placeOf c) ↔
        (p ≠ [] ∧ ∃ c ∈ chains, p <+: placeOf c) ∨ p ≠ [] ∧ p <+: placeOf actions := by
      simp only [List.mem_append, List.mem_singleton, or_and_right, exists_or, exists_eq_left, and_or_left]
    rw [hsplit, ← ih, ← exists_along_iff, ofChains_concat]
    simp only [actionAt_insert tree_ofChains]
    cases hp : (ofChains chains).actionAt p with
    | none => simp
    | some b => simp

theorem places_ofChains : ((ofChains chains).entries.map (·.1)).toFinset = beginnings chains := by
  ext p
  rw [← exists_actionAt_iff]
  simp [mem_entries tree_ofChains]

theorem length_entries_grow (ht : Tree g) (hp : g.follow 0 p = some i)
    (hnew : (g.node i).followers[a.digest]? = none) :
    (g.grow i a).entries.length = g.entries.length + 1 := by
  have hfree : g.actionAt (p ++ [a.digest]) = none := by
    rw [actionAt, follow_new hp hnew]
    rfl
  have hfresh : (p ++ [a.digest], a) ∉ g.entries := fun h => by
    cases hfree.symm.trans ((mem_entries ht).1 h)
  have hperm : (g.grow i a).entries.Perm ((p ++ [a.digest], a) :: g.entries) := by
    refine (List.perm_ext_iff_of_nodup (nodup_entries (ht.grow hp hnew))
      (List.nodup_cons.2 ⟨hfresh, nodup_entries ht⟩)).2 ?_
    rintro ⟨q, b⟩
    rw [mem_entries (ht.grow hp hnew), actionAt_grow ht hp hnew, List.mem_cons, mem_entries ht]
    by_cases hq : q = p ++ [a.digest]
    · simp [hq, hfree, eq_comm]
    · simp [hq]
  rw [hperm.length_eq, List.length_cons]

theorem length_entries_insertFrom (ht : Tree g) (hp : g.follow 0 p = some i)
    (h : g.nodes.length = g.entries.length + 1) :
    (g.insertFrom i actions).nodes.length = (g.insertFrom i actions).entries.length + 1 := by
  induction actions generalizing g i p with
  | nil => exact h
  | cons a rest ih =>
    rw [insertFrom]
    cases hj : (g.node i).followers[a.digest]? with
    | some j =>
      have hnext : g.follow 0 (p ++ [a.digest]) = some j := by
        rw [follow_concat, hp, Option.bind_some, hj]
      exact ih ht hnext h
    | none =>
      have hnext : (g.grow i a).follow 0 (p ++ [a.digest]) = some g.nodes.length := by
        rw [follow_grow ht hp hj, if_pos rfl]
      refine ih (ht.grow hp hj) hnext ?_
      rw [length_entries_grow ht hp hj, ← h]
      simp [grow, grown]

theorem length_nodes_ofChains :
    (ofChains chains).nodes.length = (ofChains chains).entries.length + 1 := by
  induction chains using List.reverseRecOn with
  | nil =>
    have hnone : (ofChains []).entries = [] := List.eq_nil_iff_forall_not_mem.2 fun e he =>
      not_actionAt_empty ((mem_entries tree_ofChains).1 he)
    rw [hnone]
    rfl
  | append_singleton chains actions ih =>
    rw [ofChains_concat]
    exact length_entries_insertFrom tree_ofChains follow_page ih

theorem length_entries_ofChains : (ofChains chains).entries.length = (ofChains chains).size := by
  rw [size, length_nodes_ofChains, Nat.add_sub_cancel]

theorem size_ofChains : (ofChains chains).size = (beginnings chains).card := by
  rw [← places_ofChains, List.toFinset_card_of_nodup (entries_nodup tree_ofChains), List.length_map,
    length_entries_ofChains]

end PagePipes.PlanGraph
