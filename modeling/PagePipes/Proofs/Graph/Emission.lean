import Mathlib.Data.Set.Finite.Basic
import Mathlib.Logic.Relation
import Mathlib.Order.WellFounded
import PagePipes.Proofs.Traversal

set_option autoImplicit false

/-!
# What a traversal emits

The order of a graph emits at every step the least node that is ready. It emits the nodes from which no
cycle can be reached, and where it leaves nodes over, the edge that it names is one between two of them.
-/
namespace PagePipes.Graph

variable {g : Graph} {k j source target : Key} {deps : KeySet} {before after : List Key}

/-- A node depends on another node. -/
def DependsOn (g : Graph) (k j : Key) : Prop := j ∈ g ∧ ∃ deps, g[k]? = some deps ∧ j ∈ deps

/-- A cycle of dependencies can be reached from the node. -/
def ReachesCycle (g : Graph) (k : Key) : Prop :=
  ∃ j, Relation.ReflTransGen g.DependsOn k j ∧ Relation.TransGen g.DependsOn j j

/-- A node that is not yet emitted, while all nodes that it depends on are. -/
structure Ready (g : Graph) (emitted : List Key) (k : Key) : Prop where
  node : k ∈ g
  fresh : k ∉ emitted
  served : ∀ j, g.DependsOn k j → j ∈ emitted

/-- An edge between two nodes that are left over, at the least of them. -/
structure LeftOver (g : Graph) (emitted : List Key) (source target : Key) : Prop where
  source_node : source ∈ g
  source_left : source ∉ emitted
  least : ∀ j, j ∈ g → j ∉ emitted → (compare source j).isLE
  edge : g.DependsOn source target
  target_left : target ∉ emitted

/-! ## One step -/

theorem least_of_ready (h : ready? g = some k) (hj : g[j]? = some ∅) : (compare k j).isLE := by
  obtain ⟨e, hfind, rfl⟩ := Option.map_eq_some_iff.1 h
  obtain ⟨he, first, rest, hsplit, hfirst⟩ := List.find?_eq_some_iff_append.1 hfind
  have hmem : (j, ∅) ∈ first ++ e :: rest := by
    rw [← hsplit]
    exact Std.ExtTreeMap.mem_toList_iff_getElem?_eq_some.2 hj
  have hordered : (first ++ e :: rest).Pairwise fun a b => compare a.1 b.1 = .lt :=
    hsplit ▸ Std.ExtTreeMap.ordered_keys_toList
  rcases List.mem_append.1 hmem with hbefore | hmem
  · -- no entry before the ready one is without dependencies
    simpa using hfirst _ hbefore
  · rcases List.mem_cons.1 hmem with heq | hafter
    · rw [← heq]
      simp
    · have hlt := (List.pairwise_cons.1 (List.pairwise_append.1 hordered).2.1).1 _ hafter
      simp [hlt]

theorem nonempty_of_not_ready (h : ready? g = none) (hk : g[k]? = some deps) :
    deps.isEmpty = false := by
  have hnone : ∀ e ∈ g.toList, e.2.isEmpty = false := by simpa [ready?] using h
  exact hnone (k, deps) (Std.ExtTreeMap.mem_toList_iff_getElem?_eq_some.2 hk)

theorem of_leftover (h : leftover? g = some (source, target)) :
    (∃ deps, g[source]? = some deps ∧ target ∈ deps) ∧ ∀ j ∈ g, (compare source j).isLE := by
  unfold leftover? at h
  split at h
  · cases h
  · next first deps rest hlist =>
    obtain ⟨t, ht, heq⟩ := Option.map_eq_some_iff.1 h
    cases heq
    have hsource : g[source]? = some deps :=
      Std.ExtTreeMap.mem_toList_iff_getElem?_eq_some.1 (by rw [hlist]; exact List.mem_cons_self)
    refine ⟨⟨deps, hsource, Std.ExtTreeSet.mem_toList.1 (List.mem_of_mem_head? ht)⟩, fun j hj => ?_⟩
    obtain ⟨other, hother⟩ := Lookup.exists_of_mem hj
    have hmem := Std.ExtTreeMap.mem_toList_iff_getElem?_eq_some.2 hother
    have hordered : ((source, deps) :: rest).Pairwise fun a b => compare a.1 b.1 = .lt :=
      hlist ▸ Std.ExtTreeMap.ordered_keys_toList
    rw [hlist] at hmem
    rcases List.mem_cons.1 hmem with heq | hrest
    · cases heq
      simp
    · simp [(List.pairwise_cons.1 hordered).1 _ hrest]

/-! ## A whole traversal -/

/-- Every node emitted is the least of those whose dependencies have been emitted. -/
theorem least_of_emitted (h : g.traverse.emitted = before ++ k :: after) (hj : g[j]? = some deps)
    (hfresh : j ∉ before) (hserved : ∀ d ∈ deps, d ∈ before) : (compare k j).isLE := by
  induction g using traverse.induct generalizing before deps with
  | case1 g hr => simp [traverse_of_not_ready hr] at h
  | case2 g first hr ih =>
    rw [traverse_of_ready hr] at h
    cases before with
    | nil =>
      obtain ⟨rfl, -⟩ := List.cons.inj h
      have hempty : deps = ∅ := Std.ExtTreeSet.eq_empty_iff_forall_not_mem.2 fun d hd => by
        simpa using hserved d hd
      exact least_of_ready hr (hempty ▸ hj)
    | cons e before =>
      obtain ⟨rfl, hrest⟩ := List.cons.inj h
      obtain ⟨hne, hfresh⟩ := not_or.1 (mt List.mem_cons.2 hfresh)
      have hlater : (emit g first)[j]? = some (deps.erase first) := by
        simp [getElem?_emit, Ne.symm hne, hj]
      refine ih hrest hlater hfresh fun d hd => ?_
      obtain ⟨hd', hd⟩ : first ≠ d ∧ d ∈ deps := by simpa using hd
      exact (List.mem_cons.1 (hserved d hd)).resolve_left (Ne.symm hd')

/-- A node that is never emitted waits for another one. -/
theorem exists_waiting (hk : g[k]? = some deps) (h : k ∉ g.traverse.emitted) :
    ∃ d ∈ deps, d ∉ g.traverse.emitted := by
  induction g using traverse.induct generalizing deps with
  | case1 g hr =>
    rw [traverse_of_not_ready hr]
    by_contra hnone
    have hempty : deps = ∅ := Std.ExtTreeSet.eq_empty_iff_forall_not_mem.2 fun d hd =>
      hnone ⟨d, hd, List.not_mem_nil⟩
    exact Std.ExtTreeSet.isEmpty_eq_false_iff.1 (nonempty_of_not_ready hr hk) hempty
  | case2 g first hr ih =>
    rw [traverse_of_ready hr] at h ⊢
    obtain ⟨hne, h⟩ := not_or.1 (mt List.mem_cons.2 h)
    have hlater : (emit g first)[k]? = some (deps.erase first) := by
      simp [getElem?_emit, Ne.symm hne, hk]
    obtain ⟨d, hd, hleft⟩ := ih hlater h
    obtain ⟨hd', hd⟩ : first ≠ d ∧ d ∈ deps := by simpa using hd
    exact ⟨d, hd, fun hmem => (List.mem_cons.1 hmem).elim (Ne.symm hd') hleft⟩

theorem of_traverse_cycle (h : g.traverse.cycle = some (source, target)) :
    (∃ deps, g[source]? = some deps ∧ target ∈ deps) ∧ source ∉ g.traverse.emitted ∧
      target ∉ g.traverse.emitted ∧
      ∀ j ∈ g, j ∉ g.traverse.emitted → (compare source j).isLE := by
  induction g using traverse.induct with
  | case1 g hr =>
    rw [traverse_of_not_ready hr] at h ⊢
    obtain ⟨hedge, hleast⟩ := of_leftover h
    exact ⟨hedge, List.not_mem_nil, List.not_mem_nil, fun j hj _ => hleast j hj⟩
  | case2 g first hr ih =>
    rw [traverse_of_ready hr] at h ⊢
    obtain ⟨⟨left, hleft, htarget⟩, hsource, hlater, hleast⟩ := ih h
    have hne : first ≠ source := fun heq => by simp [getElem?_emit, heq] at hleft
    obtain ⟨deps, hdeps, rfl⟩ : ∃ deps, g[source]? = some deps ∧ deps.erase first = left := by
      simpa [getElem?_emit, hne] using hleft
    obtain ⟨hfirst, htarget⟩ : first ≠ target ∧ target ∈ deps := by simpa using htarget
    refine ⟨⟨deps, hdeps, htarget⟩, ?_, ?_, fun j hj hfresh => ?_⟩
    · exact fun hmem => (List.mem_cons.1 hmem).elim (Ne.symm hne) hsource
    · exact fun hmem => (List.mem_cons.1 hmem).elim (Ne.symm hfirst) hlater
    · obtain ⟨hj', hfresh⟩ := not_or.1 (mt List.mem_cons.2 hfresh)
      exact hleast j (mem_emit.2 ⟨hj', hj⟩) hfresh

/-! ## The order of a graph -/

theorem dependsOn_iff : g.DependsOn k j ↔ ∃ deps, g.closed[k]? = some deps ∧ j ∈ deps := by
  simp only [getElem?_closed, Option.map_eq_some_iff, DependsOn]
  constructor
  · rintro ⟨hj, deps, hdeps, hmem⟩
    exact ⟨_, ⟨deps, hdeps, rfl⟩, Std.ExtTreeSet.mem_filter.2 ⟨hmem, by simpa using hj⟩⟩
  · rintro ⟨_, ⟨deps, hdeps, rfl⟩, hmem⟩
    obtain ⟨hmem, hj⟩ := Std.ExtTreeSet.mem_filter.1 hmem
    exact ⟨by simpa using hj, deps, hdeps, hmem⟩

theorem ready_of_order (h : g.order.emitted = before ++ k :: after) : g.Ready before k where
  node := mem_of_mem_order (h ▸ by simp)
  fresh := by
    have hnodup : (before ++ k :: after).Nodup := h ▸ order_nodup
    exact fun hmem => (List.nodup_append.1 hnodup).2.2 k hmem k List.mem_cons_self rfl
  served j hj := by
    obtain ⟨deps, hdeps, hmem⟩ := dependsOn_iff.1 hj
    exact deps_emitted_before h hdeps hmem

theorem least_of_order (h : g.order.emitted = before ++ k :: after) (hj : g.Ready before j) :
    (compare k j).isLE := by
  obtain ⟨deps, hdeps⟩ := Lookup.exists_of_mem (mem_closed.2 hj.node)
  exact least_of_emitted h hdeps hj.fresh fun d hd => hj.served d (dependsOn_iff.2 ⟨deps, hdeps, hd⟩)

theorem exists_dependsOn_of_not_mem (hk : k ∈ g) (h : k ∉ g.order.emitted) :
    ∃ j, g.DependsOn k j ∧ j ∉ g.order.emitted := by
  obtain ⟨deps, hdeps⟩ := Lookup.exists_of_mem (mem_closed.2 hk)
  obtain ⟨j, hj, hleft⟩ := exists_waiting hdeps h
  exact ⟨j, dependsOn_iff.2 ⟨deps, hdeps, hj⟩, hleft⟩

theorem DependsOn.mem_order (h : g.DependsOn k j) (hk : k ∈ g.order.emitted) : j ∈ g.order.emitted := by
  obtain ⟨before, after, hsplit⟩ := List.append_of_mem hk
  rw [hsplit]
  exact List.mem_append_left _ ((ready_of_order hsplit).served j h)

/-- Along dependencies the place in the order goes down. -/
theorem DependsOn.idxOf_lt (h : g.DependsOn k j) (hk : k ∈ g.order.emitted) :
    g.order.emitted.idxOf j < g.order.emitted.idxOf k := by
  obtain ⟨before, after, hsplit⟩ := List.append_of_mem hk
  have hready := ready_of_order hsplit
  have hj : j ∈ before := hready.served j h
  rw [hsplit, List.idxOf_append_of_mem hj, List.idxOf_append_of_notMem hready.fresh,
    List.idxOf_cons_self]
  exact Nat.lt_of_lt_of_le (List.idxOf_lt_length_of_mem hj) (Nat.le_add_right _ _)

theorem not_reachesCycle_of_mem (hk : k ∈ g.order.emitted) : ¬ g.ReachesCycle k := by
  rintro ⟨j, hreach, hcycle⟩
  have hj : j ∈ g.order.emitted := by
    clear hcycle
    induction hreach with
    | refl => exact hk
    | tail _ hstep ih => exact hstep.mem_order ih
  have hdown : ∀ i, Relation.TransGen g.DependsOn j i →
      i ∈ g.order.emitted ∧ g.order.emitted.idxOf i < g.order.emitted.idxOf j := by
    intro i hi
    induction hi with
    | single hstep => exact ⟨hstep.mem_order hj, hstep.idxOf_lt hj⟩
    | tail _ hstep ih => exact ⟨hstep.mem_order ih.1, (hstep.idxOf_lt ih.1).trans ih.2⟩
  exact Nat.lt_irrefl _ (hdown j hcycle).2

/-- The nodes that can be reached from a node. -/
def Behind (g : Graph) (k : Key) : Type := {j : Key // j ∈ g.keys ∧ Relation.ReflTransGen g.DependsOn k j}

def Behind.Below (i j : g.Behind k) : Prop := Relation.TransGen g.DependsOn j.1 i.1

/-- Where no cycle can be reached, dependencies come to an end. -/
theorem Behind.wellFounded (h : ¬ g.ReachesCycle k) : WellFounded (Below (g := g) (k := k)) := by
  have hfinite : Finite (g.Behind k) :=
    Set.Finite.subset (List.finite_toSet g.keys) fun j (hj : _ ∧ _) => hj.1
  have htrans : IsTrans (g.Behind k) Below := ⟨fun _ _ _ hij hjk => hjk.trans hij⟩
  have hirrefl : Std.Irrefl (Below (g := g) (k := k)) := ⟨fun j hcycle => h ⟨j.1, j.2.2, hcycle⟩⟩
  exact Finite.wellFounded_of_trans_of_irrefl Below

theorem mem_order_of_not_reachesCycle (hk : k ∈ g) (h : ¬ g.ReachesCycle k) : k ∈ g.order.emitted := by
  have hall : ∀ j : g.Behind k, j.1 ∈ g.order.emitted := by
    intro j
    induction j using (Behind.wellFounded h).induction with
    | _ j ih =>
      by_contra hleft
      obtain ⟨i, hi, hfresh⟩ := exists_dependsOn_of_not_mem (Std.ExtTreeMap.mem_keys.1 j.2.1) hleft
      exact hfresh (ih ⟨i, Std.ExtTreeMap.mem_keys.2 hi.1, j.2.2.tail hi⟩ (.single hi))
  exact hall ⟨k, Std.ExtTreeMap.mem_keys.2 hk, .refl⟩

theorem mem_order_iff : k ∈ g.order.emitted ↔ k ∈ g ∧ ¬ g.ReachesCycle k :=
  ⟨fun h => ⟨mem_of_mem_order h, not_reachesCycle_of_mem h⟩,
    fun h => mem_order_of_not_reachesCycle h.1 h.2⟩

theorem leftOver_of_order (h : g.order.cycle = some (source, target)) :
    g.LeftOver g.order.emitted source target := by
  obtain ⟨⟨deps, hdeps, htarget⟩, hsource, hleft, hleast⟩ := of_traverse_cycle h
  exact ⟨mem_closed.1 (Lookup.mem hdeps), hsource, fun j hj => hleast j (mem_closed.2 hj),
    dependsOn_iff.2 ⟨deps, hdeps, htarget⟩, hleft⟩

theorem order_cycle_eq_none_iff : g.order.cycle = none ↔ ∀ k ∈ g, k ∈ g.order.emitted := by
  constructor
  · exact fun h k hk => mem_order_of_no_cycle h hk
  · intro h
    cases hcycle : g.order.cycle with
    | none => rfl
    | some edge =>
      obtain ⟨source, target⟩ := edge
      have hleft := leftOver_of_order hcycle
      exact absurd (h source hleft.source_node) hleft.source_left

end PagePipes.Graph
