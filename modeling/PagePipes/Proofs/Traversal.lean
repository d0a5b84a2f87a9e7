import PagePipes.Graph
import PagePipes.Proofs.Lookup

set_option autoImplicit false

/-!
# Traversals of dependency graphs

A traversal emits nodes of its graph, none of them twice, and each after all that it depends on.
When it reports no edge between nodes left over, no node is left over; where dependencies go down in
rank it reports none.
-/
namespace PagePipes.Graph

variable {g : Graph} {k j : Key}

theorem getElem?_emit : (emit g k)[j]? = if k = j then none else (g[j]?).map (·.erase k) := by
  rw [emit, Std.ExtTreeMap.getElem?_map, Std.ExtTreeMap.getElem?_erase]
  by_cases h : k = j
  · simp [h]
  · simp [h]

theorem mem_emit : j ∈ emit g k ↔ j ≠ k ∧ j ∈ g := by
  rw [Std.ExtTreeMap.mem_iff_isSome_getElem?, Std.ExtTreeMap.mem_iff_isSome_getElem?,
    getElem?_emit]
  by_cases h : k = j
  · simp [h]
  · simp [h, Ne.symm h]

theorem deps_of_ready (h : ready? g = some k) : g[k]? = some ∅ := by
  obtain ⟨⟨key, deps⟩, hfind, rfl⟩ := Option.map_eq_some_iff.1 h
  have hmem := Std.ExtTreeMap.mem_toList_iff_getElem?_eq_some.1 (List.mem_of_find?_eq_some hfind)
  have hempty : deps = ∅ := Std.ExtTreeSet.isEmpty_iff.1 (by simpa using List.find?_some hfind)
  simpa [hempty] using hmem

theorem traverse_of_ready (h : ready? g = some k) :
    g.traverse = ⟨k :: (emit g k).traverse.emitted, (emit g k).traverse.cycle⟩ := by
  rw [traverse]
  split
  · simp_all
  · simp_all

theorem traverse_of_not_ready (h : ready? g = none) : g.traverse = ⟨[], leftover? g⟩ := by
  rw [traverse]
  split
  · rfl
  · simp_all

theorem mem_of_emitted (h : j ∈ g.traverse.emitted) : j ∈ g := by
  induction g using traverse.induct with
  | case1 g hr => simp [traverse_of_not_ready hr] at h
  | case2 g k hr ih =>
    rw [traverse_of_ready hr] at h
    rcases List.mem_cons.1 h with rfl | h
    · exact ready_mem hr
    · exact (mem_emit.1 (ih h)).2

theorem emitted_nodup : g.traverse.emitted.Nodup := by
  induction g using traverse.induct with
  | case1 g hr => simp [traverse_of_not_ready hr]
  | case2 g k hr ih =>
    rw [traverse_of_ready hr]
    refine List.nodup_cons.2 ⟨?_, ih⟩
    intro h
    exact (mem_emit.1 (mem_of_emitted h)).1 rfl

theorem deps_emitted_before {earlier later : List Key} {deps : KeySet}
    (h : g.traverse.emitted = earlier ++ k :: later) (hk : g[k]? = some deps)
    {d : Key} (hd : d ∈ deps) : d ∈ earlier := by
  induction g using traverse.induct generalizing earlier deps with
  | case1 g hr => simp [traverse_of_not_ready hr] at h
  | case2 g first hr ih =>
    rw [traverse_of_ready hr] at h
    cases earlier with
    | nil =>
      have hfirst : first = k := (List.cons.inj h).1
      rw [hfirst] at hr
      -- the node was ready, so nothing was left that it depends on
      rw [deps_of_ready hr] at hk
      cases hk
      exact absurd hd Std.ExtTreeSet.not_mem_empty
    | cons e earlier =>
      obtain ⟨rfl, hrest⟩ := List.cons.inj h
      by_cases hd' : d = first
      · simp [hd']
      · have hne : k ≠ first := by
          have hmem : k ∈ (emit g first).traverse.emitted := by simp [hrest]
          exact (mem_emit.1 (mem_of_emitted hmem)).1
        have hlater : (emit g first)[k]? = some (deps.erase first) := by
          simp [getElem?_emit, Ne.symm hne, hk]
        have hleft : d ∈ deps.erase first := by simp [hd, Ne.symm hd']
        exact List.mem_cons_of_mem _ (ih hrest hlater hleft)

theorem emitted_of_no_cycle (h : g.traverse.cycle = none) (hk : k ∈ g) :
    k ∈ g.traverse.emitted := by
  induction g using traverse.induct with
  | case1 g hr =>
    rw [traverse_of_not_ready hr] at h
    obtain ⟨deps, hdeps⟩ := Lookup.exists_of_mem hk
    have hmem := Std.ExtTreeMap.mem_toList_iff_getElem?_eq_some.2 hdeps
    have hnone : ∀ e ∈ g.toList, e.2.isEmpty = false := by
      simpa [ready?] using hr
    unfold leftover? at h
    split at h
    · next hnil => simp [hnil] at hmem
    · next source first rest hcons =>
      have hfirst : first.isEmpty = false := hnone (source, first) (by simp [hcons])
      have : first.toList.isEmpty = true := by
        simpa [List.head?_eq_none_iff] using h
      simp [Std.ExtTreeSet.isEmpty_toList, hfirst] at this
  | case2 g first hr ih =>
    rw [traverse_of_ready hr] at h ⊢
    by_cases hkf : k = first
    · simp [hkf]
    · exact List.mem_cons_of_mem _ (ih h (mem_emit.2 ⟨hkf, hk⟩))

/-- Where dependencies are nodes of lower rank, some node is without any. -/
theorem not_mem_of_not_ready {rank : Key → Nat}
    (hrank : ∀ (k : Key) (deps : KeySet), g[k]? = some deps → ∀ d ∈ deps, d ∈ g ∧ rank d < rank k)
    (hr : ready? g = none) : k ∉ g := by
  induction hn : rank k using Nat.strongRecOn generalizing k with
  | ind n ih =>
    intro hk
    obtain ⟨deps, hdeps⟩ := Lookup.exists_of_mem hk
    have hnone : ∀ e ∈ g.toList, e.2.isEmpty = false := by simpa [ready?] using hr
    have hne := hnone (k, deps) (Std.ExtTreeMap.mem_toList_iff_getElem?_eq_some.2 hdeps)
    refine Std.ExtTreeSet.isEmpty_eq_false_iff.1 hne ?_
    refine Std.ExtTreeSet.eq_empty_iff_forall_not_mem.2 fun d hd => ?_
    obtain ⟨hmem, hlt⟩ := hrank k deps hdeps d hd
    exact ih (rank d) (hn ▸ hlt) rfl hmem

theorem traverse_cycle_of_ranked {rank : Key → Nat}
    (hrank : ∀ (k : Key) (deps : KeySet), g[k]? = some deps → ∀ d ∈ deps, d ∈ g ∧ rank d < rank k) :
    g.traverse.cycle = none := by
  induction g using traverse.induct with
  | case1 g hr =>
    have hnil : g.toList = [] := by
      refine List.eq_nil_iff_forall_not_mem.2 fun ⟨k, deps⟩ he => ?_
      have hk := Std.ExtTreeMap.mem_toList_iff_getElem?_eq_some.1 he
      exact not_mem_of_not_ready hrank hr (Lookup.mem hk)
    simp [traverse_of_not_ready hr, leftover?, hnil]
  | case2 g first hr ih =>
    rw [traverse_of_ready hr]
    refine ih fun k deps hk d hd => ?_
    rw [getElem?_emit] at hk
    split at hk
    · simp at hk
    · obtain ⟨old, hold, rfl⟩ := Option.map_eq_some_iff.1 hk
      obtain ⟨hne, hd⟩ : first ≠ d ∧ d ∈ old := by simpa using hd
      obtain ⟨hmem, hlt⟩ := hrank k old hold d hd
      exact ⟨mem_emit.2 ⟨Ne.symm hne, hmem⟩, hlt⟩

theorem getElem?_closed : g.closed[k]? = (g[k]?).map (·.filter (· ∈ g)) := by
  rw [closed, Std.ExtTreeMap.getElem?_map]

theorem mem_closed : k ∈ g.closed ↔ k ∈ g := by
  rw [Std.ExtTreeMap.mem_iff_isSome_getElem?, Std.ExtTreeMap.mem_iff_isSome_getElem?,
    getElem?_closed, Option.isSome_map]

theorem order_nodup : g.order.emitted.Nodup := emitted_nodup

theorem mem_of_mem_order (h : k ∈ g.order.emitted) : k ∈ g := mem_closed.1 (mem_of_emitted h)

theorem mem_order_of_no_cycle (h : g.order.cycle = none) (hk : k ∈ g) : k ∈ g.order.emitted :=
  emitted_of_no_cycle h (mem_closed.2 hk)

theorem order_deps_before {earlier later : List Key} {deps : KeySet}
    (h : g.order.emitted = earlier ++ k :: later) (hk : g[k]? = some deps)
    {d : Key} (hd : d ∈ deps) (hg : d ∈ g) : d ∈ earlier := by
  have hclosed : g.closed[k]? = some (deps.filter (· ∈ g)) := by simp [getElem?_closed, hk]
  apply deps_emitted_before h hclosed
  rw [Std.ExtTreeSet.mem_filter]
  exact ⟨hd, by simpa using hg⟩

theorem order_cycle_of_ranked {rank : Key → Nat}
    (hrank : ∀ (k : Key) (deps : KeySet), g[k]? = some deps → ∀ d ∈ deps, rank d < rank k) :
    g.order.cycle = none := by
  apply traverse_cycle_of_ranked
  intro k deps hk d hd
  rw [getElem?_closed] at hk
  obtain ⟨old, hold, rfl⟩ := Option.map_eq_some_iff.1 hk
  obtain ⟨hd, hmem⟩ := Std.ExtTreeSet.mem_filter.1 hd
  exact ⟨mem_closed.2 (by simpa using hmem), hrank k old hold d hd⟩

end PagePipes.Graph
