import PagePipes.Graph.Walk
import PagePipes.Proofs.Graph.Emission

set_option autoImplicit false

/-!
# Walks

A walk follows the graph of the nodes that it has not answered yet: its counts are the numbers of
dependencies left in that graph, and it knows which nodes wait for each of them. So no count falls below
zero, and what the walk answers is the order of the graph.
-/
namespace PagePipes

/-- What a walk answers for a traversal: the nodes, and then the cycle if there is one. -/
def Traversal.items (t : Traversal) : List (Result Key) :=
  t.emitted.map .ok ++ (t.error?.map .error).toList

namespace Walk

variable {w after : Walk} {g : Graph} {j k : Key} {entries : List (Key × KeySet)} {waiting : List Key}

/-! ## The start -/

theorem getD_foldl_await {node : Key} {deps : List Key} {dependents : Key.Map (List Key)}
    (hdeps : deps.Nodup) :
    (deps.foldl (await node) dependents)[k]?.getD [] =
      dependents[k]?.getD [] ++ if k ∈ deps then [node] else [] := by
  induction deps generalizing dependents with
  | nil => simp
  | cons d deps ih =>
    obtain ⟨hd, hdeps⟩ := List.nodup_cons.1 hdeps
    rw [List.foldl_cons, ih hdeps, await, Std.ExtTreeMap.getElem?_insert]
    by_cases hk : d = k
    · subst hk
      simp [hd]
    · simp [hk, Ne.symm hk]

/-- A walk that has taken in some of the nodes of a graph. -/
structure Registered (g : Graph) (entries : List (Key × KeySet)) (w : Walk) : Prop where
  deps : w.deps = g
  running : w.done = false
  counts : ∀ k n, w.outstanding[k]? = some n ↔ ∃ deps, (k, deps) ∈ entries ∧ deps.size = n
  ready : ∀ k, k ∈ w.ready ↔ (k, ∅) ∈ entries
  waiting_nodup : ∀ k, (w.waitingFor k).Nodup
  mem_waiting : ∀ k j, j ∈ w.waitingFor k ↔ ∃ deps, (j, deps) ∈ entries ∧ k ∈ deps

theorem Registered.start : Registered g [] { deps := g } where
  deps := rfl
  running := rfl
  counts k n := by simp
  ready k := by simp
  waiting_nodup k := by simp [waitingFor]
  mem_waiting k j := by simp [waitingFor]

theorem Registered.register (h : w.Registered g entries) {deps : KeySet}
    (hk : ∀ deps, (k, deps) ∉ entries) :
    (w.register (k, deps)).Registered g (entries ++ [(k, deps)]) := by
  have hnodup : deps.toList.Nodup := Std.ExtTreeSet.ordered_toList.imp fun hlt heq => by simp [heq] at hlt
  have hwaiting : ∀ d, (w.register (k, deps)).waitingFor d =
      w.waitingFor d ++ if d ∈ deps then [k] else [] := fun d => by
    rw [waitingFor, Walk.register, getD_foldl_await hnodup, waitingFor]
    simp only [Std.ExtTreeSet.mem_toList]
  refine ⟨h.deps, h.running, fun j n => ?_, fun j => ?_, fun d => ?_, fun d j => ?_⟩
  · rw [Walk.register, Std.ExtTreeMap.getElem?_insert]
    by_cases hj : k = j
    · subst hj
      simp [hk]
    · simp [hj, Ne.symm hj, h.counts]
  · have hready : j ∈ (w.register (k, deps)).ready ↔ j ∈ w.ready ∨ j = k ∧ deps = ∅ := by
      rw [Walk.register]
      by_cases hempty : deps = ∅
      · simp [hempty, Std.ExtTreeSet.mem_insert, or_comm, eq_comm (a := k)]
      · simp [hempty]
    rw [hready, h.ready]
    simp [eq_comm (a := ∅)]
  · rw [hwaiting, List.nodup_append]
    refine ⟨h.waiting_nodup d, by split <;> simp, fun a ha b hb => ?_⟩
    obtain ⟨old, hold, -⟩ := (h.mem_waiting d a).1 ha
    obtain ⟨-, rfl⟩ : d ∈ deps ∧ b = k := by simpa using hb
    rintro rfl
    exact hk old hold
  · rw [hwaiting, List.mem_append, h.mem_waiting]
    by_cases hd : d ∈ deps
    · simp only [hd, if_true, List.mem_singleton, List.mem_append, Prod.mk.injEq]
      grind
    · simp only [hd, if_false, List.mem_singleton, List.mem_append, Prod.mk.injEq]
      grind

theorem registered_foldl (h : (entries.map (·.1)).Nodup) :
    (entries.foldl register { deps := g }).Registered g entries := by
  induction entries using List.reverseRecOn with
  | nil => exact .start
  | append_singleton entries e ih =>
    obtain ⟨k, deps⟩ := e
    rw [List.map_append, List.nodup_append] at h
    rw [List.foldl_append]
    refine (ih h.1).register fun other hother => ?_
    exact h.2.2 k (List.mem_map_of_mem hother) k (by simp) rfl

/-! ## The graph that a walk follows -/

/-- A walk for the nodes of a graph that it has not answered yet. -/
structure Follows (w : Walk) (g : Graph) : Prop where
  running : w.done = false
  counts : w.outstanding = g.map fun _ deps => deps.size
  ready : ∀ k, k ∈ w.ready ↔ g[k]? = some ∅
  waiting_nodup : ∀ k ∈ g, (w.waitingFor k).Nodup
  mem_waiting : ∀ k ∈ g, ∀ j, j ∈ w.waitingFor k ↔ ∃ deps, g[j]? = some deps ∧ k ∈ deps
  left : ∀ (k : Key) (deps : KeySet), g[k]? = some deps →
    ∃ all : KeySet, w.deps[k]? = some all ∧ deps = all.filter (· ∈ g)

theorem follows_start (g : Graph) : (start g).Follows g.closed := by
  have hkeys : (g.closed.toList.map (·.1)).Nodup := by
    refine List.pairwise_map.2 (Std.ExtTreeMap.ordered_keys_toList.imp fun hlt heq => ?_)
    simp [heq] at hlt
  have h : (start g).Registered g.closed g.closed.toList := registered_foldl hkeys
  have hmem : ∀ k deps, (k, deps) ∈ g.closed.toList ↔ g.closed[k]? = some deps := fun k deps =>
    Std.ExtTreeMap.mem_toList_iff_getElem?_eq_some
  refine ⟨h.running, ?_, fun k => ?_, fun k _ => h.waiting_nodup k, fun k _ j => ?_, ?_⟩
  · refine Std.ExtTreeMap.ext_getElem? fun k => Option.ext fun n => ?_
    rw [h.counts, Std.ExtTreeMap.getElem?_map, Option.map_eq_some_iff]
    simp only [hmem]
  · rw [h.ready, hmem]
  · rw [h.mem_waiting]
    simp only [hmem]
  · intro k deps hk
    refine ⟨deps, h.deps ▸ hk, Std.ExtTreeSet.ext_mem fun d => ?_⟩
    rw [Std.ExtTreeSet.mem_filter]
    refine ⟨fun hd => ⟨hd, ?_⟩, fun hd => hd.1⟩
    simpa [Graph.mem_closed] using (Graph.dependsOn_iff.2 ⟨deps, hk, hd⟩).1

/-- Nothing is ready in a walk just where nothing is in the graph. -/
theorem Follows.min?_ready (h : w.Follows g) : w.ready.min? = g.ready? := by
  cases hr : g.ready? with
  | none =>
    refine Std.ExtTreeSet.min?_eq_none_iff.2 (Std.ExtTreeSet.eq_empty_iff_forall_not_mem.2 fun k hk => ?_)
    simpa using Graph.nonempty_of_not_ready hr ((h.ready k).1 hk)
  | some k =>
    refine Std.ExtTreeSet.min?_eq_some_iff_mem_and_forall.2 ⟨(h.ready k).2 (Graph.deps_of_ready hr), ?_⟩
    exact fun j hj => Graph.least_of_ready hr ((h.ready j).1 hj)

/-! ## One step -/

/-- What a walk is after one dependency less for each node of a list. -/
structure Released (waiting : List Key) (w after : Walk) : Prop where
  deps : after.deps = w.deps
  dependents : after.dependents = w.dependents
  done : after.done = w.done
  counts : ∀ j, after.outstanding[j]? =
    if j ∈ waiting then (w.outstanding[j]?).map (· - 1) else w.outstanding[j]?
  ready : ∀ j, j ∈ after.ready ↔ j ∈ w.ready ∨ j ∈ waiting ∧ w.outstanding[j]? = some 1

/-- Where each of the nodes has a dependency outstanding, no count falls below zero. -/
theorem exists_released (hnodup : waiting.Nodup)
    (h : ∀ j ∈ waiting, ∃ n, w.outstanding[j]? = some (n + 1)) :
    ∃ after, waiting.foldlM release w = some after ∧ Released waiting w after := by
  induction waiting generalizing w with
  | nil => exact ⟨w, rfl, rfl, rfl, rfl, fun j => by simp, fun j => by simp⟩
  | cons i waiting ih =>
    obtain ⟨hi, hnodup⟩ := List.nodup_cons.1 hnodup
    obtain ⟨⟨n, hn⟩, hrest⟩ := List.forall_mem_cons.1 h
    let one : Walk := { w with
      outstanding := w.outstanding.insert i n
      ready := if n = 0 then w.ready.insert i else w.ready }
    have hone : w.release i = some one := by rw [release, hn]
    have hcounts : ∀ j, one.outstanding[j]? = if j = i then some n else w.outstanding[j]? := fun j => by
      rw [Std.ExtTreeMap.getElem?_insert]
      simp [eq_comm (a := i)]
    have hready : ∀ j, j ∈ one.ready ↔ j ∈ w.ready ∨ j = i ∧ n = 0 := fun j => by
      by_cases hzero : n = 0
      · simp [one, hzero, or_comm, eq_comm (a := i)]
      · simp [one, hzero]
    have hnext : ∀ j ∈ waiting, ∃ m, one.outstanding[j]? = some (m + 1) := fun j hj => by
      obtain ⟨m, hm⟩ := hrest j hj
      have hne : j ≠ i := fun heq => hi (heq ▸ hj)
      exact ⟨m, by rw [hcounts, if_neg hne, hm]⟩
    obtain ⟨after, hafter, hreleased⟩ := ih hnodup hnext
    refine ⟨after, by rw [List.foldlM_cons, hone]; exact hafter, hreleased.deps, hreleased.dependents,
      hreleased.done, fun j => ?_, fun j => ?_⟩
    · rw [hreleased.counts, hcounts]
      by_cases hj : j = i
      · subst hj
        simp [hi, hn]
      · simp [hj]
    · rw [hreleased.ready, hcounts, hready]
      by_cases hj : j = i
      · subst hj
        simp [hi, hn]
      · simp [hj]

/-- A node that waits is not the one that is answered, which depends on nothing. -/
theorem Follows.of_waiting (h : w.Follows g) (hk : g[k]? = some ∅) {j : Key} (hj : j ∈ w.waitingFor k) :
    k ≠ j ∧ ∃ deps, g[j]? = some deps ∧ k ∈ deps := by
  obtain ⟨deps, hdeps, hin⟩ := (h.mem_waiting k (Lookup.mem hk) j).1 hj
  refine ⟨?_, deps, hdeps, hin⟩
  rintro rfl
  cases hk.symm.trans hdeps
  exact Std.ExtTreeSet.not_mem_empty hin

theorem Follows.outstanding_drop (h : w.Follows g) (k j : Key) : (w.drop k).outstanding[j]? =
    if k = j then none else (g[j]?).map fun deps => deps.size := by
  simp only [drop, h.counts, Std.ExtTreeMap.getElem?_erase, Std.ExtTreeMap.getElem?_map,
    Std.compare_eq_iff_eq]

theorem Follows.outstanding_of_waiting (h : w.Follows g) (hk : g[k]? = some ∅) {j : Key}
    (hj : j ∈ w.waitingFor k) : ∃ n, (w.drop k).outstanding[j]? = some (n + 1) := by
  obtain ⟨hne, deps, hdeps, hin⟩ := h.of_waiting hk hj
  have hsize : deps.size ≠ 0 := fun hzero => by
    rw [Std.ExtTreeSet.eq_empty_iff_size_eq_zero.2 hzero] at hin
    exact Std.ExtTreeSet.not_mem_empty hin
  obtain ⟨n, hn⟩ := Nat.exists_eq_succ_of_ne_zero hsize
  exact ⟨n, by rw [h.outstanding_drop, if_neg hne, hdeps, Option.map_some, hn]⟩

/-- With one dependency less for each node that waited for it, a walk without a node follows the graph
without that node. -/
theorem Follows.emit (h : w.Follows g) (hk : g[k]? = some ∅) {after : Walk}
    (hreleased : Released (w.waitingFor k) (w.drop k) after) : after.Follows (g.emit k) := by
  have hmem : k ∈ g := Lookup.mem hk
  have hwaiting : ∀ i, k ≠ i → after.waitingFor i = w.waitingFor i := fun i hne => by
    simp only [waitingFor, hreleased.dependents, drop, Std.ExtTreeMap.getElem?_erase,
      Std.compare_eq_iff_eq, hne, if_false]
  refine ⟨hreleased.done.trans h.running, ?_, fun j => ?_, fun i hi => ?_, fun i hi j => ?_, ?_⟩
  · refine Std.ExtTreeMap.ext_getElem? fun j => ?_
    rw [hreleased.counts, h.outstanding_drop, Std.ExtTreeMap.getElem?_map, Graph.getElem?_emit]
    by_cases hj : k = j
    · simp [hj]
    · cases hdeps : g[j]? with
      | none => simp [hj]
      | some deps =>
        have hin : j ∈ w.waitingFor k ↔ k ∈ deps := by simp [h.mem_waiting k hmem, hdeps]
        simp only [hj, if_false, Option.map_some, hin, Std.ExtTreeSet.size_erase,
          Std.ExtTreeSet.contains_iff_mem]
        split <;> rfl
  · rw [hreleased.ready, h.outstanding_drop, Graph.getElem?_emit, drop, Std.ExtTreeSet.mem_erase, h.ready,
      h.mem_waiting k hmem]
    by_cases hj : k = j
    · simp [hj]
    · cases hdeps : g[j]? with
      | none => simp [hj]
      | some deps => simp [hj, Std.ExtTreeSet.erase_eq_empty_iff, and_comm]
  · obtain ⟨hne, hi⟩ := Graph.mem_emit.1 hi
    rw [hwaiting i (Ne.symm hne)]
    exact h.waiting_nodup i hi
  · obtain ⟨hne, hi⟩ := Graph.mem_emit.1 hi
    rw [hwaiting i (Ne.symm hne), h.mem_waiting i hi]
    by_cases hj : k = j
    · subst hj
      simp [hk, Graph.getElem?_emit]
    · simp [Graph.getElem?_emit, hj, Ne.symm hne]
  · intro j left hleft
    rw [Graph.getElem?_emit] at hleft
    split at hleft
    · cases hleft
    · obtain ⟨deps, hdeps, rfl⟩ := Option.map_eq_some_iff.1 hleft
      obtain ⟨all, hall, rfl⟩ := h.left j deps hdeps
      refine ⟨all, by rw [hreleased.deps]; exact hall, Std.ExtTreeSet.ext_mem fun d => ?_⟩
      simp [Graph.mem_emit, eq_comm (a := k)]

/-- A step answers the least node that is ready and follows the graph without it. -/
theorem Follows.next_ready (h : w.Follows g) (hr : g.ready? = some k) :
    ∃ after, w.next = some (some (.ok k), after) ∧ after.Follows (g.emit k) := by
  have hk : g[k]? = some ∅ := Graph.deps_of_ready hr
  obtain ⟨after, hafter, hreleased⟩ := exists_released (h.waiting_nodup k (Graph.ready_mem hr))
    fun j hj => h.outstanding_of_waiting hk hj
  refine ⟨after, ?_, h.emit hk hreleased⟩
  rw [next, h.running, h.min?_ready, hr]
  simp [hafter]

/-- Where nothing is ready, the edge that a walk names is the one that the graph does. -/
theorem Follows.cycleExample_eq (h : w.Follows g) (hr : g.ready? = none) :
    w.cycleExample = g.leftover? := by
  have hlist : w.outstanding.toList = g.toList.map fun e => (e.1, e.2.size) := by
    rw [h.counts, Std.ExtTreeMap.toList_map]
  have hpositive : ∀ (k : Key) (deps : KeySet), g[k]? = some deps → 0 < deps.size := by
    intro k deps hk
    refine Nat.pos_of_ne_zero fun hzero => ?_
    simpa [Std.ExtTreeSet.eq_empty_iff_size_eq_zero.2 hzero] using Graph.nonempty_of_not_ready hr hk
  rw [cycleExample, Graph.leftover?, hlist]
  cases hg : g.toList with
  | nil => rfl
  | cons e rest =>
    obtain ⟨source, deps⟩ := e
    have hsource : g[source]? = some deps :=
      Std.ExtTreeMap.mem_toList_iff_getElem?_eq_some.1 (by rw [hg]; exact List.mem_cons_self)
    obtain ⟨all, hall, rfl⟩ := h.left source deps hsource
    -- a dependency has a count above zero just where it is left
    have hwaits : ∀ d : Key, (w.outstanding[d]?.any fun n => decide (0 < n)) = decide (d ∈ g) := by
      intro d
      rw [h.counts, Std.ExtTreeMap.getElem?_map]
      cases hd : g[d]? with
      | none => simpa using hd
      | some ds => simp [hpositive d ds hd, Lookup.mem hd]
    simp only [List.map_cons, List.find?_cons, hpositive source _ hsource, decide_true,
      Std.ExtTreeSet.toList_filter, List.head?_filter, hwaits, Option.bind_eq_bind, Option.bind_some, hall]
    cases all.toList.find? fun d => decide (d ∈ g) <;> rfl

theorem Follows.next_stuck (h : w.Follows g) (hr : g.ready? = none) :
    w.next = some (g.leftover?.map fun (source, target) => .error (.cycle source target),
      { w with done := true }) := by
  rw [next, h.running, h.min?_ready, hr]
  simp [h.cycleExample_eq hr]

/-! ## A whole walk -/

theorem answers_done (h : w.done = true) (n : Nat) : w.answers n = some (List.replicate n none) := by
  induction n with
  | zero => rfl
  | succ n ih => simp [answers, next, h, ih, List.replicate_succ]

/-- A walk answers what the traversal of its graph emits, then the edge left over if there is one, and
then nothing any more. -/
theorem Follows.answers_eq (h : w.Follows g) (n : Nat) :
    w.answers n = some ((List.range n).map fun i => g.traverse.items[i]?) := by
  induction n generalizing w g with
  | zero => rfl
  | succ n ih =>
    rw [answers, List.range_succ_eq_map, List.map_cons, List.map_map]
    cases hr : g.ready? with
    | none =>
      have hitems : g.traverse.items =
          (g.leftover?.map fun (source, target) => .error (.cycle source target)).toList := by
        rw [Graph.traverse_of_not_ready hr]
        cases g.leftover? <;> rfl
      rw [h.next_stuck hr, hitems]
      cases g.leftover? with
      | none => simp [answers_done, Function.comp_def]
      | some edge => simp [answers_done, Function.comp_def]
    | some k =>
      obtain ⟨after, hnext, hafter⟩ := h.next_ready hr
      have hitems : g.traverse.items = .ok k :: (g.emit k).traverse.items := by
        rw [Graph.traverse_of_ready hr]
        rfl
      simp [hnext, ih hafter, hitems]

/-- Whatever the graph, also where nodes depend on keys that are no nodes, on themselves or on each
other in a circle: no count of a walk falls below zero, and the walk answers each node from which no
cycle can be reached just once, at every step the least of those whose dependencies have all been
answered. Just where nodes are left over it then names one edge between two of them, at the least of
them, and from then on it stays exhausted. -/
theorem answers_acyclic_in_order (g : Graph) :
    (∀ n, (start g).answers n = some ((List.range n).map fun i =>
      (g.order.emitted.map Except.ok ++
        (g.order.cycle.map fun edge => .error (.cycle edge.1 edge.2)).toList)[i]?)) ∧
    g.order.emitted.Nodup ∧
    (∀ k, k ∈ g.order.emitted ↔ k ∈ g ∧ ¬ g.ReachesCycle k) ∧
    (∀ before k after, g.order.emitted = before ++ k :: after →
      g.Ready before k ∧ ∀ j, g.Ready before j → (compare k j).isLE) ∧
    (g.order.cycle = none ↔ ∀ k ∈ g, k ∈ g.order.emitted) ∧
    ∀ source target, g.order.cycle = some (source, target) →
      g.LeftOver g.order.emitted source target := by
  refine ⟨fun n => ?_, Graph.order_nodup, fun k => Graph.mem_order_iff, fun before k after h => ?_,
    Graph.order_cycle_eq_none_iff, fun source target h => Graph.leftOver_of_order h⟩
  · rw [(follows_start g).answers_eq n, Traversal.items, Traversal.error?, Option.map_map]
    rfl
  · exact ⟨Graph.ready_of_order h, fun j hj => Graph.least_of_order h hj⟩

end Walk
end PagePipes
