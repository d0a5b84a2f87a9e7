import PagePipes.Index
import PagePipes.Proofs.Lookup
import PagePipes.Proofs.Result

set_option autoImplicit false

/-!
# Collected references

Collecting the references of a pipe answers pipes of the index, among them every pipe that the pipe
refers to, and with each pipe all that it refers to.
-/
namespace PagePipes.Index

variable {pipes unmet met m : Key.Map Pipe} {stack : List Key} {k : Key}

/-- Every reference of a pipe of the map is a key of the map. -/
def Closed (pipes : Key.Map Pipe) : Prop :=
  ∀ (k : Key) (p : Pipe), pipes[k]? = some p → ∀ ref ∈ p.references, ref ∈ pipes

theorem collect_nil : collect unmet met [] = .ok met := by rw [collect]

theorem collect_met (hk : k ∈ met) : collect unmet met (k :: stack) = collect unmet met stack := by
  rw [collect, if_pos hk]

theorem collect_unmet (hk : k ∉ met) {p : Pipe} (hp : unmet[k]? = some p) :
    collect unmet met (k :: stack) =
      collect (unmet.erase k) (met.insert k p) (p.references.reverse ++ stack) := by
  rw [collect, if_neg hk]
  split
  · simp_all
  · simp_all

theorem collect_missing (hk : k ∉ met) (hp : unmet[k]? = none) :
    collect unmet met (k :: stack) =
      .error (.notFound ("referenced pipe not found: " ++ k.text)) := by
  rw [collect, if_neg hk]
  split
  · rfl
  · simp_all

/-- The pipes on the way: those not met yet are still to be found, those met are pipes of the map,
and what these refer to is met or waits on the stack. -/
structure Collecting (pipes unmet met : Key.Map Pipe) (stack : List Key) : Prop where
  unmet_eq : ∀ k : Key, k ∉ met → unmet[k]? = pipes[k]?
  met_eq : ∀ (k : Key) (p : Pipe), met[k]? = some p → pipes[k]? = some p
  waiting : ∀ (k : Key) (p : Pipe), met[k]? = some p → ∀ ref ∈ p.references, ref ∈ met ∨ ref ∈ stack

theorem Collecting.start : Collecting pipes pipes ∅ stack where
  unmet_eq _ _ := rfl
  met_eq k p h := by simp at h
  waiting k p h := by simp at h

theorem Collecting.skip (h : Collecting pipes unmet met (k :: stack)) (hk : k ∈ met) :
    Collecting pipes unmet met stack where
  unmet_eq := h.unmet_eq
  met_eq := h.met_eq
  waiting j p hj ref href := by
    rcases h.waiting j p hj ref href with hmet | hstack
    · exact .inl hmet
    · rcases List.mem_cons.1 hstack with rfl | hrest
      · exact .inl hk
      · exact .inr hrest

theorem Collecting.meet (h : Collecting pipes unmet met (k :: stack)) (hk : k ∉ met) {p : Pipe}
    (hp : unmet[k]? = some p) :
    Collecting pipes (unmet.erase k) (met.insert k p) (p.references.reverse ++ stack) where
  unmet_eq j hj := by
    rw [Std.ExtTreeMap.mem_insert] at hj
    have hne : k ≠ j := fun h => hj (.inl (by simp [h]))
    simpa [Std.ExtTreeMap.getElem?_erase, hne] using h.unmet_eq j fun hm => hj (.inr hm)
  met_eq j q hj := by
    rw [Std.ExtTreeMap.getElem?_insert] at hj
    by_cases hkj : k = j
    · simp only [hkj, Std.compare_self, ↓reduceIte, Option.some.injEq] at hj
      rw [← hkj, ← h.unmet_eq k hk, hp, hj]
    · exact h.met_eq j q (by simpa [hkj] using hj)
  waiting j q hj ref href := by
    rw [Std.ExtTreeMap.getElem?_insert] at hj
    by_cases hkj : k = j
    · simp only [hkj, Std.compare_self, ↓reduceIte, Option.some.injEq] at hj
      exact .inr (by simp [hj, href])
    · rcases h.waiting j q (by simpa [hkj] using hj) ref href with hmet | hstack
      · exact .inl (Std.ExtTreeMap.mem_insert.2 (.inr hmet))
      · rcases List.mem_cons.1 hstack with rfl | hrest
        · exact .inl (Std.ExtTreeMap.mem_insert.2 (.inl (by simp)))
        · exact .inr (by simp [hrest])

/-- A collection holds pipes of the map only, all that waited for it, and all that they refer
to. -/
theorem Collecting.collected (h : Collecting pipes unmet met stack)
    (hm : collect unmet met stack = .ok m) :
    (∀ (k : Key) (p : Pipe), m[k]? = some p → pipes[k]? = some p) ∧ (∀ k, k ∈ met ∨ k ∈ stack → k ∈ m) ∧
      Closed m := by
  induction unmet, met, stack using collect.induct with
  | case1 unmet met =>
    cases collect_nil.symm.trans hm
    refine ⟨h.met_eq, by simp, fun k p hk ref href => ?_⟩
    simpa using h.waiting k p hk ref href
  | case2 unmet met k stack hk ih =>
    rw [collect_met hk] at hm
    obtain ⟨hpipes, hall, hclosed⟩ := ih (h.skip hk) hm
    refine ⟨hpipes, fun j hj => ?_, hclosed⟩
    rcases hj with hj | hj
    · exact hall j (.inl hj)
    · rcases List.mem_cons.1 hj with rfl | hj
      · exact hall j (.inl hk)
      · exact hall j (.inr hj)
  | case3 unmet met k stack hk hp =>
    rw [collect_missing hk hp] at hm
    cases hm
  | case4 unmet met k stack hk p hp ih =>
    rw [collect_unmet hk hp] at hm
    obtain ⟨hpipes, hall, hclosed⟩ := ih (h.meet hk hp) hm
    refine ⟨hpipes, fun j hj => ?_, hclosed⟩
    rcases hj with hj | hj
    · exact hall j (.inl (Std.ExtTreeMap.mem_insert.2 (.inr hj)))
    · rcases List.mem_cons.1 hj with rfl | hj
      · exact hall j (.inl (Std.ExtTreeMap.mem_insert.2 (.inl (by simp))))
      · exact hall j (.inr (by simp [hj]))

theorem Collecting.succeeds (hclosed : Closed pipes) (h : Collecting pipes unmet met stack)
    (hstack : ∀ k ∈ stack, k ∈ pipes) : ∃ m, collect unmet met stack = .ok m := by
  induction unmet, met, stack using collect.induct with
  | case1 unmet met => exact ⟨met, collect_nil⟩
  | case2 unmet met k stack hk ih =>
    rw [collect_met hk]
    exact ih (h.skip hk) fun j hj => hstack j (List.mem_cons_of_mem _ hj)
  | case3 unmet met k stack hk hp =>
    obtain ⟨p, hpipe⟩ := Lookup.exists_of_mem (hstack k (by simp))
    simp [← h.unmet_eq k hk, hp] at hpipe
  | case4 unmet met k stack hk p hp ih =>
    rw [collect_unmet hk hp]
    refine ih (h.meet hk hp) fun j hj => ?_
    rcases List.mem_append.1 hj with hj | hj
    · have hpipe : pipes[k]? = some p := by rw [← h.unmet_eq k hk, hp]
      exact hclosed k p hpipe j (List.mem_reverse.1 hj)
    · exact hstack j (List.mem_cons_of_mem _ hj)

theorem referencedPipes_eq_ok {ix : Index} {p : Pipe} (hp : ix.pipes[k]? = some p)
    (hm : ix.referencedPipes k = .ok m) :
    (∀ (j : Key) (q : Pipe), m[j]? = some q → ix.pipes[j]? = some q) ∧ (∀ ref ∈ p.references, ref ∈ m) ∧
      Closed m := by
  simp only [referencedPipes, hp] at hm
  obtain ⟨hpipes, hall, hclosed⟩ := Collecting.start.collected hm
  exact ⟨hpipes, fun ref href => hall ref (.inr (List.mem_reverse.2 href)), hclosed⟩

theorem referencedPipes_succeeds {ix : Index} (hclosed : Closed ix.pipes) {p : Pipe}
    (hp : ix.pipes[k]? = some p) : ∃ m, ix.referencedPipes k = .ok m := by
  simp only [referencedPipes, hp]
  exact Collecting.start.succeeds hclosed fun j hj =>
    hclosed k p hp j (List.mem_reverse.1 hj)

end PagePipes.Index
