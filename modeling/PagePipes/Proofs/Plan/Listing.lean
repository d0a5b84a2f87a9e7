import Mathlib.Data.List.Nodup
import PagePipes.Proofs.Plan.BreadthFirst

set_option autoImplicit false

/-!
# Plans as listings

A plan lists the places of its graph. A step reads from the number of the place before its own, the
roots are the places of one digest, and an exchange counts when no other place lies behind it.
-/
namespace PagePipes.PlanGraph

/-- The number of a place among the steps, from one; the page is zero. -/
def number (places : List Place) (p : Place) : Nat := if p = [] then 0 else places.idxOf p + 1

/-- Whether some place lies right behind a place. -/
def isInner (all : List (Place × Action)) (p : Place) : Bool := all.any fun e => e.1.dropLast == p

/-- The part of the plan of all places that lists the first of them. -/
def listing (all first : List (Place × Action)) : Plan where
  steps := first.map fun e => ⟨number (all.map (·.1)) e.1.dropLast, e.2⟩
  roots := ((first.zipIdx 1).filter fun e => e.1.1.length == 1).map (·.2)
  exchanges := ((first.zipIdx 1).filter fun e =>
    e.1.2.is .exchange && !isInner all e.1.1).map (·.2)

variable {g : PlanGraph} {p q : Place} {i : Nat} {a : Action} {queue : List (Place × Nat)}
  {all first : List (Place × Action)} {places : List Place}

theorem number_eq_zero : number places p = 0 ↔ p = [] := by
  unfold number
  split <;> simp_all

theorem number_of_split {before after : List Place} (hp : p ≠ []) (hbefore : p ∉ before)
    (h : places = before ++ p :: after) : number places p = before.length + 1 := by
  rw [number, if_neg hp, h, List.idxOf_append_of_notMem hbefore, List.idxOf_cons_self, Nat.add_zero]

theorem listing_nil : listing all [] = {} := rfl

theorem listing_concat :
    listing all (first ++ [(p, a)]) =
      { steps := (listing all first).steps ++ [⟨number (all.map (·.1)) p.dropLast, a⟩]
        roots :=
          if p.length = 1 then (listing all first).roots ++ [first.length + 1]
          else (listing all first).roots
        exchanges :=
          if a.is .exchange && !isInner all p then (listing all first).exchanges ++ [first.length + 1]
          else (listing all first).exchanges } := by
  simp only [listing, List.zipIdx_append, List.zipIdx_singleton, List.filter_append, List.map_append,
    List.map_cons, List.map_nil, List.filter_singleton, Plan.mk.injEq, Nat.add_comm first.length]
  constructor
  · by_cases hp : p.length = 1
    · simp [hp]
    · simp [beq_false_of_ne hp, hp]
  · cases a.is .exchange && !isInner all p
    · simp
    · simp

/-- A node without followers stands at a place that no other place reads from. -/
theorem isEmpty_followers (ht : Tree g)
    (hmem : ∀ (q : Place) (b : Action), (q, b) ∈ all ↔ g.actionAt q = some b) (hne : p ≠ [])
    (hp : g.follow 0 p = some i) : (g.followers i).isEmpty = !isInner all p := by
  rw [Bool.eq_iff_iff, Bool.not_eq_true', isInner, List.isEmpty_iff, List.any_eq_false]
  constructor
  · rintro hnone ⟨q, b⟩ hq hpq
    have hact := (hmem q b).1 hq
    rcases List.eq_nil_or_concat' q with rfl | ⟨before, d, rfl⟩
    · exact hne (by simpa using hpq.symm)
    · have hbefore : before = p := by simpa using hpq
      rw [hbefore, actionAt, follow_concat, hp, Option.bind_some] at hact
      have hempty : (g.node i).followers = ∅ := Std.ExtTreeMap.toList_eq_nil_iff.1 hnone
      simp [hempty] at hact
  · intro hnone
    refine List.eq_nil_iff_forall_not_mem.2 ?_
    rintro ⟨d, j⟩ hj
    have hnext : g.follow 0 (p ++ [d]) = some j := by
      rw [follow_concat, hp, Option.bind_some]
      exact Std.ExtTreeMap.mem_toList_iff_getElem?_eq_some.1 hj
    obtain ⟨b, hb, -⟩ := ht.digest hnext
    refine hnone (p ++ [d], b) ((hmem _ _).2 ?_) (by simp)
    rw [actionAt, hnext, Option.bind_some, hb]

/-- Taking the nodes of a queue lists the places that are left. -/
theorem visit_listing (ht : Tree g) (h : Queued g queue)
    (hmem : ∀ (q : Place) (b : Action), (q, b) ∈ all ↔ g.actionAt q = some b)
    (hnodup : (all.map (·.1)).Nodup) (hall : all = first ++ g.rows queue) :
    g.visit (listing all first)
        (queue.map fun e => (e.2, number (all.map (·.1)) e.1.dropLast)) = listing all all := by
  induction queue using rows.induct g generalizing first with
  | case1 =>
    rw [rows_nil, List.append_nil] at hall
    rw [List.map_nil, visit, ← hall]
  | case2 p i rest hnone ih =>
    rw [rows_page hnone] at hall
    rw [List.map_cons, visit, hnone]
    exact ih h.tail hall
  | case3 p i rest b hb ih =>
    obtain ⟨hne, hp⟩ := h.stands (p, i) (by simp)
    rw [rows_step hb] at hall
    have hplaces : all.map (·.1) =
        first.map (·.1) ++ p :: (g.rows (rest ++ g.kids p i)).map (·.1) := by
      rw [hall, List.map_append, List.map_cons]
    have hfresh : p ∉ first.map (·.1) := by
      rw [hplaces] at hnodup
      intro hmem
      exact (List.nodup_append.1 hnodup).2.2 p hmem p (by simp) rfl
    have hnumber : number (all.map (·.1)) p = first.length + 1 := by
      rw [number_of_split hne hfresh hplaces, List.length_map]
    -- the first places read from the page, whose number is zero
    have hroot : number (all.map (·.1)) p.dropLast = 0 ↔ p.length = 1 := by
      rw [number_eq_zero, ← List.length_eq_zero_iff, List.length_dropLast]
      have hpos : 0 < p.length := List.length_pos_of_ne_nil hne
      omega
    have hqueue : (rest ++ g.kids p i).map
          (fun e => (e.2, number (all.map (·.1)) e.1.dropLast)) =
        rest.map (fun e => (e.2, number (all.map (·.1)) e.1.dropLast)) ++
          (g.followers i).map fun e => (e.2, first.length + 1) := by
      simp [kids, Function.comp_def, hnumber]
    have hrest : all = first ++ [(p, b)] ++ g.rows (rest ++ g.kids p i) := by
      rw [hall, List.append_assoc, List.singleton_append]
    have hnext := ih h.next hrest
    rw [hqueue, listing_concat] at hnext
    rw [List.map_cons, visit, hb]
    simp only [isEmpty_followers ht hmem hne hp, hroot, Bool.and_comm _ (b.is .exchange)]
    rw [← hnext]
    simp [listing]

theorem entries_nodup (ht : Tree g) : (g.entries.map (·.1)).Nodup := by
  rw [List.Nodup, List.pairwise_map]
  refine (entries_sorted ht).imp fun h heq => ?_
  rw [heq] at h
  exact not_earlier_self h

theorem build_eq_listing (ht : Tree g) : g.build = listing g.entries g.entries := by
  have hall : g.entries = [] ++ g.rows (g.kids [] 0) := rfl
  rw [← visit_listing ht .start (fun _ _ => mem_entries ht) (entries_nodup ht) hall, build,
    listing_nil, kids, List.map_map]
  rfl

end PagePipes.PlanGraph
