import Mathlib.Data.List.Lex
import PagePipes.Proofs.Plan.Places

set_option autoImplicit false

/-!
# Breadth first order

Taking nodes from a queue meets the places of a graph level by level, and the places of one level
digest by digest. What a plan says therefore depends on the places and their actions alone.
-/
namespace PagePipes.PlanGraph

/-- Level by level, and digest by digest in a level. -/
def Earlier (p q : Place) : Prop := p.length < q.length ∨ p.length = q.length ∧ p < q

def kids (g : PlanGraph) (p : Place) (i : Nat) : List (Place × Nat) :=
  (g.followers i).map fun e => (p ++ [e.1], e.2)

/-- The places that are met from a queue of nodes at their places, with their actions. -/
def rows (g : PlanGraph) : List (Place × Nat) → List (Place × Action)
  | [] => []
  | (p, i) :: rest =>
    match (g.node i).action with
    | none => g.rows rest
    | some a => (p, a) :: g.rows (rest ++ g.kids p i)
termination_by queue => g.load (queue.map fun e => (e.2, 0))
decreasing_by
  · exact load_rest_lt
  · simpa [kids, Function.comp_def] using load_next_lt

/-- The places of the graph in the order of the steps of its plan, with their actions. -/
def entries (g : PlanGraph) : List (Place × Action) := g.rows (g.kids [] 0)

/-- What a queue holds: nodes at their places, none later than what still follows from it. -/
structure Queued (g : PlanGraph) (queue : List (Place × Nat)) : Prop where
  stands : ∀ e ∈ queue, e.1 ≠ [] ∧ g.follow 0 e.1 = some e.2
  sorted : queue.Pairwise fun e f => Earlier e.1 f.1
  ahead : ∀ e ∈ queue, ∀ f ∈ queue, ∀ d : String, Earlier f.1 (e.1 ++ [d])

variable {g : PlanGraph} {p q r : Place} {i : Nat} {d c : String} {a : Action}
  {rest queue : List (Place × Nat)}

theorem not_earlier_self : ¬ Earlier p p := by
  rintro (h | ⟨-, h⟩)
  · exact Nat.lt_irrefl _ h
  · exact List.lt_irrefl p h

theorem Earlier.trans (h : Earlier p q) (h' : Earlier q r) : Earlier p r := by
  rcases h with h | ⟨hlen, h⟩
  · rcases h' with h' | ⟨hlen', -⟩
    · exact .inl (h.trans h')
    · exact .inl (hlen' ▸ h)
  · rcases h' with h' | ⟨hlen', h'⟩
    · exact .inl (hlen ▸ h')
    · exact .inr ⟨hlen.trans hlen', List.lt_trans h h'⟩

theorem earlier_of_length_lt (h : p.length < q.length) : Earlier p q := .inl h

theorem append_lt_append_of_length_eq (hlen : p.length = q.length) (h : p < q) :
    p ++ [d] < q ++ [c] := by
  induction p generalizing q with
  | nil =>
    cases List.length_eq_zero_iff.1 hlen.symm
    exact absurd h (List.lt_irrefl [])
  | cons x p ih =>
    cases q with
    | nil => simp at hlen
    | cons y q =>
      rw [List.cons_append, List.cons_append, List.cons_lt_cons_iff]
      rcases List.cons_lt_cons_iff.1 h with hxy | ⟨hxy, hpq⟩
      · exact .inl hxy
      · exact .inr ⟨hxy, ih (Nat.succ.inj hlen) hpq⟩

theorem Earlier.concat (h : Earlier p q) : Earlier (p ++ [d]) (q ++ [c]) := by
  simp only [Earlier, List.length_append, List.length_singleton]
  rcases h with h | ⟨hlen, h⟩
  · exact .inl (Nat.succ_lt_succ h)
  · exact .inr ⟨congrArg Nat.succ hlen, append_lt_append_of_length_eq hlen h⟩

theorem earlier_concat_of_lt (h : d < c) : Earlier (p ++ [d]) (p ++ [c]) := by
  refine .inr ⟨by simp, List.append_left_lt ?_⟩
  exact List.cons_lt_cons_iff.2 (.inl h)

theorem mem_kids {e : Place × Nat} :
    e ∈ g.kids p i ↔ ∃ d, e.1 = p ++ [d] ∧ (g.node i).followers[d]? = some e.2 := by
  obtain ⟨q, j⟩ := e
  simp only [kids, followers, List.mem_map, Prod.exists, Prod.mk.injEq,
    Std.ExtTreeMap.mem_toList_iff_getElem?_eq_some]
  constructor
  · rintro ⟨d, k, hk, rfl, rfl⟩
    exact ⟨d, rfl, hk⟩
  · rintro ⟨d, rfl, hj⟩
    exact ⟨d, j, hj, rfl, rfl⟩

theorem kids_sorted : (g.kids p i).Pairwise fun e f => Earlier e.1 f.1 := by
  rw [kids, List.pairwise_map]
  refine Std.ExtTreeMap.ordered_keys_toList.imp fun h => ?_
  exact earlier_concat_of_lt (compareOfLessAndEq_eq_lt.1 h)

theorem Queued.start : Queued g (g.kids [] 0) where
  stands e he := by
    obtain ⟨d, hd, hj⟩ := mem_kids.1 he
    rw [hd, follow_concat, follow_page, Option.bind_some, hj]
    simp
  sorted := kids_sorted
  ahead e he f hf d := by
    obtain ⟨x, hx, -⟩ := mem_kids.1 he
    obtain ⟨y, hy, -⟩ := mem_kids.1 hf
    exact earlier_of_length_lt (by simp [hx, hy])

theorem Queued.tail (h : Queued g ((p, i) :: rest)) : Queued g rest where
  stands e he := h.stands e (List.mem_cons_of_mem _ he)
  sorted := h.sorted.of_cons
  ahead e he f hf := h.ahead e (List.mem_cons_of_mem _ he) f (List.mem_cons_of_mem _ hf)

theorem Queued.next (h : Queued g ((p, i) :: rest)) : Queued g (rest ++ g.kids p i) where
  stands e he := by
    rcases List.mem_append.1 he with he | he
    · exact h.stands e (List.mem_cons_of_mem _ he)
    · obtain ⟨d, hd, hj⟩ := mem_kids.1 he
      rw [hd, follow_concat, (h.stands (p, i) (by simp)).2, Option.bind_some, hj]
      simp
  sorted := by
    refine List.pairwise_append.2 ⟨h.sorted.of_cons, kids_sorted, fun e he f hf => ?_⟩
    obtain ⟨d, hd, -⟩ := mem_kids.1 hf
    rw [hd]
    exact h.ahead (p, i) (by simp) e (List.mem_cons_of_mem _ he) d
  ahead e he f hf c := by
    have hrest : ∀ f ∈ rest, Earlier p f.1 := fun f hf => List.rel_of_pairwise_cons h.sorted hf
    rcases List.mem_append.1 hf with hf | hf
    · rcases List.mem_append.1 he with he | he
      · exact h.ahead e (List.mem_cons_of_mem _ he) f (List.mem_cons_of_mem _ hf) c
      · obtain ⟨d, hd, -⟩ := mem_kids.1 he
        have hkid := h.ahead (p, i) (by simp) f (List.mem_cons_of_mem _ hf) d
        rw [hd]
        exact hkid.trans (earlier_of_length_lt (by simp))
    · obtain ⟨d, hd, -⟩ := mem_kids.1 hf
      rw [hd]
      rcases List.mem_append.1 he with he | he
      · exact (hrest e he).concat
      · obtain ⟨b, hb, -⟩ := mem_kids.1 he
        exact earlier_of_length_lt (by simp [hb])

theorem rows_nil : g.rows [] = [] := by rw [rows]

theorem rows_page (h : (g.node i).action = none) : g.rows ((p, i) :: rest) = g.rows rest := by
  rw [rows, h]

theorem rows_step (h : (g.node i).action = some a) :
    g.rows ((p, i) :: rest) = (p, a) :: g.rows (rest ++ g.kids p i) := by
  rw [rows, h]

theorem mem_rows (ht : Tree g) (h : Queued g queue) :
    (q, a) ∈ g.rows queue ↔
      ∃ e ∈ queue, ∃ r j, q = e.1 ++ r ∧ g.follow e.2 r = some j ∧ (g.node j).action = some a := by
  induction queue using rows.induct g with
  | case1 => simp [rows_nil]
  | case2 p i rest hnone ih =>
    -- only the page has no action, and it is not in the queue
    obtain ⟨hne, hp⟩ := h.stands (p, i) (by simp)
    obtain ⟨before, d, rfl⟩ := List.eq_nil_or_concat' p |>.resolve_left hne
    obtain ⟨b, hb, -⟩ := ht.digest hp
    simp [hnone] at hb
  | case3 p i rest b hb ih =>
    rw [rows_step hb, List.mem_cons, ih h.next]
    constructor
    · rintro (heq | ⟨e, he, r, j, rfl, hj, ha⟩)
      · cases heq
        exact ⟨_, List.mem_cons_self, [], i, by simp, rfl, hb⟩
      · rcases List.mem_append.1 he with he | he
        · exact ⟨e, List.mem_cons_of_mem _ he, r, j, rfl, hj, ha⟩
        · obtain ⟨d, hd, hnext⟩ := mem_kids.1 he
          refine ⟨(p, i), by simp, d :: r, j, by simp [hd], ?_, ha⟩
          rw [follow, hnext, Option.bind_some, hj]
    · rintro ⟨e, he, r, j, rfl, hj, ha⟩
      rcases List.mem_cons.1 he with rfl | he
      · cases r with
        | nil =>
          cases hj
          cases hb.symm.trans ha
          exact .inl (by simp)
        | cons d r =>
          obtain ⟨k, hk, hj⟩ := Option.bind_eq_some_iff.1 hj
          refine .inr ⟨(p ++ [d], k), ?_, r, j, by simp, hj, ha⟩
          exact List.mem_append_right _ (mem_kids.2 ⟨d, rfl, hk⟩)
      · exact .inr ⟨e, List.mem_append_left _ he, r, j, rfl, hj, ha⟩

theorem rows_sorted (ht : Tree g) (h : Queued g queue) :
    (g.rows queue).Pairwise fun e f => Earlier e.1 f.1 := by
  induction queue using rows.induct g with
  | case1 => simp [rows_nil]
  | case2 p i rest hnone ih =>
    rw [rows_page hnone]
    exact ih h.tail
  | case3 p i rest b hb ih =>
    rw [rows_step hb]
    refine List.pairwise_cons.2 ⟨?_, ih h.next⟩
    rintro ⟨q, a⟩ hq
    obtain ⟨e, he, r, j, rfl, -, -⟩ := (mem_rows ht h.next).1 hq
    have hfirst : Earlier p e.1 := by
      rcases List.mem_append.1 he with he | he
      · exact List.rel_of_pairwise_cons h.sorted he
      · obtain ⟨d, hd, -⟩ := mem_kids.1 he
        exact earlier_of_length_lt (by simp [hd])
    cases r with
    | nil => simpa using hfirst
    | cons d r => exact hfirst.trans (earlier_of_length_lt (by simp))

theorem mem_entries (ht : Tree g) : (q, a) ∈ g.entries ↔ g.actionAt q = some a := by
  rw [entries, mem_rows ht .start, actionAt, Option.bind_eq_some_iff]
  constructor
  · rintro ⟨e, he, r, j, rfl, hj, ha⟩
    obtain ⟨d, hd, hnext⟩ := mem_kids.1 he
    refine ⟨j, ?_, ha⟩
    rw [hd, List.nil_append, List.cons_append, List.nil_append, follow, hnext, Option.bind_some, hj]
  · rintro ⟨j, hj, ha⟩
    cases q with
    | nil =>
      cases hj
      simp [ht.page] at ha
    | cons d r =>
      obtain ⟨k, hk, hj⟩ := Option.bind_eq_some_iff.1 hj
      exact ⟨([d], k), mem_kids.2 ⟨d, rfl, hk⟩, r, j, rfl, hj, ha⟩

theorem entries_sorted (ht : Tree g) : g.entries.Pairwise fun e f => Earlier e.1 f.1 :=
  rows_sorted ht .start

end PagePipes.PlanGraph
