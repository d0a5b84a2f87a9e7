import Mathlib.Data.String.Basic
import PagePipes.Proofs.Plan.Reading
import PagePipes.Proofs.Plan.Size
import PagePipes.Proofs.References

set_option autoImplicit false

/-!
# The shape of a plan

Steps read from steps before them, level by level; the roots come first, the followers of one step stand
in the order of their digests, and the exchanges are those from which no step reads. All of this holds
whatever chains are inserted, also where exchanges stand within them.
-/
namespace PagePipes

namespace Plan

def isRead (plan : Plan) (i : Nat) : Bool := plan.steps.any (·.input == i)

/-- The shape of a plan that a graph builds. -/
structure Shaped (plan : Plan) : Prop where
  input_lt : ∀ i s, plan.step? i = some s → s.input < i
  inputs_sorted : (plan.steps.map PlanStep.input).Pairwise (· ≤ ·)
  roots_eq : plan.roots =
    (List.range' 1 plan.steps.length).filter fun i => (plan.step? i).any (·.input == 0)
  roots_first : ∃ k, plan.roots = List.range' 1 k
  siblings_sorted : ∀ i j s t, i < j → plan.step? i = some s → plan.step? j = some t →
    s.input = t.input → s.action.digest < t.action.digest
  exchanges_eq : plan.exchanges = (List.range' 1 plan.steps.length).filter fun i =>
    (plan.step? i).any (·.action.is .exchange) && !plan.isRead i

end Plan

namespace PlanGraph

variable {g : PlanGraph} {chains : List (List Action)} {places : List Place} {p q : Place} {i j : Nat}
  {a b : Action} {all : List (Place × Action)}

/-! ## Places and their numbers -/

/-- The places before two places of the same or of successive levels come in the same order. -/
theorem Earlier.dropLast (h : Earlier p q) (hp : p ≠ []) (hq : q ≠ []) :
    p.dropLast = q.dropLast ∨ Earlier p.dropLast q.dropLast := by
  obtain ⟨before, d, rfl⟩ := List.eq_nil_or_concat' p |>.resolve_left hp
  obtain ⟨others, c, rfl⟩ := List.eq_nil_or_concat' q |>.resolve_left hq
  rw [List.dropLast_concat, List.dropLast_concat]
  rcases h with hlen | ⟨hlen, hlt⟩
  · exact .inr (.inl (by simpa using hlen))
  · have hlen : before.length = others.length := by simpa using hlen
    rcases lt_trichotomy before others with h | h | h
    · exact .inr (.inr ⟨hlen, h⟩)
    · exact .inl h
    · exact absurd (append_lt_append_of_length_eq hlen.symm h) (List.lt_asymm hlt)

theorem Earlier.lt_of_concat {c d : String} (h : Earlier (p ++ [d]) (p ++ [c])) : d < c := by
  rcases lt_trichotomy d c with hlt | rfl | hlt
  · exact hlt
  · exact absurd h not_earlier_self
  · exact absurd (h.trans (earlier_concat_of_lt hlt)) not_earlier_self

theorem number_inj (hp : p = [] ∨ p ∈ places) (hq : q = [] ∨ q ∈ places) :
    number places p = number places q ↔ p = q := by
  refine ⟨fun h => ?_, fun h => h ▸ rfl⟩
  by_cases hpage : p = []
  · subst hpage
    exact (number_eq_zero.1 (h.symm.trans (number_eq_zero.2 rfl))).symm
  · by_cases hqage : q = []
    · subst hqage
      exact number_eq_zero.1 (h.trans (number_eq_zero.2 rfl))
    · rw [number, if_neg hpage, number, if_neg hqage, Nat.add_right_cancel_iff] at h
      exact (List.idxOf_inj (hp.resolve_left hpage)).1 h

/-- Numbers are given in the order of the places. -/
theorem number_lt_of_earlier (hsorted : places.Pairwise Earlier) (hp : p = [] ∨ p ∈ places)
    (hq : q ∈ places) (hne : q ≠ []) (h : Earlier p q) : number places p < number places q := by
  obtain ⟨before, after, rfl⟩ := List.append_of_mem hq
  obtain ⟨-, hafter, hbefore⟩ := List.pairwise_append.1 hsorted
  have hfresh : q ∉ before := fun hmem => not_earlier_self (hbefore q hmem q List.mem_cons_self)
  rw [number_of_split hne hfresh rfl]
  rcases hp with rfl | hp
  · rw [number_eq_zero.2 rfl]
    exact Nat.succ_pos _
  · rcases List.mem_append.1 hp with hp | hp
    · by_cases hpage : p = []
      · rw [number_eq_zero.2 hpage]
        exact Nat.succ_pos _
      · rw [number, if_neg hpage, List.idxOf_append_of_mem hp]
        exact Nat.succ_lt_succ (List.idxOf_lt_length_of_mem hp)
    · rcases List.mem_cons.1 hp with rfl | hp
      · exact absurd h not_earlier_self
      · exact absurd (h.trans (List.rel_of_pairwise_cons hafter hp)) not_earlier_self

/-! ## Listings of sorted places -/

/-- Places in order, each with the place before it, under the digests of their actions. -/
structure Ordered (all : List (Place × Action)) : Prop where
  sorted : all.Pairwise fun e f => Earlier e.1 f.1
  ne_page : ∀ e ∈ all, e.1 ≠ []
  closed : ∀ e ∈ all, e.1.dropLast = [] ∨ e.1.dropLast ∈ all.map (·.1)
  digest : ∀ e ∈ all, e.1 = e.1.dropLast ++ [e.2.digest]

theorem ordered_entries : Ordered (ofChains chains).entries where
  sorted := entries_sorted tree_ofChains
  ne_page := ne_page_of_entry
  closed := by
    rintro ⟨p, a⟩ he
    have hp : p ∈ beginnings chains :=
      exists_actionAt_iff.1 ⟨a, (mem_entries tree_ofChains).1 he⟩
    obtain ⟨-, actions, hactions, hbegin⟩ := mem_beginnings.1 hp
    refine or_iff_not_imp_left.2 fun hne => ?_
    rw [← List.mem_toFinset, places_ofChains]
    exact mem_beginnings.2 ⟨hne, actions, hactions, (List.dropLast_prefix p).trans hbegin⟩
  digest := by
    rintro ⟨p, a⟩ he
    obtain ⟨before, d, rfl⟩ := List.eq_nil_or_concat' p |>.resolve_left (ne_page_of_entry _ he)
    obtain ⟨i, hi, ha⟩ := Option.bind_eq_some_iff.1 ((mem_entries tree_ofChains).1 he)
    obtain ⟨b, hb, rfl⟩ := tree_ofChains.digest hi
    cases ha.symm.trans hb
    rw [List.dropLast_concat]

def inputOf (all : List (Place × Action)) (p : Place) : Nat := number (all.map (·.1)) p.dropLast

namespace Ordered

variable (h : Ordered all)

include h in
theorem nodup : (all.map (·.1)).Nodup := by
  refine List.pairwise_map.2 (h.sorted.imp fun hlt heq => ?_)
  rw [heq] at hlt
  exact not_earlier_self hlt

include h in
theorem places_sorted : (all.map (·.1)).Pairwise Earlier := List.pairwise_map.2 h.sorted

include h in
theorem earlier (hij : i < j) (hi : all[i]? = some (p, a)) (hj : all[j]? = some (q, b)) :
    Earlier p q := by
  obtain ⟨hilt, hi⟩ := List.getElem?_eq_some_iff.1 hi
  obtain ⟨hjlt, hj⟩ := List.getElem?_eq_some_iff.1 hj
  simpa [hi, hj] using List.pairwise_iff_getElem.1 h.sorted i j hilt hjlt hij

include h in
theorem inputOf_lt (hi : all[i]? = some (p, a)) : inputOf all p < i + 1 := by
  have hmem : (p, a) ∈ all := List.mem_of_getElem? hi
  have hne := h.ne_page _ hmem
  rw [inputOf, ← number_getElem h.nodup hne hi]
  refine number_lt_of_earlier h.places_sorted (h.closed _ hmem) (List.mem_map_of_mem hmem) hne ?_
  refine earlier_of_length_lt ?_
  rw [List.length_dropLast]
  exact Nat.sub_lt (List.length_pos_of_ne_nil hne) Nat.one_pos

include h in
theorem inputOf_le (hij : i < j) (hi : all[i]? = some (p, a)) (hj : all[j]? = some (q, b)) :
    inputOf all p ≤ inputOf all q := by
  have hp : (p, a) ∈ all := List.mem_of_getElem? hi
  have hq : (q, b) ∈ all := List.mem_of_getElem? hj
  rcases (h.earlier hij hi hj).dropLast (h.ne_page _ hp) (h.ne_page _ hq) with heq | hlt
  · rw [inputOf, inputOf, heq]
  · by_cases hpage : q.dropLast = []
    · -- nothing comes before the page
      rw [hpage] at hlt
      rcases hlt with hlen | ⟨hlen, hlt⟩
      · simp at hlen
      · exact absurd hlt (List.not_lt_nil _)
    · refine Nat.le_of_lt (number_lt_of_earlier h.places_sorted (h.closed _ hp) ?_ hpage hlt)
      exact (h.closed _ hq).resolve_left hpage

include h in
theorem digest_lt (hij : i < j) (hi : all[i]? = some (p, a)) (hj : all[j]? = some (q, b))
    (hsame : inputOf all p = inputOf all q) : a.digest < b.digest := by
  have hp : (p, a) ∈ all := List.mem_of_getElem? hi
  have hq : (q, b) ∈ all := List.mem_of_getElem? hj
  have hbefore : p.dropLast = q.dropLast := (number_inj (h.closed _ hp) (h.closed _ hq)).1 hsame
  have hpa : p = q.dropLast ++ [a.digest] := hbefore ▸ h.digest _ hp
  have hqb : q = q.dropLast ++ [b.digest] := h.digest _ hq
  have hearlier : Earlier (q.dropLast ++ [a.digest]) (q.dropLast ++ [b.digest]) :=
    hpa ▸ hqb ▸ h.earlier hij hi hj
  exact hearlier.lt_of_concat

end Ordered

/-! ## The plan of a listing -/

theorem step?_eq_some {s : PlanStep} :
    (listing all all).step? i = some s ↔
      ∃ k p a, i = k + 1 ∧ all[k]? = some (p, a) ∧ s = ⟨inputOf all p, a⟩ := by
  cases i with
  | zero => simp [Plan.step?]
  | succ k =>
    rw [step?_listing_succ, Option.map_eq_some_iff]
    constructor
    · rintro ⟨⟨p, a⟩, hk, rfl⟩
      exact ⟨k, p, a, rfl, hk, rfl⟩
    · rintro ⟨_, p, a, hk, hget, rfl⟩
      cases hk
      exact ⟨(p, a), hget, rfl⟩

/-- Numbers of some entries as a filter of all numbers. -/
theorem map_filter_zipIdx {α : Type} {xs : List α} {P : α × Nat → Bool} {Q : Nat → Bool}
    (h : ∀ x k, xs[k]? = some x → P (x, k + 1) = Q (k + 1)) :
    ((xs.zipIdx 1).filter P).map (·.2) = (List.range' 1 xs.length).filter Q := by
  rw [← List.zipIdx_map_snd, List.filter_map]
  refine congrArg _ (List.filter_congr ?_)
  rintro ⟨x, n⟩ hx
  obtain ⟨hn, hget⟩ := List.mem_zipIdx_iff_le_and_getElem?_sub.1 hx
  have hP := h x (n - 1) hget
  rwa [Nat.sub_add_cancel hn] at hP

theorem filter_range' {P : Nat → Bool} {s n : Nat}
    (h : ∀ i j, s ≤ i → i ≤ j → j < s + n → P j = true → P i = true) :
    ∃ k, (List.range' s n).filter P = List.range' s k := by
  induction n generalizing s with
  | zero => exact ⟨0, rfl⟩
  | succ n ih =>
    rw [List.range'_succ, List.filter_cons]
    cases hs : P s with
    | true =>
      obtain ⟨k, hk⟩ := ih fun i j hi hij hj => h i j (Nat.le_of_succ_le hi) hij (by omega)
      exact ⟨k + 1, by rw [if_pos rfl, hk, List.range'_succ]⟩
    | false =>
      refine ⟨0, ?_⟩
      rw [if_neg (by simp), List.range'_zero, List.filter_eq_nil_iff]
      intro j hj hP
      obtain ⟨hsj, hjn⟩ := List.mem_range'_1.1 hj
      simp [h s j (Nat.le_refl s) (Nat.le_of_succ_le hsj) (by omega) hP] at hs

theorem length_listing : (listing all all).steps.length = all.length := List.length_map _

theorem Ordered.roots_listing (h : Ordered all) : (listing all all).roots =
    (List.range' 1 (listing all all).steps.length).filter fun i =>
      ((listing all all).step? i).any (·.input == 0) := by
  rw [length_listing]
  refine map_filter_zipIdx ?_
  rintro ⟨p, a⟩ k hk
  have hne := h.ne_page _ (List.mem_of_getElem? hk)
  have hpos : 0 < p.length := List.length_pos_of_ne_nil hne
  have hroot : number (all.map (·.1)) p.dropLast = 0 ↔ p.length = 1 := by
    rw [number_eq_zero, ← List.length_eq_zero_iff, List.length_dropLast]
    omega
  rw [step?_listing_succ, hk, Bool.eq_iff_iff]
  simp [hroot]

/-- Before a root there are roots alone, as inputs do not go down. -/
theorem Ordered.roots_first (h : Ordered all) : ∃ k, (listing all all).roots = List.range' 1 k := by
  rw [h.roots_listing, length_listing]
  refine filter_range' fun i j hi hij hj hroot => ?_
  obtain ⟨t, ht, hzero⟩ := (Option.any_eq_true _ _).1 hroot
  obtain ⟨n, q, b, rfl, hn, rfl⟩ := step?_eq_some.1 ht
  obtain ⟨k, rfl⟩ : ∃ k, i = k + 1 := ⟨i - 1, (Nat.sub_add_cancel hi).symm⟩
  have hlt : k < all.length := by omega
  obtain ⟨⟨p, a⟩, hk⟩ : ∃ e, all[k]? = some e := ⟨_, List.getElem?_eq_getElem hlt⟩
  have hle : inputOf all p ≤ inputOf all q := by
    rcases Nat.lt_or_eq_of_le (Nat.le_of_succ_le_succ hij) with hkn | rfl
    · exact h.inputOf_le hkn hk hn
    · cases hk.symm.trans hn
      exact Nat.le_refl _
  have hq : inputOf all q = 0 := by simpa using hzero
  rw [step?_eq_some.2 ⟨k, p, a, rfl, hk, rfl⟩]
  simpa [hq] using hle

theorem Ordered.isRead_eq (h : Ordered all) {k : Nat} (hk : all[k]? = some (p, a)) :
    (listing all all).isRead (k + 1) = isInner all p := by
  have hmem : (p, a) ∈ all := List.mem_of_getElem? hk
  rw [Plan.isRead, listing, List.any_map, isInner]
  rw [← number_getElem h.nodup (h.ne_page _ hmem) hk, Bool.eq_iff_iff, List.any_eq_true, List.any_eq_true]
  refine exists_congr fun e => and_congr_right fun he => ?_
  simp only [Function.comp_apply, beq_iff_eq]
  exact number_inj (h.closed e he) (.inr (List.mem_map_of_mem hmem))

theorem Ordered.shaped (h : Ordered all) : (listing all all).Shaped where
  input_lt i s hs := by
    obtain ⟨k, p, a, rfl, hk, rfl⟩ := step?_eq_some.1 hs
    exact h.inputOf_lt hk
  inputs_sorted := by
    rw [listing, List.map_map, List.pairwise_map, List.pairwise_iff_getElem]
    intro i j hi hj hij
    exact h.inputOf_le hij (List.getElem?_eq_getElem hi) (List.getElem?_eq_getElem hj)
  roots_eq := h.roots_listing
  roots_first := h.roots_first
  siblings_sorted i j s t hij hs ht hsame := by
    obtain ⟨k, p, a, rfl, hk, rfl⟩ := step?_eq_some.1 hs
    obtain ⟨n, q, b, rfl, hn, rfl⟩ := step?_eq_some.1 ht
    exact h.digest_lt (Nat.lt_of_succ_lt_succ hij) hk hn hsame
  exchanges_eq := by
    rw [length_listing]
    refine map_filter_zipIdx ?_
    rintro ⟨p, a⟩ k hk
    rw [step?_listing_succ, hk, h.isRead_eq hk]
    rfl

end PlanGraph

namespace Plan

variable {plan : Plan} {i k : Nat} {s : PlanStep} {steps : List PlanStep}

/-! ## What a client relies on -/

theorem validateInputs_eq_ok (h : ∀ (i : Nat) (s : PlanStep), steps[i]? = some s → s.input ≤ k + i) :
    validateInputs k steps = .ok () := by
  induction steps generalizing k with
  | nil => rfl
  | cons s rest ih =>
    have hfirst : s.input ≤ k := h 0 s rfl
    rw [validateInputs, if_neg (Nat.not_lt.2 hfirst)]
    refine ih fun i t ht => ?_
    have hnext := h (i + 1) t ht
    omega

theorem Shaped.root (h : plan.Shaped) (hi : i ∈ plan.roots) : ∃ s, plan.step? i = some s ∧ s.input = 0 := by
  rw [h.roots_eq] at hi
  obtain ⟨s, hs, hzero⟩ := (Option.any_eq_true _ _).1 (List.mem_filter.1 hi).2
  exact ⟨s, hs, by simpa using hzero⟩

theorem Shaped.exchange (h : plan.Shaped) (hi : i ∈ plan.exchanges) :
    ∃ s, plan.step? i = some s ∧ s.action.is .exchange = true := by
  rw [h.exchanges_eq] at hi
  obtain ⟨hany, -⟩ := Bool.and_eq_true_iff.1 (List.mem_filter.1 hi).2
  exact (Option.any_eq_true _ _).1 hany

theorem Shaped.validate (h : plan.Shaped) : plan.validate = .ok () := by
  have hinputs : validateInputs 0 plan.steps = .ok () := validateInputs_eq_ok fun i s hs => by
    have hlt := h.input_lt (i + 1) s hs
    omega
  have hroots : plan.roots.forM plan.validateRoot = .ok () := Result.forM_eq_ok fun i hi => by
    obtain ⟨s, hs, hzero⟩ := h.root hi
    simp [validateRoot, hs, hzero]
  have hexchanges : plan.exchanges.forM plan.validateExchange = .ok () := Result.forM_eq_ok fun i hi => by
    obtain ⟨s, hs, hx⟩ := h.exchange hi
    simp [validateExchange, hs, hx]
  rw [Plan.validate, hinputs, Result.ok_bind, hroots, Result.ok_bind, hexchanges]

def exchangeSteps (plan : Plan) : List PlanStep := plan.exchanges.filterMap plan.step?

theorem mapM_target {indices : List Nat} (h : ∀ i ∈ indices, ∃ s, plan.step? i = some s) :
    (indices.filterMap plan.step?).length = indices.length ∧
      indices.mapM plan.target = (indices.filterMap plan.step?).mapM fun s => s.action.reference := by
  induction indices with
  | nil => exact ⟨rfl, rfl⟩
  | cons i rest ih =>
    obtain ⟨⟨s, hs⟩, hrest⟩ := List.forall_mem_cons.1 h
    obtain ⟨hlength, htargets⟩ := ih hrest
    rw [List.filterMap_cons_some hs, List.length_cons, List.length_cons, hlength, List.mapM_cons,
      List.mapM_cons, htargets, target, hs]
    exact ⟨rfl, rfl⟩

theorem Shaped.targets (h : plan.Shaped) :
    plan.exchangeSteps.length = plan.exchanges.length ∧
      plan.targets = plan.exchangeSteps.mapM fun s => s.action.reference :=
  mapM_target fun i hi => by
    obtain ⟨s, hs, -⟩ := h.exchange hi
    exact ⟨s, hs⟩

theorem Shaped.in_range (h : plan.Shaped) (i : Nat) :
    plan.targets ≠ .error (.invalidArgument ("exchange index out of range: " ++ toString i)) := by
  intro herror
  rw [h.targets.2] at herror
  obtain ⟨s, -, hs⟩ := Result.mapM_eq_error herror
  obtain ⟨message, hmessage, c, hc, hhead⟩ := (Action.fault_of_reference hs).message
  cases hmessage
  -- the message of a malformed reference starts otherwise
  rw [head?_append (c := 'e') (by decide)] at hhead
  cases hhead
  simp at hc

end Plan

namespace PlanGraph

/-- Whatever chains are inserted, the plan has the shape that clients rely on, with one step for every
non-empty beginning of a chain that differs in digests. It is valid, and its targets are what the
references of its exchanges give: no exchange is out of range. -/
theorem build_shaped (chains : List (List Action)) :
    (ofChains chains).build.Shaped ∧
    (ofChains chains).build.steps.length = (ofChains chains).size ∧
    (ofChains chains).size = (beginnings chains).card ∧
    (ofChains chains).build.validate = .ok () ∧
    ((ofChains chains).build.exchangeSteps.length = (ofChains chains).build.exchanges.length ∧
      (ofChains chains).build.targets =
        (ofChains chains).build.exchangeSteps.mapM fun s => s.action.reference) ∧
    ∀ i : Nat, (ofChains chains).build.targets ≠
      .error (.invalidArgument ("exchange index out of range: " ++ toString i)) := by
  have hshaped : (ofChains chains).build.Shaped := by
    rw [build_eq_listing tree_ofChains]
    exact ordered_entries.shaped
  refine ⟨hshaped, ?_, size_ofChains, hshaped.validate, hshaped.targets, hshaped.in_range⟩
  rw [build_eq_listing tree_ofChains, ← length_entries_ofChains, listing, List.length_map]

end PlanGraph
end PagePipes
