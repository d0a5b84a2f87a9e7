import Mathlib.Data.Set.Function
import Mathlib.Logic.Relation
import PagePipes.Proofs.Plan.Listing

set_option autoImplicit false

/-!
# Reading a plan

Following the inputs of a step back to the page gives the actions on the way to it. In the plan of
chains that end with their only exchange, the steps of the exchanges read as the chains, every chain
is read once, and every step lies on the way to an exchange.
-/
namespace PagePipes

namespace Plan

/-- The inputs lead from a step back to the page by way of these actions. -/
inductive Reads (plan : Plan) : Nat → List Action → Prop
  | page : Reads plan 0 []
  | step {i : Nat} {s : PlanStep} {actions : List Action} (hs : plan.step? i = some s)
      (h : Reads plan s.input actions) : Reads plan i (actions ++ [s.action])

def Feeds (plan : Plan) (i j : Nat) : Prop := ∃ s, plan.step? j = some s ∧ s.input = i

/-- A step that lies on the way to another, or is that step. -/
def Leads (plan : Plan) : Nat → Nat → Prop := Relation.ReflTransGen plan.Feeds

theorem Reads.unique {plan : Plan} {i : Nat} {actions others : List Action}
    (h : plan.Reads i actions) (h' : plan.Reads i others) : actions = others := by
  induction h generalizing others with
  | page =>
    cases h' with
    | page => rfl
    | step hs => simp [step?] at hs
  | step hs _ ih =>
    cases h' with
    | page => simp [step?] at hs
    | step hs' hreads =>
      cases hs.symm.trans hs'
      rw [ih hreads]

end Plan

namespace PlanGraph

/-- A chain that ends with an exchange and has no other. -/
def Closes (actions : List Action) : Prop :=
  ∃ body x, actions = body ++ [x] ∧ x.is .exchange = true ∧ ∀ a ∈ body, a.is .exchange = false

variable {all : List (Place × Action)} {chains : List (List Action)} {actions before : List Action}
  {p q : Place} {a : Action} {i : Nat}

section listing

variable (hnodup : (all.map (·.1)).Nodup)

theorem step?_listing_succ : (listing all all).step? (i + 1) =
    (all[i]?).map fun e => ⟨number (all.map (·.1)) e.1.dropLast, e.2⟩ := by
  rw [Plan.step?, listing, List.getElem?_map]

include hnodup in
theorem number_getElem (hp : p ≠ []) (h : all[i]? = some (p, a)) :
    number (all.map (·.1)) p = i + 1 := by
  obtain ⟨hlt, hget⟩ := List.getElem?_eq_some_iff.1 h
  have hlt' : i < (all.map (·.1)).length := by rwa [List.length_map]
  have hat : (all.map (·.1))[i] = p := by rw [List.getElem_map, hget]
  rw [number, if_neg hp, ← hat, hnodup.idxOf_getElem i hlt']

include hnodup in
theorem step?_number (hp : p ≠ []) (h : (p, a) ∈ all) :
    (listing all all).step? (number (all.map (·.1)) p) =
      some ⟨number (all.map (·.1)) p.dropLast, a⟩ := by
  obtain ⟨i, hi⟩ := List.getElem?_of_mem h
  rw [number_getElem hnodup hp hi, step?_listing_succ, hi]
  rfl

include hnodup in
theorem exists_number (hne : ∀ e ∈ all, e.1 ≠ []) {s : PlanStep}
    (h : (listing all all).step? i = some s) :
    ∃ p a, (p, a) ∈ all ∧ number (all.map (·.1)) p = i := by
  cases i with
  | zero => simp [Plan.step?] at h
  | succ i =>
    rw [step?_listing_succ] at h
    obtain ⟨⟨p, a⟩, hi, -⟩ := Option.map_eq_some_iff.1 h
    have hmem : (p, a) ∈ all := List.mem_of_getElem? hi
    exact ⟨p, a, hmem, number_getElem hnodup (hne _ hmem) hi⟩

include hnodup in
theorem mem_exchanges_listing (hne : ∀ e ∈ all, e.1 ≠ []) :
    i ∈ (listing all all).exchanges ↔
      ∃ p a, (p, a) ∈ all ∧ number (all.map (·.1)) p = i ∧ a.is .exchange = true ∧
        isInner all p = false := by
  simp only [listing, List.mem_map, List.mem_filter, Bool.and_eq_true, Bool.not_eq_true']
  constructor
  · rintro ⟨⟨⟨p, a⟩, j⟩, ⟨hmem, hx, hinner⟩, rfl⟩
    obtain ⟨hj, hget⟩ := List.mem_zipIdx_iff_le_and_getElem?_sub.1 hmem
    have hin : (p, a) ∈ all := List.mem_of_getElem? hget
    refine ⟨p, a, hin, ?_, hx, hinner⟩
    rw [number_getElem hnodup (hne _ hin) hget]
    exact Nat.sub_add_cancel hj
  · rintro ⟨p, a, hmem, rfl, hx, hinner⟩
    obtain ⟨j, hj⟩ := List.getElem?_of_mem hmem
    refine ⟨((p, a), j + 1), ⟨?_, hx, hinner⟩, (number_getElem hnodup (hne _ hmem) hj).symm⟩
    exact List.mem_zipIdx_iff_le_and_getElem?_sub.2 ⟨by simp, by simpa using hj⟩

theorem exchanges_nodup : (listing all all).exchanges.Nodup := by
  have hall : ((all.zipIdx 1).map (·.2)).Nodup := by
    rw [List.zipIdx_map_snd]
    exact List.nodup_range'
  exact hall.sublist (List.Sublist.map _ List.filter_sublist)

end listing

def numberAt (g : PlanGraph) (p : Place) : Nat := number (g.entries.map (·.1)) p

theorem numberAt_page {g : PlanGraph} : g.numberAt [] = 0 := number_eq_zero.2 rfl

section chains

variable (hfree : CollisionFree chains.flatten)

include hfree in
theorem eq_of_beginning {xs ys as bs : List Action} (hx : xs ∈ chains) (hy : ys ∈ chains)
    (has : as <+: xs) (hbs : bs <+: ys) (h : placeOf as = placeOf bs) : as = bs :=
  eq_of_placeOf (fun a ha b hb =>
    hfree a (List.mem_flatten.2 ⟨xs, hx, has.subset ha⟩) b
      (List.mem_flatten.2 ⟨ys, hy, hbs.subset hb⟩)) h

include hfree in
theorem mem_entries_ofChains :
    (p, a) ∈ (ofChains chains).entries ↔
      ∃ actions ∈ chains, ∃ before, before ++ [a] <+: actions ∧ p = placeOf (before ++ [a]) := by
  simp only [mem_entries tree_ofChains, actionAt_ofChains hfree, along_iff_beginning, List.nil_append]

theorem ne_page_of_entry : ∀ e ∈ (ofChains chains).entries, e.1 ≠ [] := by
  rintro ⟨p, a⟩ he rfl
  obtain ⟨actions, -, halong⟩ := along_of_actionAt ((mem_entries tree_ofChains).1 he)
  exact absurd halong.length_lt (by simp)

/-- The step of an exchange has the action of some chain. -/
theorem step_of_exchange (hi : i ∈ (ofChains chains).build.exchanges) :
    ∃ s, (ofChains chains).build.step? i = some s ∧ s.action.is .exchange = true ∧
      ∃ actions ∈ chains, s.action ∈ actions := by
  rw [build_eq_listing tree_ofChains] at hi ⊢
  have hnodup := entries_nodup (tree_ofChains : Tree (ofChains chains))
  obtain ⟨p, a, hmem, rfl, hx, -⟩ := (mem_exchanges_listing hnodup ne_page_of_entry).1 hi
  obtain ⟨actions, hactions, halong⟩ := along_of_actionAt ((mem_entries tree_ofChains).1 hmem)
  exact ⟨_, step?_number hnodup (ne_page_of_entry _ hmem) hmem, hx, actions, hactions, halong.mem⟩

include hfree in
theorem step?_ofChains (hactions : actions ∈ chains) (hbegin : before ++ [a] <+: actions) :
    (ofChains chains).build.step? ((ofChains chains).numberAt (placeOf (before ++ [a]))) =
      some ⟨(ofChains chains).numberAt (placeOf before), a⟩ := by
  have hmem := (mem_entries_ofChains hfree).2 ⟨actions, hactions, before, hbegin, rfl⟩
  have hstep := step?_number (entries_nodup tree_ofChains) (ne_page_of_entry _ hmem) hmem
  rw [build_eq_listing tree_ofChains, numberAt, hstep, placeOf_concat, List.dropLast_concat]
  rfl

include hfree in
theorem reads_ofChains (hactions : actions ∈ chains) (hbegin : before <+: actions) :
    (ofChains chains).build.Reads ((ofChains chains).numberAt (placeOf before)) before := by
  induction before using List.reverseRecOn with
  | nil =>
    rw [placeOf, List.map_nil, numberAt_page]
    exact .page
  | append_singleton before a ih =>
    have hbefore : before <+: actions := (List.prefix_append before [a]).trans hbegin
    -- the step of the last action reads from the place of those before it
    exact .step (step?_ofChains hfree hactions hbegin) (ih hbefore)

include hfree in
/-- Every beginning of a chain lies on the way to its end. -/
theorem leads_ofChains {rest : List Action} (hactions : before ++ rest ∈ chains) :
    (ofChains chains).build.Leads ((ofChains chains).numberAt (placeOf before))
      ((ofChains chains).numberAt (placeOf (before ++ rest))) := by
  induction rest generalizing before with
  | nil =>
    rw [List.append_nil]
    exact .refl
  | cons a rest ih =>
    have hsplit : before ++ a :: rest = before ++ [a] ++ rest := by simp
    have hbegin : before ++ [a] <+: before ++ a :: rest := by
      rw [hsplit]
      exact List.prefix_append _ _
    have hfeeds : (ofChains chains).build.Feeds ((ofChains chains).numberAt (placeOf before))
        ((ofChains chains).numberAt (placeOf (before ++ [a]))) :=
      ⟨_, step?_ofChains hfree hactions hbegin, rfl⟩
    have hnext : before ++ [a] ++ rest ∈ chains := hsplit ▸ hactions
    rw [hsplit]
    exact .head hfeeds (ih hnext)

variable (hcloses : ∀ actions ∈ chains, Closes actions)

theorem Closes.eq_of_beginning (h : Closes actions) (hbegin : before ++ [a] <+: actions)
    (ha : a.is .exchange = true) : before ++ [a] = actions := by
  obtain ⟨body, x, rfl, -, hbody⟩ := h
  rcases List.prefix_concat_iff.1 hbegin with heq | hinner
  · exact heq
  · have hnot := hbody a (hinner.subset (by simp))
    simp [hnot] at ha

include hfree hcloses in
theorem isInner_placeOf (hactions : actions ∈ chains) :
    isInner (ofChains chains).entries (placeOf actions) = false := by
  rw [isInner, List.any_eq_false]
  rintro ⟨q, b⟩ hq heq
  obtain ⟨others, hothers, before, hbegin, rfl⟩ := (mem_entries_ofChains hfree).1 hq
  have hplace : placeOf before = placeOf actions := by
    simpa [placeOf_concat] using heq
  have hbefore : before <+: others := (List.prefix_append before [b]).trans hbegin
  have hsame := PlanGraph.eq_of_beginning hfree hothers hactions hbefore List.prefix_rfl hplace
  obtain ⟨body, x, rfl, hx, -⟩ := hcloses actions hactions
  -- the other chain goes on behind an exchange, and that is its end
  rw [hsame] at hbegin hbefore
  have hend := (hcloses others hothers).eq_of_beginning hbefore hx
  have hlen := hbegin.length_le
  rw [← hend] at hlen
  simp at hlen

include hfree hcloses in
/-- The exchanges of the plan are the ends of its chains. -/
theorem mem_exchanges_ofChains :
    i ∈ (ofChains chains).build.exchanges ↔
      ∃ actions ∈ chains, (ofChains chains).numberAt (placeOf actions) = i := by
  rw [build_eq_listing tree_ofChains,
    mem_exchanges_listing (entries_nodup tree_ofChains) (ne_page_of_entry)]
  constructor
  · rintro ⟨p, a, hmem, hi, hx, -⟩
    obtain ⟨actions, hactions, before, hbegin, rfl⟩ := (mem_entries_ofChains hfree).1 hmem
    rw [(hcloses actions hactions).eq_of_beginning hbegin hx] at hi
    exact ⟨actions, hactions, hi⟩
  · rintro ⟨actions, hactions, hi⟩
    have hinner := isInner_placeOf hfree hcloses hactions
    obtain ⟨body, x, rfl, hx, -⟩ := hcloses actions hactions
    refine ⟨_, x, ?_, hi, hx, hinner⟩
    exact (mem_entries_ofChains hfree).2 ⟨_, hactions, body, List.prefix_rfl, rfl⟩

include hfree in
theorem eq_of_numberAt_eq {xs ys : List Action} (hx : xs ∈ chains) (hy : ys ∈ chains)
    (h : (ofChains chains).numberAt (placeOf xs) = (ofChains chains).numberAt (placeOf ys)) :
    xs = ys := by
  have hreads := reads_ofChains hfree hx List.prefix_rfl
  rw [h] at hreads
  exact hreads.unique (reads_ofChains hfree hy List.prefix_rfl)

include hfree hcloses in
/-- Reading the exchanges is a bijection onto the chains. -/
theorem exchanges_read_chains :
    ∃ path : Nat → List Action,
      (∀ i ∈ (ofChains chains).build.exchanges, (ofChains chains).build.Reads i (path i)) ∧
        Set.BijOn path {i | i ∈ (ofChains chains).build.exchanges} {xs | xs ∈ chains} := by
  have hreads : ∀ i, ∃ xs, i ∈ (ofChains chains).build.exchanges →
      xs ∈ chains ∧ (ofChains chains).numberAt (placeOf xs) = i ∧
        (ofChains chains).build.Reads i xs := by
    intro i
    by_cases hi : i ∈ (ofChains chains).build.exchanges
    · obtain ⟨xs, hxs, rfl⟩ := (mem_exchanges_ofChains hfree hcloses).1 hi
      exact ⟨xs, fun _ => ⟨hxs, rfl, reads_ofChains hfree hxs List.prefix_rfl⟩⟩
    · exact ⟨[], fun h => absurd h hi⟩
  choose path hpath using hreads
  refine ⟨path, fun i hi => (hpath i hi).2.2, fun i hi => (hpath i hi).1, ?_, ?_⟩
  · intro i hi j hj hij
    rw [← (hpath i hi).2.1, ← (hpath j hj).2.1, hij]
  · intro xs hxs
    have hi := (mem_exchanges_ofChains hfree hcloses).2 ⟨xs, hxs, rfl⟩
    refine ⟨_, hi, (hpath _ hi).2.2.unique ?_⟩
    exact reads_ofChains hfree hxs List.prefix_rfl

include hfree hcloses in
/-- Every step lies on the way to an exchange. -/
theorem exists_exchange_of_step {s : PlanStep} (h : (ofChains chains).build.step? i = some s) :
    ∃ j ∈ (ofChains chains).build.exchanges, (ofChains chains).build.Leads i j := by
  rw [build_eq_listing tree_ofChains] at h
  obtain ⟨p, a, hmem, hi⟩ :=
    exists_number (entries_nodup tree_ofChains) (ne_page_of_entry) h
  obtain ⟨actions, hactions, before, ⟨rest, rfl⟩, rfl⟩ := (mem_entries_ofChains hfree).1 hmem
  refine ⟨_, (mem_exchanges_ofChains hfree hcloses).2 ⟨_, hactions, rfl⟩, ?_⟩
  rw [← hi]
  exact leads_ofChains hfree hactions

end chains

end PlanGraph
end PagePipes
