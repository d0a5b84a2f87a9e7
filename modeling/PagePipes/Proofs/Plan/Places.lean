import Mathlib.Data.List.Induction
import PagePipes.Plan.Graph

set_option autoImplicit false

/-!
# Places of a plan graph

A place is the list of the digests from the page to a node. Numbers of nodes depend on the order of
insertion, places do not: inserting a chain gives an action to the places along it that had none,
and all other places keep what they have.
-/
namespace PagePipes.PlanGraph

abbrev Place := List String

/-- The node that a list of digests leads to. -/
def follow (g : PlanGraph) (i : Nat) : Place → Option Nat
  | [] => some i
  | d :: rest => (g.node i).followers[d]?.bind fun j => g.follow j rest

def actionAt (g : PlanGraph) (p : Place) : Option Action :=
  (g.follow 0 p).bind fun i => (g.node i).action

/-- Every node stands at one place, under the digest of its action. -/
structure Tree (g : PlanGraph) : Prop where
  page : (g.node 0).action = none
  lt : ∀ {p : Place} {i : Nat}, g.follow 0 p = some i → i < g.nodes.length
  unshared : ∀ {p q : Place} {i : Nat}, g.follow 0 p = some i → g.follow 0 q = some i → p = q
  digest : ∀ {p : Place} {d : String} {i : Nat}, g.follow 0 (p ++ [d]) = some i →
    ∃ a, (g.node i).action = some a ∧ a.digest = d

/-- A chain that starts at a place comes by another place with an action. -/
inductive Along : Place → List Action → Place → Action → Prop
  | head {p : Place} {a : Action} {rest : List Action} : Along p (a :: rest) (p ++ [a.digest]) a
  | tail {p q : Place} {a b : Action} {rest : List Action} (h : Along (p ++ [b.digest]) rest q a) :
      Along p (b :: rest) q a

def ofChains (chains : List (List Action)) : PlanGraph := chains.foldl insert {}

/-- No two of the actions share a digest. -/
def CollisionFree (actions : List Action) : Prop :=
  ∀ a ∈ actions, ∀ b ∈ actions, a.digest = b.digest → a = b

instance {actions : List Action} : Decidable (CollisionFree actions) :=
  inferInstanceAs (Decidable (∀ a ∈ actions, ∀ b ∈ actions, a.digest = b.digest → a = b))

variable {g : PlanGraph} {p q : Place} {i j : Nat} {d : String} {a b : Action}
  {actions rest : List Action}

theorem follow_concat :
    g.follow i (p ++ [d]) = (g.follow i p).bind fun j => (g.node j).followers[d]? := by
  induction p generalizing i with
  | nil => simp [follow]
  | cons e p ih =>
    rw [List.cons_append, follow, follow, Option.bind_assoc]
    exact Option.bind_congr fun j _ => ih

theorem node_grow_new : (g.grow i a).node g.nodes.length = { action := some a } := by
  simp [node, grow, grown]

theorem node_grow_old (hj : j < g.nodes.length) :
    (g.grow i a).node j =
      if i = j then
        { g.node j with followers := (g.node j).followers.insert a.digest g.nodes.length }
      else g.node j := by
  have hlt : j < (g.nodes.modify i fun n =>
      { n with followers := n.followers.insert a.digest g.nodes.length }).length := by
    rwa [List.length_modify]
  obtain ⟨n, hn⟩ : ∃ n, g.nodes[j]? = some n := ⟨_, List.getElem?_eq_getElem hj⟩
  simp only [node, grow, grown, List.getElem?_append_left hlt, List.getElem?_modify, hn]
  split <;> rfl

section grow

variable (ht : Tree g) (hp : g.follow 0 p = some i)
  (hnew : (g.node i).followers[a.digest]? = none)

include hp hnew in
theorem follow_new : g.follow 0 (p ++ [a.digest]) = none := by
  rw [follow_concat, hp, Option.bind_some, hnew]

include ht hp hnew in
theorem follow_grow :
    (g.grow i a).follow 0 q = if q = p ++ [a.digest] then some g.nodes.length else g.follow 0 q := by
  induction q using List.reverseRecOn with
  | nil => simp [follow]
  | append_singleton q d ih =>
    rw [follow_concat, ih]
    by_cases hq : q = p ++ [a.digest]
    · have hne : q ++ [d] ≠ p ++ [a.digest] := by
        intro h
        have hlen := congrArg List.length h
        simp [hq] at hlen
      rw [if_pos hq, if_neg hne, Option.bind_some, node_grow_new, follow_concat, hq,
        follow_new hp hnew]
      simp
    · rw [if_neg hq, follow_concat]
      cases hj : g.follow 0 q with
      | none =>
        have hne : q ++ [d] ≠ p ++ [a.digest] := by
          intro h
          rw [(List.append_inj' h rfl).1, hp] at hj
          cases hj
        rw [if_neg hne]
        rfl
      | some j =>
        rw [Option.bind_some, Option.bind_some, node_grow_old (ht.lt hj)]
        by_cases hij : i = j
        · subst hij
          cases ht.unshared hj hp
          by_cases hd : d = a.digest
          · simp [hd]
          · simp [hd, Ne.symm hd, Std.ExtTreeMap.getElem?_insert]
        · have hne : q ++ [d] ≠ p ++ [a.digest] := by
            intro h
            rw [(List.append_inj' h rfl).1, hp] at hj
            exact hij (Option.some.inj hj)
          rw [if_neg hij, if_neg hne]

theorem action_grow (hj : j < g.nodes.length) :
    ((g.grow i a).node j).action = (g.node j).action := by
  rw [node_grow_old hj]
  split <;> rfl

include ht hp hnew in
theorem actionAt_grow :
    (g.grow i a).actionAt q = if q = p ++ [a.digest] then some a else g.actionAt q := by
  unfold actionAt
  rw [follow_grow ht hp hnew]
  split
  · rw [Option.bind_some, node_grow_new]
  · exact Option.bind_congr fun j hj => action_grow (ht.lt hj)

include ht hp hnew in
theorem Tree.grow : Tree (g.grow i a) where
  page := by
    have hpage : 0 < g.nodes.length := ht.lt (p := []) rfl
    rw [action_grow hpage, ht.page]
  lt := by
    intro q j h
    have hlen : (g.grow i a).nodes.length = g.nodes.length + 1 := by
      simp [PlanGraph.grow, grown]
    rw [follow_grow ht hp hnew] at h
    split at h
    · cases h
      omega
    · have := ht.lt h
      omega
  unshared := by
    intro q r j hq hr
    rw [follow_grow ht hp hnew] at hq hr
    split at hq
    · next hq' =>
      split at hr
      · next hr' => rw [hq', hr']
      · cases hq
        exact absurd (ht.lt hr) (Nat.lt_irrefl _)
    · split at hr
      · cases hr
        exact absurd (ht.lt hq) (Nat.lt_irrefl _)
      · exact ht.unshared hq hr
  digest := by
    intro q d j h
    rw [follow_grow ht hp hnew] at h
    split at h
    · next hq =>
      cases h
      rw [node_grow_new]
      exact ⟨a, rfl, (List.singleton_inj.1 (List.append_inj' hq rfl).2).symm⟩
    · rw [action_grow (ht.lt h)]
      exact ht.digest h

end grow

theorem Tree.empty : Tree {} where
  page := rfl
  lt := by
    intro p i h
    cases p with
    | nil =>
      cases h
      exact Nat.one_pos
    | cons d p => simp [follow, node] at h
  unshared := by
    intro p q i hp hq
    cases p with
    | nil =>
      cases q with
      | nil => rfl
      | cons d q => simp [follow, node] at hq
    | cons d p => simp [follow, node] at hp
  digest := by
    intro p d i h
    cases p with
    | nil => simp [follow, node] at h
    | cons e p => simp [follow, node] at h

theorem not_along_nil : ¬ Along p [] q a := by
  rintro ⟨⟩

theorem along_cons :
    Along p (b :: rest) q a ↔ (q = p ++ [b.digest] ∧ a = b) ∨ Along (p ++ [b.digest]) rest q a := by
  constructor
  · rintro (_ | h)
    · exact .inl ⟨rfl, rfl⟩
    · exact .inr h
  · rintro (⟨rfl, rfl⟩ | h)
    · exact .head
    · exact .tail h

theorem Along.length_lt (h : Along p actions q a) : p.length < q.length := by
  induction h with
  | head => simp
  | tail _ ih =>
    rw [List.length_append, List.length_singleton] at ih
    omega

theorem Along.mem (h : Along p actions q a) : a ∈ actions := by
  induction h with
  | head => simp
  | tail _ ih => exact List.mem_cons_of_mem _ ih

theorem Along.getLast? (h : Along p actions q a) : q.getLast? = some a.digest := by
  induction h with
  | head => simp
  | tail _ ih => exact ih

def placeOf (actions : List Action) : Place := actions.map Action.digest

theorem placeOf_concat : placeOf (actions ++ [a]) = placeOf actions ++ [a.digest] := by
  rw [placeOf, List.map_append, List.map_singleton, placeOf]

theorem along_iff_beginning :
    Along p actions q a ↔
      ∃ before, before ++ [a] <+: actions ∧ q = p ++ placeOf (before ++ [a]) := by
  induction actions generalizing p with
  | nil =>
    refine iff_of_false not_along_nil ?_
    rintro ⟨before, hbegin, -⟩
    simp at hbegin
  | cons b rest ih =>
    rw [along_cons, ih]
    constructor
    · rintro (⟨rfl, rfl⟩ | ⟨before, hbegin, rfl⟩)
      · exact ⟨[], by simp, rfl⟩
      · exact ⟨b :: before, by simpa using hbegin, by simp [placeOf]⟩
    · rintro ⟨before, hbegin, rfl⟩
      cases before with
      | nil =>
        have hab : a = b := by simpa using hbegin
        exact .inl ⟨by rw [hab]; rfl, hab⟩
      | cons c before =>
        obtain ⟨rfl, hrest⟩ := List.cons_prefix_cons.1 hbegin
        exact .inr ⟨before, hrest, by simp [placeOf]⟩

/-- Inserting a chain gives actions to the places along it that had none. -/
theorem insertFrom_spec (ht : Tree g) (hp : g.follow 0 p = some i) :
    Tree (g.insertFrom i actions) ∧ ∀ (q : Place) (b : Action),
      (g.insertFrom i actions).actionAt q = some b ↔
        g.actionAt q = some b ∨ (g.actionAt q = none ∧ Along p actions q b) := by
  induction actions generalizing g i p with
  | nil => exact ⟨ht, fun q b => by simp [insertFrom, not_along_nil]⟩
  | cons a rest ih =>
    rw [insertFrom]
    cases hj : (g.node i).followers[a.digest]? with
    | some j =>
      -- the first place of the chain has an action already
      have hnext : g.follow 0 (p ++ [a.digest]) = some j := by
        rw [follow_concat, hp, Option.bind_some, hj]
      obtain ⟨htree, hspec⟩ := ih ht hnext
      refine ⟨htree, fun q b => ?_⟩
      rw [hspec, along_cons]
      refine or_congr_right (and_congr_right fun hnone => ?_)
      refine (or_iff_right ?_).symm
      rintro ⟨rfl, -⟩
      obtain ⟨c, hc, -⟩ := ht.digest hnext
      simp [actionAt, hnext, hc] at hnone
    | none =>
      have hnext : (g.grow i a).follow 0 (p ++ [a.digest]) = some g.nodes.length := by
        rw [follow_grow ht hp hj, if_pos rfl]
      obtain ⟨htree, hspec⟩ := ih (ht.grow hp hj) hnext
      refine ⟨htree, fun q b => ?_⟩
      rw [hspec, along_cons, actionAt_grow ht hp hj]
      by_cases hq : q = p ++ [a.digest]
      · subst hq
        have hnone : g.actionAt (p ++ [a.digest]) = none := by
          rw [actionAt, follow_new hp hj]
          rfl
        have hnot : ¬ Along (p ++ [a.digest]) rest (p ++ [a.digest]) b :=
          fun h => Nat.lt_irrefl _ h.length_lt
        simp [hnone, hnot, eq_comm]
      · simp [hq]

theorem follow_page : g.follow 0 [] = some 0 := rfl

theorem Tree.insert (ht : Tree g) : Tree (g.insert actions) := (insertFrom_spec ht follow_page).1

theorem actionAt_insert (ht : Tree g) :
    (g.insert actions).actionAt q = some b ↔
      g.actionAt q = some b ∨ (g.actionAt q = none ∧ Along [] actions q b) :=
  (insertFrom_spec ht follow_page).2 q b

theorem tree_ofChains {chains : List (List Action)} : Tree (ofChains chains) := by
  unfold ofChains
  induction chains using List.reverseRecOn with
  | nil => exact .empty
  | append_singleton chains actions ih =>
    rw [List.foldl_append]
    exact ih.insert

theorem not_actionAt_empty : (ofChains []).actionAt q ≠ some b := by
  cases q <;> simp [ofChains, actionAt, follow, node]

theorem ofChains_concat {chains : List (List Action)} :
    ofChains (chains ++ [actions]) = (ofChains chains).insert actions := by
  simp [ofChains]

/-- Every place of a graph lies along one of its chains. -/
theorem along_of_actionAt {chains : List (List Action)} (h : (ofChains chains).actionAt q = some b) :
    ∃ actions ∈ chains, Along [] actions q b := by
  induction chains using List.reverseRecOn with
  | nil => exact absurd h not_actionAt_empty
  | append_singleton chains actions ih =>
    rw [ofChains_concat, actionAt_insert tree_ofChains] at h
    rcases h with h | ⟨-, h⟩
    · obtain ⟨others, hothers, h⟩ := ih h
      exact ⟨others, List.mem_append_left _ hothers, h⟩
    · exact ⟨actions, by simp, h⟩

theorem actionAt_ofChains {chains : List (List Action)} (hfree : CollisionFree chains.flatten) :
    (ofChains chains).actionAt q = some b ↔ ∃ actions ∈ chains, Along [] actions q b := by
  refine ⟨along_of_actionAt, ?_⟩
  rintro ⟨others, hothers, h⟩
  induction chains using List.reverseRecOn with
  | nil => simp at hothers
  | append_singleton chains actions ih =>
    have hsub : ∀ c ∈ chains.flatten, c ∈ (chains ++ [actions]).flatten := by
      intro c hc
      rw [List.flatten_append]
      exact List.mem_append_left _ hc
    have hchains : CollisionFree chains.flatten :=
      fun a ha c hc => hfree a (hsub a ha) c (hsub c hc)
    rw [ofChains_concat, actionAt_insert tree_ofChains]
    rcases List.mem_append.1 hothers with hothers | hothers
    · exact .inl (ih hchains hothers)
    · cases List.mem_singleton.1 hothers
      cases hq : (ofChains chains).actionAt q with
      | none => exact .inr ⟨rfl, h⟩
      | some c =>
        -- an action that is there already has the digest of this one
        obtain ⟨before, hbefore, hc⟩ := along_of_actionAt hq
        have hdigest : b.digest = c.digest :=
          Option.some.inj (h.getLast?.symm.trans hc.getLast?)
        have hbc : b = c := by
          refine hfree b ?_ c (hsub c (List.mem_flatten.2 ⟨before, hbefore, hc.mem⟩)) hdigest
          exact List.mem_flatten.2 ⟨others, by simp, h.mem⟩
        exact .inl (by rw [hbc])

theorem eq_of_placeOf {others : List Action}
    (hfree : ∀ a ∈ actions, ∀ b ∈ others, a.digest = b.digest → a = b)
    (h : placeOf actions = placeOf others) : actions = others := by
  induction actions generalizing others with
  | nil => exact (List.map_eq_nil_iff.1 h.symm).symm
  | cons a actions ih =>
    cases others with
    | nil => exact absurd h (List.cons_ne_nil _ _)
    | cons b others =>
      obtain ⟨hdigest, hrest⟩ := List.cons.inj h
      rw [hfree a (by simp) b (by simp) hdigest, ih (fun a ha b hb =>
        hfree a (List.mem_cons_of_mem _ ha) b (List.mem_cons_of_mem _ hb)) hrest]

/-- Every node of a graph stands for one beginning of its chains and holds its last action. -/
structure Unmerged (chains : List (List Action)) : Prop where
  holds : ∀ c ∈ chains, ∀ before a, before ++ [a] <+: c →
    (ofChains chains).actionAt (placeOf (before ++ [a])) = some a
  apart : ∀ c ∈ chains, ∀ d ∈ chains, ∀ before others, before <+: c → others <+: d →
    (ofChains chains).follow 0 (placeOf before) = (ofChains chains).follow 0 (placeOf others) →
      before = others

/-- Actions that share no digest are not merged. -/
theorem unmerged_of_collisionFree {chains : List (List Action)}
    (hfree : CollisionFree chains.flatten) : Unmerged chains := by
  have hholds : ∀ c ∈ chains, ∀ before a, before ++ [a] <+: c →
      (ofChains chains).actionAt (placeOf (before ++ [a])) = some a := fun c hc before a hbegin =>
    (actionAt_ofChains hfree).2 ⟨c, hc, along_iff_beginning.2 ⟨before, hbegin, rfl⟩⟩
  have hnode : ∀ c ∈ chains, ∀ before, before <+: c →
      ∃ i, (ofChains chains).follow 0 (placeOf before) = some i := by
    intro c hc before hbegin
    induction before using List.reverseRecOn with
    | nil => exact ⟨0, rfl⟩
    | append_singleton before a _ =>
      obtain ⟨i, hi, -⟩ := Option.bind_eq_some_iff.1 (hholds c hc before a hbegin)
      exact ⟨i, hi⟩
  refine ⟨hholds, fun c hc d hd before others hbegin hother hsame => ?_⟩
  obtain ⟨i, hi⟩ := hnode c hc before hbegin
  refine eq_of_placeOf (fun a ha b hb => hfree a ?_ b ?_) (tree_ofChains.unshared hi (hsame ▸ hi))
  · exact List.mem_flatten.2 ⟨c, hc, hbegin.subset ha⟩
  · exact List.mem_flatten.2 ⟨d, hd, hother.subset hb⟩

end PagePipes.PlanGraph
