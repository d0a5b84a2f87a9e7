import PagePipes.Proofs.Plan.Listing

set_option autoImplicit false

/-!
# Stable plans

Graphs with the same places and actions have the same plan, whatever the numbers of their nodes. So
the order and the repetition of the chains that are inserted do not show.
-/
namespace PagePipes.PlanGraph

variable {g h : PlanGraph} {chains others : List (List Action)}

theorem nodup_entries (hg : Tree g) : g.entries.Nodup := List.Nodup.of_map _ (entries_nodup hg)

theorem entries_eq_of_actionAt_eq (hg : Tree g) (hh : Tree h)
    (heq : ∀ q : Place, g.actionAt q = h.actionAt q) : g.entries = h.entries := by
  have hperm : g.entries.Perm h.entries := by
    refine (List.perm_ext_iff_of_nodup (nodup_entries hg) (nodup_entries hh)).2 ?_
    rintro ⟨q, a⟩
    rw [mem_entries hg, mem_entries hh, heq]
  refine List.Perm.eq_of_pairwise ?_ (entries_sorted hg) (entries_sorted hh) hperm
  intro e f _ _ hef hfe
  exact absurd (hef.trans hfe) not_earlier_self

theorem build_eq_of_actionAt_eq (hg : Tree g) (hh : Tree h)
    (heq : ∀ q : Place, g.actionAt q = h.actionAt q) : g.build = h.build := by
  rw [build_eq_listing hg, build_eq_listing hh, entries_eq_of_actionAt_eq hg hh heq]

theorem CollisionFree.of_subset {xs ys : List Action} (hfree : CollisionFree xs)
    (hsub : ∀ a ∈ ys, a ∈ xs) : CollisionFree ys :=
  fun a ha b hb => hfree a (hsub a ha) b (hsub b hb)

/-- The plan depends on the set of the chains alone. -/
theorem build_ofChains_eq (hfree : CollisionFree chains.flatten)
    (hsame : ∀ actions, actions ∈ chains ↔ actions ∈ others) :
    (ofChains chains).build = (ofChains others).build := by
  have hothers : CollisionFree others.flatten := by
    refine hfree.of_subset fun a ha => ?_
    obtain ⟨actions, hactions, ha⟩ := List.mem_flatten.1 ha
    exact List.mem_flatten.2 ⟨actions, (hsame actions).2 hactions, ha⟩
  refine build_eq_of_actionAt_eq tree_ofChains tree_ofChains fun q => ?_
  apply Option.ext
  intro a
  rw [actionAt_ofChains hfree, actionAt_ofChains hothers]
  exact exists_congr fun actions => and_congr_left fun _ => hsame actions

end PagePipes.PlanGraph
