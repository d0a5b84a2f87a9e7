import PagePipes.Trigger
import PagePipes.Proofs.Index.References
import PagePipes.Proofs.Pipe.Inlining
import PagePipes.Proofs.Planner.Order
import PagePipes.Proofs.Repointing

set_option autoImplicit false

/-!
# What a trigger comes to

A source that serves a closed collection of pipes, whose references go down in rank, lets every page
be planned. What is planned depends on which pipes match and on what they inline to, and neither on
the order of the matches nor on how the source finds what they refer to.
-/
namespace PagePipes

variable {lookup : Key → Option Pipe}

theorem Pipe.Inlines.mono {other : Key → Option Pipe} {actions out : List Action}
    (h : Inlines other actions out) (hsub : ∀ k p, other k = some p → lookup k = some p) :
    Inlines lookup actions out := by
  refine h.transfer (R := Eq) (fun a b hab _ => hab) (fun a b k q hab hb hk hq => ?_)
    (List.forall₂_same.2 fun _ _ => rfl)
  subst hab
  exact ⟨hb, k, q, hk, hsub k q hq, List.forall₂_same.2 fun _ _ => rfl⟩

/-- The pipes that a source serves, under their keys. Each comes with all that it refers to, and
references go down in rank. -/
structure PipeSource.Serves (source : PipeSource) (lookup : Key → Option Pipe) : Prop where
  referenced : ∀ k p, lookup k = some p → ∃ m, source.referenced k = .ok m ∧
    (∀ (j : Key) (q : Pipe), m[j]? = some q → lookup j = some q) ∧ (∀ ref ∈ p.references, ref ∈ m) ∧
      Index.Closed m
  ranked : ∃ rank : Key → Nat, ∀ k p, lookup k = some p → k.isQualified = true ∧
    ∀ a ∈ p.actions, a.is .pipe = true →
      ∃ t q, a.reference = .ok t ∧ lookup t = some q ∧ rank t < rank k

theorem PipeSource.Serves.isQualified {source : PipeSource} (h : source.Serves lookup) {k : Key}
    {p : Pipe} (hp : lookup k = some p) : k.isQualified = true := by
  obtain ⟨rank, hrank⟩ := h.ranked
  exact (hrank k p hp).1

/-- A pipe is flattened by any closed table of served pipes that has its references. -/
theorem PipeSource.Serves.flatten_succeeds {source : PipeSource} (h : source.Serves lookup)
    {table : Key.Map Pipe} (htable : ∀ (j : Key) (q : Pipe), table[j]? = some q → lookup j = some q)
    (hclosed : Index.Closed table) {k : Key} {p : Pipe} (hp : lookup k = some p)
    (hrefs : ∀ ref ∈ p.references, ref ∈ table) :
    ∃ flat, p.flatten table = .ok flat ∧ Pipe.Inlines lookup p.actions flat.actions ∧
      flat.point = p.point := by
  obtain ⟨rank, hrank⟩ := h.ranked
  have hranked : ∀ k p, lookup k = some p → (∀ ref ∈ p.references, ref ∈ table) →
      Pipe.Ranked table rank (rank k) p.actions := by
    intro k p hp hrefs a ha hpipe
    obtain ⟨t, q, ht, hq, hlt⟩ := (hrank k p hp).2 a ha hpipe
    obtain ⟨q', hq'⟩ := Lookup.exists_of_mem (hrefs t (Pipe.mem_references.2 ⟨a, ha, hpipe, ht⟩))
    exact ⟨t, q', ht, h.isQualified hq, hq', hlt⟩
  obtain ⟨flat, hflat⟩ := Pipe.flatten_ok_of_ranked
    (fun j q hq => hranked j q (htable j q hq) (hclosed j q hq)) (hranked k p hp hrefs)
  obtain ⟨hinlines, hpoint⟩ := Pipe.inlines_of_flatten hflat
  exact ⟨flat, hflat, hinlines.mono fun j q hq => htable j q (Pipe.named_eq_some.1 hq).2, hpoint⟩

namespace Planner

/-- What planning folds for a matched pipe. -/
structure Folded.For (lookup : Key → Option Pipe) (m : MatchedPipe) (f : Folded) : Prop where
  name : f.name = m.name
  pipe : f.pipe = m.pipe
  inlines : Pipe.Inlines lookup m.pipe.actions f.flat.actions
  point : f.flat.point = m.pipe.point

theorem Folded.For.unique {m : MatchedPipe} {f g : Folded} (hf : f.For lookup m)
    (hg : g.For lookup m) : f = g := by
  obtain ⟨name, pipe, actions, point⟩ := f
  obtain ⟨name', pipe', actions', point'⟩ := g
  obtain ⟨rfl, rfl, hactions, rfl⟩ := hf
  obtain ⟨rfl, rfl, hactions', hpoint'⟩ := hg
  cases hactions.unique hactions'
  cases hpoint'
  rfl

theorem Folded.exists_for {m : MatchedPipe} {flat : Pipe}
    (hinlines : Pipe.Inlines lookup m.pipe.actions flat.actions) (hpoint : flat.point = m.pipe.point) :
    Folded.For lookup m ⟨m.name, m.pipe, flat⟩ := ⟨rfl, rfl, hinlines, hpoint⟩

/-- A planner that was given the pipes of a list and tables of served pipes. -/
structure Planned (lookup : Key → Option Pipe) (ms : List MatchedPipe) (s : Planner)
    (log : List Folded) : Prop where
  holds : Holds s log
  table : ∀ (j : Key) (q : Pipe), s.table[j]? = some q → lookup j = some q
  closed : Index.Closed s.table
  mem_log : ∀ f, f ∈ log ↔ ∃ m ∈ ms, f.For lookup m

variable {s : Planner} {log : List Folded} {ms : List MatchedPipe} {m : MatchedPipe}

/-- The pipes of a list provided one after the other. -/
def provideAll (s : Planner) (pipes : List (Key × Pipe)) : Planner :=
  pipes.foldl (fun p e => p.provide e.1 e.2) s

theorem provideAll_spec (s : Planner) (pipes : List (Key × Pipe)) :
    (s.provideAll pipes).pipes = s.pipes ∧ (s.provideAll pipes).graph = s.graph ∧
      (∀ (j : Key) (q : Pipe), (s.provideAll pipes).table[j]? = some q →
        s.table[j]? = some q ∨ (j, q) ∈ pipes) ∧
      ∀ j : Key, (j ∈ s.table ∨ ∃ q, (j, q) ∈ pipes) → j ∈ (s.provideAll pipes).table := by
  induction pipes generalizing s with
  | nil => exact ⟨rfl, rfl, fun j q h => .inl h, fun j h => h.elim id fun h => by simp at h⟩
  | cons e pipes ih =>
    obtain ⟨k, p⟩ := e
    obtain ⟨hpipes, hgraph, htable, hmem⟩ := ih (s.provide k p)
    refine ⟨hpipes, hgraph, fun j q hq => ?_, fun j hj => hmem j ?_⟩
    · obtain hq | hq := htable j q hq
      · rw [provide, Std.ExtTreeMap.getElem?_insert] at hq
        split at hq
        · next hkj =>
          cases hq
          rw [Std.LawfulEqCmp.eq_of_compare hkj]
          exact .inr List.mem_cons_self
        · exact .inl hq
      · exact .inr (List.mem_cons_of_mem _ hq)
    · rw [provide, Std.ExtTreeMap.mem_insert]
      obtain hj | ⟨q, hq⟩ := hj
      · exact .inl (.inr hj)
      · obtain hq | hq := List.mem_cons.1 hq
        · cases hq
          exact .inl (.inl Std.ReflCmp.compare_self)
        · exact .inr ⟨q, hq⟩

theorem Planned.start : Planned lookup [] {} [] where
  holds := .start
  table j q h := by simp at h
  closed k p h := by simp at h
  mem_log f := by simp

/-- Providing a closed table of served pipes changes nothing that was planned. -/
theorem Planned.provideAll {table : Key.Map Pipe} (h : Planned lookup ms s log)
    (htable : ∀ (j : Key) (q : Pipe), table[j]? = some q → lookup j = some q)
    (hclosed : Index.Closed table) :
    Planned lookup ms (s.provideAll table.toList) log ∧
      ∀ j ∈ table, j ∈ (s.provideAll table.toList).table := by
  obtain ⟨hpipes, hgraph, hfrom, hmem⟩ := provideAll_spec s table.toList
  have hlisted : ∀ (j : Key) (q : Pipe), (j, q) ∈ table.toList → table[j]? = some q :=
    fun j q hq => Std.ExtTreeMap.mem_toList_iff_getElem?_eq_some.1 hq
  refine ⟨⟨⟨by rw [hgraph, h.holds.graph], by rw [hpipes]; exact h.holds.pipes⟩, fun j q hq => ?_,
    fun k p hp ref href => ?_, h.mem_log⟩, fun j hj => ?_⟩
  · obtain hq | hq := hfrom j q hq
    · exact h.table j q hq
    · exact htable j q (hlisted j q hq)
  · obtain hp | hp := hfrom k p hp
    · exact hmem ref (.inl (h.closed k p hp ref href))
    · obtain ⟨q, hq⟩ := Lookup.exists_of_mem (hclosed k p (hlisted k p hp) ref href)
      exact hmem ref (.inr ⟨q, Std.ExtTreeMap.mem_toList_iff_getElem?_eq_some.2 hq⟩)
  · obtain ⟨q, hq⟩ := Lookup.exists_of_mem hj
    exact hmem j (.inr ⟨q, Std.ExtTreeMap.mem_toList_iff_getElem?_eq_some.2 hq⟩)

/-- A matched pipe is added to the plan, unless it is there already. -/
theorem Planned.addMatched {source : PipeSource} (hserves : source.Serves lookup)
    (h : Planned lookup ms s log) (hms : ∀ n ∈ ms, lookup n.name = some n.pipe)
    (hm : lookup m.name = some m.pipe) :
    ∃ next log', Trigger.addMatched source s m = .ok next ∧ Planned lookup (ms ++ [m]) next log' := by
  obtain ⟨table, htable, hsub, hrefs, hclosed⟩ := hserves.referenced m.name m.pipe hm
  obtain ⟨hprovided, hmem⟩ := h.provideAll hsub hclosed
  have hadd : Trigger.addMatched source s m =
      (s.provideAll table.toList).add m.name m.pipe := by
    rw [Trigger.addMatched, htable]
    rfl
  rw [hadd]
  generalize s.provideAll table.toList = provided at hprovided hmem
  obtain ⟨flat, hflat, hinlines, hpoint⟩ := hserves.flatten_succeeds hprovided.table hprovided.closed hm
    fun ref href => hmem ref (hrefs ref href)
  have hq := hserves.isQualified hm
  have hfor := Folded.exists_for hinlines hpoint
  by_cases hk : m.name ∈ provided.pipes
  · -- the pipe was matched before, so it has been folded
    refine ⟨provided, log, add_of_mem hq hk, hprovided.holds, hprovided.table, hprovided.closed,
      fun f => ?_⟩
    obtain ⟨g, hg, hname⟩ := hprovided.holds.mem_pipes.1 hk
    obtain ⟨n, hn, hgn⟩ := (hprovided.mem_log g).1 hg
    have hnm : n = m := by
      have hsame : n.name = m.name := hgn.name.symm.trans hname
      have hpipe := (hms n hn).symm.trans (hsame ▸ hm)
      cases n
      cases m
      simp_all
    rw [hprovided.mem_log]
    refine exists_congr fun o => and_congr_left fun _ => ?_
    rw [List.mem_append, List.mem_singleton]
    exact ⟨.inl, fun ho => ho.elim id fun heq => by rw [heq, ← hnm]; exact hn⟩
  · have hadded := add_of_not_mem hq hk hflat
    have happly := hprovided.holds.apply (c := .add m.name m.pipe) hadded
    have hfolds : provided.folds (.add m.name m.pipe) = [⟨m.name, m.pipe, flat⟩] := by
      rw [folds, if_neg hk, hflat]
    rw [hfolds] at happly
    refine ⟨_, _, hadded, happly, hprovided.table, hprovided.closed, fun f => ?_⟩
    simp only [List.mem_append, List.mem_singleton, hprovided.mem_log, or_and_right, exists_or,
      exists_eq_left]
    exact or_congr_right ⟨fun hf => hf ▸ hfor, fun hf => hf.unique hfor⟩

theorem Planned.addAll {source : PipeSource} (hserves : source.Serves lookup)
    (h : Planned lookup ms s log) (hms : ∀ n ∈ ms, lookup n.name = some n.pipe)
    {rest : List MatchedPipe} (hrest : ∀ n ∈ rest, lookup n.name = some n.pipe) :
    ∃ next log', rest.foldlM (Trigger.addMatched source) s = .ok next ∧
      Planned lookup (ms ++ rest) next log' := by
  induction rest generalizing ms s log with
  | nil => exact ⟨s, log, rfl, by rwa [List.append_nil]⟩
  | cons m rest ih =>
    obtain ⟨hm, hrest⟩ := List.forall_mem_cons.1 hrest
    obtain ⟨middle, middleLog, hmiddle, hplanned⟩ := h.addMatched hserves hms hm
    obtain ⟨next, log', hnext, hall⟩ := ih hplanned
      (List.forall_mem_append.2 ⟨hms, List.forall_mem_singleton.2 hm⟩) hrest
    refine ⟨next, log', ?_, by rwa [List.append_assoc, List.singleton_append] at hall⟩
    rw [List.foldlM_cons, hmiddle, Result.ok_bind, hnext]

/-- Two different actions of the chains of matched pipes have one digest. -/
def Collides (lookup : Key → Option Pipe) (ms : List MatchedPipe) : Prop :=
  ∃ f g : Folded, (∃ m ∈ ms, f.For lookup m) ∧ (∃ m ∈ ms, g.For lookup m) ∧
    ∃ a ∈ f.chain, ∃ b ∈ g.chain, a.digest = b.digest ∧ a ≠ b

theorem Planned.collides (h : Planned lookup ms s log)
    (hfree : ¬ PlanGraph.CollisionFree (log.map Folded.chain).flatten) : Collides lookup ms := by
  simp only [PlanGraph.CollisionFree, List.mem_flatten, List.mem_map, not_forall] at hfree
  obtain ⟨a, ⟨_, ⟨f, hf, rfl⟩, ha⟩, b, ⟨_, ⟨g, hg, rfl⟩, hb⟩, hdigest, hne⟩ := hfree
  exact ⟨f, g, (h.mem_log f).1 hf, (h.mem_log g).1 hg, a, ha, b, hb, hdigest, hne⟩

/-- Planners that were given the same pipes, in any order, have planned the same pipes, and their
plans are equal unless digests of actions collide: actions are told apart by their digests. -/
theorem Planned.alike {t : Planner} {others : List Folded} {ms' : List MatchedPipe}
    (hs : Planned lookup ms s log) (ht : Planned lookup ms' t others) (hsame : ∀ m, m ∈ ms ↔ m ∈ ms') :
    s.planned = t.planned ∧ (s.build = t.build ∨ Collides lookup ms) := by
  have hlogs : ∀ f, f ∈ log ↔ f ∈ others := fun f => by
    rw [hs.mem_log, ht.mem_log]
    exact exists_congr fun m => and_congr_left fun _ => hsame m
  refine ⟨by rw [planned, planned, pipes_eq_of_holds hs.holds ht.holds hlogs], ?_⟩
  by_cases hfree : PlanGraph.CollisionFree (log.map Folded.chain).flatten
  · exact .inl (build_eq_of_holds hs.holds ht.holds hfree hlogs)
  · exact .inr (hs.collides hfree)

end Planner

/-- The pipes that match a page are planned, each to the chain of what it inlines to. -/
theorem Trigger.outcome_succeeds {source : PipeSource} (h : source.Serves lookup) {u : Url}
    {ms : List MatchedPipe} (hms : source.matched u = .ok ms)
    (hserved : ∀ m ∈ ms, lookup m.name = some m.pipe) :
    ∃ s log, Trigger.outcome source u = .ok ⟨ms, s.build, s.planned⟩ ∧
      Planner.Planned lookup ms s log := by
  obtain ⟨s, log, hs, hplanned⟩ := Planner.Planned.start.addAll h (by simp) hserved
  refine ⟨s, log, ?_, hplanned⟩
  rw [Trigger.outcome, hms, Result.ok_bind, hs]
  rfl

/-- Of a source only what it answers for the matched pipes counts. -/
theorem Trigger.outcome_congr {source source' : PipeSource} {u : Url} {ms : List MatchedPipe}
    (hms : source.matched u = .ok ms) (hms' : source'.matched u = .ok ms)
    (hreferenced : ∀ m ∈ ms, source.referenced m.name = source'.referenced m.name) :
    outcome source u = outcome source' u := by
  have hadd : ∀ s : Planner, ms.foldlM (addMatched source) s = ms.foldlM (addMatched source') s := by
    clear hms hms'
    induction ms with
    | nil => exact fun s => rfl
    | cons m rest ih =>
      intro s
      obtain ⟨hm, hrest⟩ := List.forall_mem_cons.1 hreferenced
      simp only [List.foldlM_cons, addMatched, hm, ih hrest]
  rw [outcome, outcome, hms, hms', Result.ok_bind, Result.ok_bind, hadd]

end PagePipes
