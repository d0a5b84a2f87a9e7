import PagePipes.Proofs.Index.Qualification
import PagePipes.Proofs.Index.References
import PagePipes.Proofs.Pipe.Inlining

set_option autoImplicit false

/-!
# Grounded indexes

In a grounded index every reference is written as the key of a pipe of lower rank. Such an index is
closed: its traversal leaves nothing over, and its pipes can be flattened. It is stable as well, for
its resources come out of their qualification as they went in. Every qualified index is grounded: a
resource comes into it after the pipes that it refers to.
-/
namespace PagePipes.Index

variable {ix out : Index} {level : Key → Nat} {r : Resource} {k t ref : Key}

/-- Every reference is written as the key of a pipe that ranks below what refers to it. -/
def Grounded (ix : Index) (level : Key → Nat) : Prop :=
  ∀ (k : Key) (r : Resource), ix.resources[k]? = some r →
    Resource.Repointed (fun ref t => t = ref ∧ ref ∈ ix.pipes ∧ level ref < level k) r r

theorem Grounded.mem_pipes (hg : Grounded ix level) (hr : ix.resources[k]? = some r)
    (href : ref ∈ r.references) : ref ∈ ix.pipes ∧ level ref < level k :=
  (List.forall₂_same.1 (hg k r hr).references ref href).2

section rank

/-- The place of a new key among the new keys in the order of emission. -/
def rank (ix : Index) (t : Key) : Nat := (ix.traversal.emitted.map ix.newKey).idxOf t

theorem not_mem_before {before after : List Key}
    (h : ix.traversal.emitted = before ++ k :: after) : k ∉ before := by
  have hnodup : ix.traversal.emitted.Nodup := Graph.order_nodup
  rw [h] at hnodup
  exact fun hk => (List.nodup_append.1 hnodup).2.2 k hk k (by simp) rfl

theorem emittedBefore_eq {before after : List Key}
    (h : ix.traversal.emitted = before ++ k :: after) : ix.emittedBefore k = before := by
  have hne : ∀ j ∈ before, j ≠ k := by
    rintro j hj rfl
    exact not_mem_before h hj
  rw [emittedBefore, h, List.takeWhile_append_of_pos (by simpa using hne)]
  simp

/-- The first resource that takes a new key comes after resources whose new keys rank lower. -/
theorem exists_first_of_rank (hc : Coherent ix) (h : ix.qualified = .ok out)
    (ht : t ∈ out.resources) :
    ∃ k ∈ ix.resources, ix.newKey k = t ∧
      ∀ j ∈ ix.emittedBefore k, ix.rank (ix.newKey j) < ix.rank t := by
  obtain ⟨j, hj, hnew⟩ := exists_newKey_of_qualified hc h ht
  have hsome : (ix.traversal.emitted.find? (ix.newKey · == t)).isSome := by
    rw [List.find?_isSome]
    exact ⟨j, (mem_emitted h).2 hj, by simp [hnew]⟩
  obtain ⟨k, hfind⟩ := Option.isSome_iff_exists.1 hsome
  obtain ⟨hk, before, after, hsplit, hfirst⟩ := List.find?_eq_some_iff_append.1 hfind
  have hk : ix.newKey k = t := by simpa using hk
  have hnot : t ∉ before.map ix.newKey := by
    intro hmem
    obtain ⟨i, hi, hit⟩ := List.mem_map.1 hmem
    simpa [hit] using hfirst i hi
  refine ⟨k, mem_resources_of_emitted (by simp [hsplit]), hk, fun i hi => ?_⟩
  rw [emittedBefore_eq hsplit] at hi
  have hmem : ix.newKey i ∈ before.map ix.newKey := List.mem_map_of_mem hi
  have hlt := List.idxOf_lt_length_iff.2 hmem
  rw [rank, rank, hsplit, List.map_append, List.map_cons, hk, List.idxOf_append_of_mem hmem,
    List.idxOf_append_of_notMem hnot, List.idxOf_cons_self]
  omega

theorem newKey_mem_pipes (hc : Coherent ix) (h : ix.qualified = .ok out) (hk : k ∈ ix.pipes) :
    ix.newKey k ∈ out.pipes := by
  obtain ⟨r, hr, hkind⟩ := hc.mem_pipes.1 hk
  obtain ⟨q, hq, hrq⟩ := repointed_of_qualified hc h hr
  exact (hc.qualified h).mem_pipes.2 ⟨q, hq, hrq.kind_eq.trans hkind⟩

theorem grounded_of_qualified (hc : Coherent ix) (h : ix.qualified = .ok out) :
    Grounded out ix.rank := by
  intro t q hq
  -- several resources may take one new key; the first of them has all it refers to before it
  obtain ⟨k, hk, rfl, hrank⟩ := exists_first_of_rank hc h (Lookup.mem hq)
  obtain ⟨r, hr⟩ := Lookup.exists_of_mem hk
  obtain ⟨q', hq', hrq⟩ := repointed_of_qualified hc h hr
  cases hq.symm.trans hq'
  refine hrq.written.imp fun ref _ t ht => ?_
  obtain ⟨rfl, _, ⟨j, hj, hpipe, rfl⟩, -⟩ := ht
  exact ⟨rfl, newKey_mem_pipes hc h hpipe, hrank j hj⟩

end rank

section closed

theorem Grounded.reference (hc : Coherent ix) (hg : Grounded ix level) {p : Pipe}
    (hp : ix.pipes[k]? = some p) {a : Action} (ha : a ∈ p.actions) (hpipe : a.is .pipe = true) :
    ∃ v ∈ p.references, a.reference = .ok v ∧ v ∈ ix.pipes ∧ level v < level k := by
  obtain ⟨⟨version, metadata, spec⟩, hr, hspec⟩ := hc.getElem?_pipes.1 hp
  cases hspec
  have hrr := (hg k _ hr).spec
  cases hrr with
  | pipe _ actions =>
    obtain ⟨v, -, hv, -, -, hlower⟩ :=
      (List.forall₂_same.1 actions a ha).exists_reference hpipe
    exact ⟨v, Pipe.mem_references.2 ⟨a, ha, hpipe, hv⟩, hv, hlower⟩

theorem Grounded.closed (hc : Coherent ix) (hg : Grounded ix level) : Closed ix.pipes := by
  intro k p hp ref href
  obtain ⟨r, hr, hspec⟩ := hc.getElem?_pipes.1 hp
  exact (hg.mem_pipes hr (by rwa [Resource.references, hspec])).1

theorem Grounded.flatten (hc : Coherent ix) (hg : Grounded ix level) {p : Pipe}
    (hp : ix.pipes[k]? = some p) {m : Key.Map Pipe} (hm : ix.referencedPipes k = .ok m) :
    ∃ flat, p.flatten m = .ok flat := by
  obtain ⟨hsub, hrefs, hclosed⟩ := referencedPipes_eq_ok hp hm
  have hranked : ∀ (j : Key) (q : Pipe), ix.pipes[j]? = some q →
      (∀ ref ∈ q.references, ref ∈ m) → Pipe.Ranked m level (level j) q.actions := by
    intro j q hq hrefs a ha hpipe
    obtain ⟨v, hvref, hv, hmem, hlt⟩ := hg.reference hc hq ha hpipe
    obtain ⟨w, hw⟩ := Lookup.exists_of_mem (hrefs v hvref)
    exact ⟨v, w, hv, hc.isQualified (hc.mem_resources_of_pipes hmem), hw, hlt⟩
  exact Pipe.flatten_ok_of_ranked (fun j q hq => hranked j q (hsub j q hq) (hclosed j q hq))
    (hranked k p hp hrefs)

theorem Grounded.resolve_reference (hc : Coherent ix) (hg : Grounded ix level)
    (hr : ix.resources[k]? = some r) (href : ref ∈ r.references) : ix.resolve ref = .ok ref := by
  have hmem := (hg.mem_pipes hr href).1
  exact (resolve_qualified (hc.isQualified (hc.mem_resources_of_pipes hmem))).2 ⟨hmem, rfl⟩

theorem Grounded.cycle_eq_none (hc : Coherent ix) (hg : Grounded ix level) :
    ix.traversal.cycle = none := by
  apply Graph.order_cycle_of_ranked
  intro k deps hk d hd
  obtain ⟨r, hr, rfl⟩ : ∃ r, ix.resources[k]? = some r ∧ _ = deps := by
    simpa [dependencies] using hk
  obtain ⟨ref, href, hd⟩ : ∃ ref ∈ r.references, ix.resolve ref = .ok d := by
    simpa [Result.toOption_eq_some] using hd
  cases (hg.resolve_reference hc hr href).symm.trans hd
  exact (hg.mem_pipes hr href).2

end closed

section stable

theorem Coherent.ext (hc : Coherent ix) (hout : Coherent out)
    (h : ∀ k : Key, out.resources[k]? = ix.resources[k]?) : out = ix := by
  have hkeys : ∀ n, out.keysOf n = ix.keysOf n := by
    intro n
    apply Std.ExtTreeSet.ext_mem
    intro k
    rw [hc.mem_keysOf, hout.mem_keysOf, Std.ExtTreeMap.mem_iff_isSome_getElem?, h,
      ← Std.ExtTreeMap.mem_iff_isSome_getElem?]
  have hnames : ∀ n : String, out.names[n]? = ix.names[n]? := by
    intro n
    have hkeysn := hkeys n
    have hne := hc.names_ne n
    have hne' := hout.names_ne n
    revert hkeysn hne hne'
    unfold keysOf
    cases out.names[n]? <;> cases ix.names[n]? <;> simp_all [eq_comm]
  obtain ⟨resources, names, pipes, views, rules⟩ := out
  obtain ⟨resources', names', pipes', views', rules'⟩ := ix
  congr 1 <;> apply Std.ExtTreeMap.ext_getElem?
  · exact h
  · exact hnames
  · exact fun k => (hout.pipes_eq k).trans (h k ▸ (hc.pipes_eq k).symm)
  · exact fun k => (hout.views_eq k).trans (h k ▸ (hc.views_eq k).symm)
  · exact fun k => (hout.rules_eq k).trans (h k ▸ (hc.rules_eq k).symm)

/-- The state after resources of the given keys, each of which came out as it went in. -/
structure Kept (ix : Index) (done : List Key) (s : Qualifying) : Prop where
  coherent : Coherent s.index
  renamed : s.renamed = ∅
  resources : ∀ k : Key, s.index.resources[k]? = if k ∈ done then ix.resources[k]? else none

variable {done : List Key} {s : Qualifying}

theorem Kept.start : Kept ix [] {} where
  coherent := .empty
  renamed := rfl
  resources k := by simp [Index.empty]

theorem Kept.mem_pipes (hc : Coherent ix) (hs : Kept ix done s) (hk : k ∈ done)
    (hpipe : k ∈ ix.pipes) : k ∈ s.index.pipes := by
  obtain ⟨r, hr, hkind⟩ := hc.mem_pipes.1 hpipe
  exact hs.coherent.mem_pipes.2 ⟨r, by rw [hs.resources, if_pos hk, hr], hkind⟩

/-- The next resource, all of whose references are among those before it, comes out as it went
in. -/
theorem Kept.next (hc : Coherent ix) (hg : Grounded ix level) (hs : Kept ix done s) (hk : k ∉ done)
    (hr : ix.resources[k]? = some r) (hrefs : ∀ ref ∈ r.references, ref ∈ done) :
    ∃ next, qualifyNext ix s k = .ok next ∧ Kept ix (done ++ [k]) next := by
  have hqualify : r.qualify s.index.resolve = .ok r := by
    refine Resource.qualify_of_repointed ((hg k r hr).imp fun ref href t ht => ?_)
    obtain ⟨rfl, hpipe, -⟩ := ht
    have hq := hc.isQualified (hc.mem_resources_of_pipes hpipe)
    exact (resolve_qualified hq).2 ⟨hs.mem_pipes hc (hrefs _ href) hpipe, rfl⟩
  have hkey := hc.key_eq hr
  have hfree : s.index.resources[r.key]? = none := by rw [hkey, hs.resources, if_neg hk]
  have hadd : s.index.add r = .ok (s.index.put r.key r, r.key) :=
    add_eq_ok.2 ⟨hc.valid hr, rfl, .inr ⟨hfree, rfl⟩⟩
  refine ⟨⟨s.index.put r.key r, s.renamed⟩, ?_, hs.coherent.put (hc.valid hr) hfree, hs.renamed, ?_⟩
  · simp [qualifyNext, hr, hs.renamed, hqualify, hadd, hkey]
  · intro j
    rw [resources_put, hkey, Std.ExtTreeMap.getElem?_insert, hs.resources]
    by_cases hj : k = j
    · simp [← hj, hr]
    · simp [hj, Ne.symm hj]

theorem exists_kept (hc : Coherent ix) (hg : Grounded ix level) {rest : List Key}
    (hsplit : ix.traversal.emitted = done ++ rest) :
    ∃ s, done.foldlM (qualifyNext ix) {} = .ok s ∧ Kept ix done s := by
  induction done using List.reverseRecOn generalizing rest with
  | nil => exact ⟨{}, rfl, .start⟩
  | append_singleton done k ih =>
    rw [List.append_assoc, List.singleton_append] at hsplit
    obtain ⟨s, hrun, hs⟩ := ih hsplit
    have hbefore := emittedBefore_eq hsplit
    have hemitted : k ∈ ix.traversal.emitted := by simp [hsplit]
    have hk := not_mem_before hsplit
    obtain ⟨r, hr⟩ := Lookup.exists_of_mem (mem_resources_of_emitted hemitted)
    obtain ⟨next, hnext, hkept⟩ := hs.next hc hg hk hr fun ref href =>
      hbefore ▸ mem_emittedBefore_of_resolve hc hemitted hr href (hg.resolve_reference hc hr href)
    exact ⟨next, Result.foldlM_concat_eq_ok.2 ⟨s, hrun, hnext⟩, hkept⟩

theorem Grounded.qualified_eq (hc : Coherent ix) (hg : Grounded ix level) :
    ix.qualified = .ok ix := by
  have hcycle := hg.cycle_eq_none hc
  obtain ⟨s, hrun, hs⟩ := exists_kept hc hg (List.append_nil ix.traversal.emitted).symm
  refine qualified_eq_ok.2 ⟨s, hrun, hc.ext hs.coherent fun k => ?_, hcycle⟩
  rw [hs.resources]
  split
  · rfl
  · next hk =>
    cases hr : ix.resources[k]? with
    | none => rfl
    | some r => exact absurd (Graph.mem_order_of_no_cycle hcycle (mem_dependencies.2 (Lookup.mem hr))) hk

end stable

/-- A qualified index is closed and stable. -/
theorem qualified_closed_and_stable (hb : Built ix) (h : ix.qualified = .ok out) :
    (∀ (k : Key) (r : Resource), out.resources[k]? = some r →
      ∀ ref ∈ r.references, ref.isQualified = true ∧ ref ∈ out.pipes) ∧
    out.traversal.error? = none ∧ out.qualified = .ok out ∧
    ∀ (k : Key) (p : Pipe), out.pipes[k]? = some p →
      (∀ a ∈ p.actions, a.is .pipe = true → ∃ ref ∈ p.references, a.reference = .ok ref) ∧
      ∃ m flat, out.referencedPipes k = .ok m ∧ p.flatten m = .ok flat ∧
        ∀ a ∈ flat.actions, a.is .pipe = false := by
  have hg := grounded_of_qualified hb.coherent h
  have hc := hb.coherent.qualified h
  refine ⟨fun k r hr ref href => ?_, ?_, hg.qualified_eq hc, fun k p hp => ⟨?_, ?_⟩⟩
  · have hmem := (hg.mem_pipes hr href).1
    exact ⟨hc.isQualified (hc.mem_resources_of_pipes hmem), hmem⟩
  · rw [Traversal.error?, hg.cycle_eq_none hc, Option.map_none]
  · intro a ha hpipe
    obtain ⟨ref, href, hk, -⟩ := hg.reference hc hp ha hpipe
    exact ⟨ref, href, hk⟩
  · obtain ⟨m, hm⟩ := referencedPipes_succeeds (hg.closed hc) hp
    obtain ⟨flat, hflat⟩ := hg.flatten hc hp hm
    exact ⟨m, flat, hm, hflat, (Pipe.inlines_of_flatten hflat).1.flat⟩

/-- Two pages, one of which refers to the title by its bare name and one by its key. -/
def twinPages : List Resource :=
  let title := Resource.ofSpec "title" (.pipe ⟨[Action.ofKind .document], {}⟩)
  [title, Resource.ofSpec "page" (.pipe ⟨[Action.pipe (.bare "title")], {}⟩),
    Resource.ofSpec "page" (.pipe ⟨[Action.pipe title.key], {}⟩)]

/-- The two pages become one, and qualifying the index again changes nothing. -/
theorem twin_pages_merge :
    ∃ ix out, ofResources twinPages = .ok ix ∧ ix.qualified = .ok out ∧ ix.pipes.size = 3 ∧
      out.pipes.size = 2 ∧ out.qualified = .ok out := by
  have hrun : (ofResources twinPages).toOption.any (fun ix => ix.qualified.toOption.any fun out =>
      decide (ix.pipes.size = 3 ∧ out.pipes.size = 2)) = true := by
    decide +kernel
  obtain ⟨ix, hix, hrun⟩ := Result.exists_ok_of_any hrun
  obtain ⟨out, hout, hrun⟩ := Result.exists_ok_of_any hrun
  obtain ⟨hthree, htwo⟩ := of_decide_eq_true hrun
  obtain ⟨-, -, hstable, -⟩ := qualified_closed_and_stable (Built.ofResources hix) hout
  exact ⟨ix, out, hix, hout, hthree, htwo, hstable⟩

end PagePipes.Index
