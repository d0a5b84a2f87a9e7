import Mathlib.Data.List.Nodup
import PagePipes.Proofs.Index.Coherent
import PagePipes.Proofs.Repointing
import PagePipes.Proofs.Traversal

set_option autoImplicit false

/-!
# Qualification of an index

The traversal hands the resources of an index one by one to the index being built. What a reference
means there depends on the resources before it alone: a key that is a pipe of them means its new
key, any other key has to be the new key of one of them, and the pipes of a bare name have to share
one new key. The invariant `Settled` says so of every resource that has been taken.
-/
namespace PagePipes.Index

/-- The state once the traversal has handed over its last resource. -/
def settled (ix : Index) : Result Qualifying := ix.traversal.emitted.foldlM (qualifyNext ix) {}

/-- The key that takes the place of a key. -/
def newKey (ix : Index) (k : Key) : Key :=
  match ix.settled with
  | .ok s => s.renamed.key k
  | .error _ => k

/-- The target of a reference in a resource that comes after the given keys. -/
def Means (ix : Index) (newKey : Key → Key) (before : List Key) (ref t : Key) : Prop :=
  (∃ k ∈ before, k ∈ ix.pipes ∧ newKey k = t) ∧
    if ref.isQualified then t = if ref ∈ before then newKey ref else ref
    else t.name = ref.name ∧ ∀ k ∈ before, k ∈ ix.pipes → k.name = ref.name → newKey k = t

/-- The state after the resources of the given keys. -/
structure Settled (ix : Index) (done : List Key) (s : Qualifying) : Prop where
  coherent : Coherent s.index
  renamed_mem : ∀ k t : Key, s.renamed[k]? = some t → k ∈ done
  /-- Every resource stands under its new key, pointed at what its references mean. -/
  stands : ∀ (before : List Key) (k : Key) (after : List Key), done = before ++ k :: after →
    ∀ r : Resource, ix.resources[k]? = some r →
      ∃ q, s.index.resources[s.renamed.key k]? = some q ∧
        Resource.Repointed (Means ix s.renamed.key before) r q
  /-- Nothing else stands in the index being built. -/
  comes : ∀ t ∈ s.index.resources, ∃ k ∈ done, s.renamed.key k = t

variable {ix : Index} {done : List Key} {s next : Qualifying} {k t ref : Key}

theorem qualified_eq_ok {out : Index} :
    ix.qualified = .ok out ↔
      ∃ s, ix.settled = .ok s ∧ s.index = out ∧ ix.traversal.cycle = none := by
  rw [qualified, settled, Result.bind_eq_ok]
  refine exists_congr fun s => and_congr_right fun _ => ?_
  cases hc : ix.traversal.cycle with
  | none => simp [Traversal.error?, hc]
  | some e => simp [Traversal.error?, hc]

theorem eq_singleton_of_nodup {ks : List Key} (hnodup : ks.Nodup) (ht : t ∈ ks)
    (h : ∀ u ∈ ks, u = t) : ks = [t] := by
  have hperm : List.Perm ks [t] :=
    (List.perm_ext_iff_of_nodup hnodup (List.nodup_singleton t)).2 fun u => by
      rw [List.mem_singleton]
      exact ⟨h u, fun hu => hu ▸ ht⟩
  exact List.perm_singleton.1 hperm

theorem newKey_eq (h : ix.settled = .ok s) : ix.newKey = s.renamed.key := by
  funext k
  simp [newKey, h]

theorem Means.congr {f g : Key → Key} {before : List Key} (hfg : ∀ k ∈ before, f k = g k)
    (h : Means ix f before ref t) : Means ix g before ref t := by
  obtain ⟨⟨k, hk, hpipe, rfl⟩, hmeans⟩ := h
  refine ⟨⟨k, hk, hpipe, (hfg k hk).symm⟩, ?_⟩
  split at hmeans
  · next hq =>
    rw [if_pos hq, hmeans]
    split
    · next href => exact hfg ref href
    · rfl
  · next hq =>
    rw [if_neg hq]
    exact ⟨hmeans.1, fun j hj hp hn => by rw [← hfg j hj, hmeans.2 j hj hp hn]⟩

namespace Settled

theorem start : Settled ix [] {} where
  coherent := .empty
  renamed_mem k t h := by simp at h
  stands before k after h := by simp at h
  comes t h := by simp [Index.empty] at h

theorem stands_of_mem (hs : Settled ix done s) (hk : k ∈ done) {r : Resource}
    (hr : ix.resources[k]? = some r) :
    ∃ before q, s.index.resources[s.renamed.key k]? = some q ∧
      Resource.Repointed (Means ix s.renamed.key before) r q := by
  obtain ⟨before, after, hdone⟩ := List.append_of_mem hk
  exact ⟨before, hs.stands before k after hdone r hr⟩

theorem name_newKey (hc : Coherent ix) (hs : Settled ix done s) (hk : k ∈ done) {r : Resource}
    (hr : ix.resources[k]? = some r) : (s.renamed.key k).name = k.name := by
  obtain ⟨before, q, hq, hrq⟩ := hs.stands_of_mem hk hr
  rw [← hs.coherent.key_eq hq, ← hc.key_eq hr]
  exact congrArg Metadata.name hrq.metadata

theorem keepsNames (hc : Coherent ix) (hdone : ∀ k ∈ done, k ∈ ix.resources)
    (hs : Settled ix done s) : s.renamed.KeepsNames := by
  intro k t hk
  have hmem := hs.renamed_mem k t hk
  obtain ⟨r, hr⟩ := Lookup.exists_of_mem (hdone k hmem)
  have hkey : s.renamed.key k = t := by simp [Renaming.key, hk]
  obtain ⟨before, q, hq, -⟩ := hs.stands_of_mem hmem hr
  rw [hkey] at hq
  have hstands : t ∈ s.index.resources := Lookup.mem hq
  exact ⟨hkey ▸ hs.name_newKey hc hmem hr, hs.coherent.isQualified hstands,
    hs.coherent.valid_key hstands⟩

/-- The pipes of the index being built are the new keys of the pipes taken. -/
theorem mem_pipes (hc : Coherent ix) (hdone : ∀ k ∈ done, k ∈ ix.resources)
    (hs : Settled ix done s) :
    t ∈ s.index.pipes ↔ ∃ k ∈ done, k ∈ ix.pipes ∧ s.renamed.key k = t := by
  constructor
  · intro ht
    obtain ⟨k, hk, rfl⟩ := hs.comes t (hs.coherent.mem_resources_of_pipes ht)
    obtain ⟨r, hr⟩ := Lookup.exists_of_mem (hdone k hk)
    obtain ⟨before, q, hq, hrq⟩ := hs.stands_of_mem hk hr
    obtain ⟨q', hq', hkind⟩ := hs.coherent.mem_pipes.1 ht
    cases hq.symm.trans hq'
    exact ⟨k, hk, hc.mem_pipes.2 ⟨r, hr, hrq.kind_eq ▸ hkind⟩, rfl⟩
  · rintro ⟨k, hk, hpipe, rfl⟩
    obtain ⟨r, hr, hkind⟩ := hc.mem_pipes.1 hpipe
    obtain ⟨before, q, hq, hrq⟩ := hs.stands_of_mem hk hr
    exact hs.coherent.mem_pipes.2 ⟨q, hq, hrq.kind_eq.trans hkind⟩

theorem key_of_not_mem (hs : Settled ix done s) (hk : k ∉ done) : s.renamed.key k = k := by
  cases h : s.renamed[k]? with
  | none => simp [Renaming.key, h]
  | some t => exact absurd (hs.renamed_mem k t h) hk

/-- In the index being built a bare name means the one new key of the pipes taken that have it. -/
theorem pipesNamed_eq_singleton (hc : Coherent ix) (hdone : ∀ k ∈ done, k ∈ ix.resources)
    (hs : Settled ix done s) {n : String} :
    s.index.pipesNamed n = [t] ↔ t ∈ s.index.pipes ∧ t.name = n ∧
      ∀ k ∈ done, k ∈ ix.pipes → k.name = n → s.renamed.key k = t := by
  constructor
  · intro h
    have hall : ∀ u, u ∈ s.index.pipes ∧ u.name = n ↔ u = t := by
      intro u
      rw [← hs.coherent.mem_pipesNamed, h, List.mem_singleton]
    obtain ⟨ht, hname⟩ := (hall t).2 rfl
    refine ⟨ht, hname, fun k hk hpipe hkname => (hall _).1 ⟨?_, ?_⟩⟩
    · exact (hs.mem_pipes hc hdone).2 ⟨k, hk, hpipe, rfl⟩
    · obtain ⟨r, hr, -⟩ := hc.mem_pipes.1 hpipe
      rw [hs.name_newKey hc hk hr, hkname]
  · rintro ⟨ht, hname, hall⟩
    refine eq_singleton_of_nodup pipesNamed_nodup (hs.coherent.mem_pipesNamed.2 ⟨ht, hname⟩) ?_
    intro u hu
    obtain ⟨hupipe, huname⟩ := hs.coherent.mem_pipesNamed.1 hu
    obtain ⟨k, hk, hpipe, rfl⟩ := (hs.mem_pipes hc hdone).1 hupipe
    obtain ⟨r, hr, -⟩ := hc.mem_pipes.1 hpipe
    exact hall k hk hpipe ((hs.name_newKey hc hk hr).symm.trans huname)

/-- The index being built resolves a renamed reference to what it means after the resources
taken. -/
theorem resolve_eq_ok (hc : Coherent ix) (hdone : ∀ k ∈ done, k ∈ ix.resources)
    (hs : Settled ix done s) :
    s.index.resolve (s.renamed.key ref) = .ok t ↔ Means ix s.renamed.key done ref t := by
  have hkey : s.renamed.key ref = if ref ∈ done then s.renamed.key ref else ref := by
    split
    · rfl
    · next h => exact hs.key_of_not_mem h
  unfold Means
  rw [← hs.mem_pipes hc hdone, ← hkey]
  by_cases hq : ref.isQualified
  · have hq' : (s.renamed.key ref).isQualified := by
      cases h : s.renamed[ref]? with
      | none => simpa [Renaming.key, h] using hq
      | some t => simpa [Renaming.key, h] using (hs.keepsNames hc hdone ref t h).2.1
    rw [resolve_qualified hq', if_pos hq]
    constructor
    · rintro ⟨hmem, rfl⟩
      exact ⟨hmem, rfl⟩
    · rintro ⟨hmem, rfl⟩
      exact ⟨hmem, rfl⟩
  · have hbare : ref ∉ done := fun h => hq (hc.isQualified (hdone ref h))
    rw [hs.key_of_not_mem hbare, resolve_bare (by simpa using hq), if_neg hq,
      hs.pipesNamed_eq_singleton hc hdone]

theorem exact_resolve (hs : Settled ix done s) : Exact s.index.resolve := by
  intro k t h
  have ht := hs.coherent.mem_resources_of_pipes (hs.coherent.mem_pipes_of_resolve h).1
  exact ⟨hs.coherent.isQualified ht, hs.coherent.valid_key ht⟩

theorem repointed_of_next (hc : Coherent ix) (hdone : ∀ k ∈ done, k ∈ ix.resources)
    (hs : Settled ix done s) {r : Resource} (hr : ix.resources[k]? = some r)
    (h : qualifyNext ix s k = .ok next) :
    ∃ q, s.index.add q = .ok (next.index, q.key) ∧
      Resource.Repointed (Means ix s.renamed.key done) r q ∧
      next.renamed = if q.key = k then s.renamed else s.renamed.insert k q.key := by
  simp only [qualifyNext, hr] at h
  obtain ⟨q, hq, h⟩ := Result.bind_eq_ok.1 h
  obtain ⟨⟨index, t⟩, hadd, h⟩ := Result.bind_eq_ok.1 h
  obtain ⟨-, rfl, -⟩ := add_eq_ok.1 hadd
  cases Result.pure_eq_ok.1 h
  have hrq := Resource.repointed_of_qualify (hs.keepsNames hc hdone) hs.exact_resolve hq
  exact ⟨q, hadd, hrq.imp fun ref _ t ht => (hs.resolve_eq_ok hc hdone).1 ht, rfl⟩

/-- Taking a resource gives its key a new one and leaves the keys before it as they are. -/
theorem key_next {renamed : Renaming} (hs : Settled ix done s) (hk : k ∉ done)
    (h : renamed = if t = k then s.renamed else s.renamed.insert k t) :
    renamed.key k = t ∧ (∀ j ∈ done, renamed.key j = s.renamed.key j) ∧
      ∀ j u : Key, renamed[j]? = some u → j ∈ done ++ [k] := by
  subst h
  by_cases htk : t = k
  · subst htk
    rw [if_pos rfl]
    exact ⟨hs.key_of_not_mem hk, fun _ _ => rfl, fun j u hj =>
      List.mem_append_left _ (hs.renamed_mem j u hj)⟩
  · rw [if_neg htk]
    refine ⟨by simp [Renaming.key], fun j hj => ?_, fun j u hj => ?_⟩
    · have hne : k ≠ j := by
        rintro rfl
        exact hk hj
      simp [Renaming.key, Std.ExtTreeMap.getElem?_insert, hne]
    · by_cases hkj : k = j
      · simp [hkj]
      · have hold : s.renamed[j]? = some u := by
          simpa [Std.ExtTreeMap.getElem?_insert, hkj] using hj
        exact List.mem_append_left _ (hs.renamed_mem j u hold)

theorem concat (hc : Coherent ix) (hdone : ∀ k ∈ done, k ∈ ix.resources) (hs : Settled ix done s)
    (hmem : k ∈ ix.resources) (hk : k ∉ done) (h : qualifyNext ix s k = .ok next) :
    Settled ix (done ++ [k]) next := by
  obtain ⟨r, hr⟩ := Lookup.exists_of_mem hmem
  obtain ⟨q, hadd, hrq, hrenamed⟩ := hs.repointed_of_next hc hdone hr h
  obtain ⟨hnew, hkept, honly⟩ := resources_of_add hadd
  obtain ⟨hkey, hsame, hmoved⟩ := hs.key_next hk hrenamed
  refine ⟨hs.coherent.add hadd, hmoved, ?_, fun t ht => ?_⟩
  · -- the resource taken is the last one, and what others mean depends on those before them
    intro before j after hsplit r' hr'
    rcases List.eq_nil_or_concat after with rfl | ⟨after, last, rfl⟩
    · obtain ⟨rfl, hjk⟩ := List.append_inj' hsplit rfl
      cases List.singleton_inj.1 hjk
      cases hr.symm.trans hr'
      rw [hkey]
      exact ⟨q, hnew, hrq.imp fun ref _ t => Means.congr fun i hi => (hsame i hi).symm⟩
    · rw [List.concat_eq_append, ← List.cons_append, ← List.append_assoc] at hsplit
      obtain ⟨hdonesplit, -⟩ := List.append_inj' hsplit rfl
      have hj : j ∈ done := by simp [hdonesplit]
      obtain ⟨q', hq', hrq'⟩ := hs.stands before j after hdonesplit r' hr'
      rw [hsame j hj]
      refine ⟨q', hkept _ _ hq', hrq'.imp fun ref _ t => Means.congr fun i hi => ?_⟩
      exact (hsame i (by simp [hdonesplit, hi])).symm
  · rcases honly t ht with rfl | ht
    · exact ⟨k, by simp, hkey⟩
    · obtain ⟨j, hj, rfl⟩ := hs.comes t ht
      exact ⟨j, List.mem_append_left _ hj, hsame j hj⟩

theorem of_foldlM (hc : Coherent ix) (hdone : ∀ k ∈ done, k ∈ ix.resources) (hnodup : done.Nodup)
    (h : done.foldlM (qualifyNext ix) {} = .ok s) : Settled ix done s := by
  induction done using List.reverseRecOn generalizing s with
  | nil =>
    cases Result.pure_eq_ok.1 h
    exact start
  | append_singleton done k ih =>
    obtain ⟨d, hd, hnext⟩ := Result.foldlM_concat_eq_ok.1 h
    obtain ⟨hnodup, -, hdisj⟩ := List.nodup_append.1 hnodup
    have hdone' : ∀ j ∈ done, j ∈ ix.resources := fun j hj => hdone j (List.mem_append_left _ hj)
    have hk : k ∉ done := fun hk => hdisj k hk k (by simp) rfl
    exact (ih hdone' hnodup hd).concat hc hdone' (hdone k (by simp)) hk hnext

end Settled

section whole

variable {out : Index} {r : Resource}

/-- The keys that the traversal emits before a key. -/
def emittedBefore (ix : Index) (k : Key) : List Key := ix.traversal.emitted.takeWhile (· ≠ k)

theorem mem_dependencies : k ∈ ix.dependencies ↔ k ∈ ix.resources := by
  rw [dependencies, Std.ExtTreeMap.mem_map]

theorem mem_resources_of_emitted (h : k ∈ ix.traversal.emitted) : k ∈ ix.resources :=
  mem_dependencies.1 (Graph.mem_of_mem_order h)

theorem mem_emitted_of_no_cycle (h : ix.traversal.cycle = none) :
    k ∈ ix.traversal.emitted ↔ k ∈ ix.resources :=
  ⟨mem_resources_of_emitted, fun hk => Graph.mem_order_of_no_cycle h (mem_dependencies.2 hk)⟩

theorem mem_emitted (h : ix.qualified = .ok out) :
    k ∈ ix.traversal.emitted ↔ k ∈ ix.resources := by
  obtain ⟨-, -, -, hcycle⟩ := qualified_eq_ok.1 h
  exact mem_emitted_of_no_cycle hcycle

theorem mem_emitted_of_before {j : Key} (h : j ∈ ix.emittedBefore k) :
    j ∈ ix.traversal.emitted :=
  (List.takeWhile_sublist _).subset h

theorem emitted_split (h : k ∈ ix.traversal.emitted) :
    ∃ after, ix.traversal.emitted = ix.emittedBefore k ++ k :: after := by
  unfold emittedBefore
  generalize ix.traversal.emitted = keys at h ⊢
  induction keys with
  | nil => simp at h
  | cons first rest ih =>
    by_cases hk : first = k
    · exact ⟨rest, by simp [hk]⟩
    · obtain ⟨after, hafter⟩ := ih ((List.mem_cons.1 h).resolve_left (Ne.symm hk))
      refine ⟨after, ?_⟩
      rw [List.takeWhile_cons_of_pos (by simpa using hk), List.cons_append, ← hafter]

/-- The resource that a reference means in the index comes before the referring one. -/
theorem mem_emittedBefore_of_resolve (hc : Coherent ix) (hk : k ∈ ix.traversal.emitted)
    (hr : ix.resources[k]? = some r) (href : ref ∈ r.references) (ht : ix.resolve ref = .ok t) :
    t ∈ ix.emittedBefore k := by
  obtain ⟨after, hsplit⟩ := emitted_split hk
  have hdeps : ix.dependencies[k]? = some (Std.ExtTreeSet.ofList
      (r.references.filterMap fun ref => (ix.resolve ref).toOption)) := by
    simp [dependencies, hr]
  refine Graph.order_deps_before hsplit hdeps ?_ ?_
  · rw [Std.ExtTreeSet.mem_ofList, List.contains_iff_mem, List.mem_filterMap]
    exact ⟨ref, href, by simp [ht, Except.toOption]⟩
  · exact mem_dependencies.2 (hc.mem_resources_of_pipes (hc.mem_pipes_of_resolve ht).1)

theorem settled_of_qualified (hc : Coherent ix) (h : ix.qualified = .ok out) :
    ∃ s, s.index = out ∧ ix.newKey = s.renamed.key ∧ Settled ix ix.traversal.emitted s := by
  obtain ⟨s, hs, hout, -⟩ := qualified_eq_ok.1 h
  exact ⟨s, hout, newKey_eq hs,
    Settled.of_foldlM hc (fun _ => mem_resources_of_emitted) Graph.order_nodup hs⟩

theorem Coherent.qualified (hc : Coherent ix) (h : ix.qualified = .ok out) : Coherent out := by
  obtain ⟨s, rfl, -, hs⟩ := settled_of_qualified hc h
  exact hs.coherent

/-- Every resource stands in the qualified index under its new key, pointed at what its references
mean there. -/
theorem repointed_of_qualified (hc : Coherent ix) (h : ix.qualified = .ok out)
    (hr : ix.resources[k]? = some r) :
    ∃ q, out.resources[ix.newKey k]? = some q ∧
      Resource.Repointed (Means ix ix.newKey (ix.emittedBefore k)) r q := by
  obtain ⟨s, rfl, hnew, hs⟩ := settled_of_qualified hc h
  have hk : k ∈ ix.resources := Lookup.mem hr
  obtain ⟨after, hsplit⟩ := emitted_split ((mem_emitted h).2 hk)
  rw [hnew]
  exact hs.stands _ _ _ hsplit r hr

theorem exists_newKey_of_qualified (hc : Coherent ix) (h : ix.qualified = .ok out)
    (ht : t ∈ out.resources) : ∃ k ∈ ix.resources, ix.newKey k = t := by
  obtain ⟨s, rfl, hnew, hs⟩ := settled_of_qualified hc h
  obtain ⟨k, hk, rfl⟩ := hs.comes t ht
  exact ⟨k, mem_resources_of_emitted hk, by rw [hnew]⟩

theorem name_newKey_of_qualified (hc : Coherent ix) (h : ix.qualified = .ok out)
    (hk : k ∈ ix.resources) : (ix.newKey k).name = k.name := by
  obtain ⟨s, rfl, hnew, hs⟩ := settled_of_qualified hc h
  obtain ⟨r, hr⟩ := Lookup.exists_of_mem hk
  rw [hnew]
  exact hs.name_newKey hc ((mem_emitted h).2 hk) hr

end whole

end PagePipes.Index
