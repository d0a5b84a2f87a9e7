import Mathlib.Data.List.Induction
import PagePipes.Index
import PagePipes.Proofs.WrittenKeys

set_option autoImplicit false

/-!
# Coherent indexes

The five maps of an index that additions and removals lead to agree: every resource is valid and
stands under its own key, the maps by kind hold the specs of the resources of that kind, and the map
by name holds the keys of the resources by their names.
-/
namespace PagePipes

namespace Resource

variable {r : Resource}

theorem validate_eq_ok : r.validate = .ok () ↔
    r.version = currentVersion ∧ Key.validateName r.name = .ok () ∧ r.spec.validate = .ok () := by
  unfold validate
  split
  · next hversion => simp only [Result.throw_bind, hversion, reduceCtorEq, false_and]
  · next hversion =>
    rw [ne_eq, not_not] at hversion
    cases hname : Key.validateName r.name <;> simp [hversion]

theorem valid_key (h : Key.validateName r.name = .ok ()) : r.key.Valid where
  name := h
  digest d hd := by
    cases hd
    exact Key.validateDigest_digestText _

end Resource

namespace Index

/-- The indexes that additions and removals lead to. -/
inductive Built : Index → Prop
  | empty : Built .empty
  | add {ix next : Index} {r : Resource} {k : Key} (h : Built ix)
      (ha : ix.add r = .ok (next, k)) : Built next
  | remove {ix : Index} (k : Key) (h : Built ix) : Built (ix.remove k).1

structure Coherent (ix : Index) : Prop where
  key_eq : ∀ {k : Key} {r : Resource}, ix.resources[k]? = some r → r.key = k
  valid : ∀ {k : Key} {r : Resource}, ix.resources[k]? = some r → r.validate = .ok ()
  pipes_eq : ∀ k : Key, ix.pipes[k]? = (ix.resources[k]?).bind Resource.pipe?
  views_eq : ∀ k : Key, ix.views[k]? = (ix.resources[k]?).bind Resource.view?
  rules_eq : ∀ k : Key, ix.rules[k]? = (ix.resources[k]?).bind Resource.rule?
  mem_keysOf : ∀ {k : Key} {n : String}, k ∈ ix.keysOf n ↔ k ∈ ix.resources ∧ k.name = n
  names_ne : ∀ n : String, ix.names[n]? ≠ some ∅

/-- The pipes that a bare name may stand for. -/
def pipesNamed (ix : Index) (name : String) : List Key :=
  (ix.keysOf name).toList.filter (· ∈ ix.pipes)

section put

variable {ix : Index} {k j : Key} {r : Resource}

@[simp] theorem resources_put : (ix.put k r).resources = ix.resources.insert k r := by
  simp only [put, putSpec]
  cases r.spec <;> rfl

theorem names_put :
    (ix.put k r).names = ix.names.insert k.name ((ix.keysOf k.name).insert k) := by
  simp only [put, putSpec]
  cases r.spec <;> rfl

theorem keysOf_put {n : String} :
    (ix.put k r).keysOf n = if k.name = n then (ix.keysOf n).insert k else ix.keysOf n := by
  rw [keysOf, names_put, Std.ExtTreeMap.getElem?_insert]
  by_cases h : k.name = n
  · simp [h]
  · simp [h, keysOf]

theorem getElem?_pipes_put :
    (ix.put k r).pipes[j]? = if k = j ∧ r.pipe?.isSome then r.pipe? else ix.pipes[j]? := by
  by_cases h : k = j <;>
    cases hs : r.spec <;> simp [put, putSpec, Resource.pipe?, hs, h, Std.ExtTreeMap.getElem?_insert]

theorem getElem?_views_put :
    (ix.put k r).views[j]? = if k = j ∧ r.view?.isSome then r.view? else ix.views[j]? := by
  by_cases h : k = j <;>
    cases hs : r.spec <;> simp [put, putSpec, Resource.view?, hs, h, Std.ExtTreeMap.getElem?_insert]

theorem getElem?_rules_put :
    (ix.put k r).rules[j]? = if k = j ∧ r.rule?.isSome then r.rule? else ix.rules[j]? := by
  by_cases h : k = j <;>
    cases hs : r.spec <;> simp [put, putSpec, Resource.rule?, hs, h, Std.ExtTreeMap.getElem?_insert]

theorem kind_put {α : Type} {m next : Key.Map α} {pick : Resource → Option α}
    (hput : ∀ j : Key, next[j]? = if k = j ∧ (pick r).isSome then pick r else m[j]?)
    (hfree : ix.resources[k]? = none) (h : ∀ j : Key, m[j]? = (ix.resources[j]?).bind pick) (j : Key) :
    next[j]? = ((ix.put k r).resources[j]?).bind pick := by
  rw [hput, resources_put, Std.ExtTreeMap.getElem?_insert, h]
  by_cases hk : k = j
  · subst hk
    cases hp : pick r <;> simp [hfree, hp]
  · simp [hk]

end put

/-- An addition that succeeds either finds the resource or puts it under a key that was free. -/
theorem add_eq_ok {ix next : Index} {r : Resource} {k : Key} :
    ix.add r = .ok (next, k) ↔ r.validate = .ok () ∧ k = r.key ∧
      ((ix.resources[r.key]? = some r ∧ next = ix) ∨
        (ix.resources[r.key]? = none ∧ next = ix.put r.key r)) := by
  rw [add, Result.bind_eq_ok]
  constructor
  · rintro ⟨⟨⟩, hv, h⟩
    refine ⟨hv, ?_⟩
    cases hr : ix.resources[r.key]? with
    | none =>
      simp only [hr] at h
      cases Result.pure_eq_ok.1 h
      exact ⟨rfl, .inr ⟨rfl, rfl⟩⟩
    | some existing =>
      simp only [hr] at h
      split at h
      · next heq =>
        cases Result.pure_eq_ok.1 h
        exact ⟨rfl, .inl ⟨by rw [heq], rfl⟩⟩
      · exact absurd h Result.throw_ne_ok
  · rintro ⟨hv, rfl, ⟨hr, rfl⟩ | ⟨hr, rfl⟩⟩
    · exact ⟨(), hv, by simp [hr]⟩
    · exact ⟨(), hv, by simp [hr]⟩

/-- An addition keeps every resource, and its own resource is the only one that it may bring. -/
theorem resources_of_add {ix next : Index} {r : Resource} {k : Key}
    (h : ix.add r = .ok (next, k)) :
    next.resources[k]? = some r ∧
      (∀ (j : Key) (q : Resource), ix.resources[j]? = some q → next.resources[j]? = some q) ∧
      ∀ j ∈ next.resources, j = k ∨ j ∈ ix.resources := by
  obtain ⟨-, rfl, ⟨hr, rfl⟩ | ⟨hr, rfl⟩⟩ := add_eq_ok.1 h
  · exact ⟨hr, fun _ _ hj => hj, fun _ hj => .inr hj⟩
  · refine ⟨by simp, fun j q hj => ?_, fun j hj => ?_⟩
    · have hne : r.key ≠ j := by
        rintro rfl
        simp [hr] at hj
      simpa [Std.ExtTreeMap.getElem?_insert, hne] using hj
    · rw [resources_put, Std.ExtTreeMap.mem_insert] at hj
      exact hj.imp (fun h => (Std.LawfulEqCmp.eq_of_compare h).symm) id

theorem Coherent.empty : Coherent .empty where
  key_eq h := by simp [Index.empty] at h
  valid h := by simp [Index.empty] at h
  pipes_eq k := by simp [Index.empty]
  views_eq k := by simp [Index.empty]
  rules_eq k := by simp [Index.empty]
  mem_keysOf := by simp [Index.empty, keysOf]
  names_ne n := by simp [Index.empty]

theorem Coherent.put {ix : Index} {r : Resource} (hc : Coherent ix) (hv : r.validate = .ok ())
    (hr : ix.resources[r.key]? = none) : Coherent (ix.put r.key r) where
  key_eq := by
    intro k q h
    rw [resources_put, Std.ExtTreeMap.getElem?_insert] at h
    by_cases hk : r.key = k
    · simp only [hk, Std.compare_self, ↓reduceIte, Option.some.injEq] at h
      rw [← h, hk]
    · exact hc.key_eq (by simpa [hk] using h)
  valid := by
    intro k q h
    rw [resources_put, Std.ExtTreeMap.getElem?_insert] at h
    by_cases hk : r.key = k
    · simp only [hk, Std.compare_self, ↓reduceIte, Option.some.injEq] at h
      rw [← h, hv]
    · exact hc.valid (by simpa [hk] using h)
  pipes_eq := kind_put (fun _ => getElem?_pipes_put) hr hc.pipes_eq
  views_eq := kind_put (fun _ => getElem?_views_put) hr hc.views_eq
  rules_eq := kind_put (fun _ => getElem?_rules_put) hr hc.rules_eq
  mem_keysOf := by
    intro k n
    rw [keysOf_put, resources_put, Std.ExtTreeMap.mem_insert]
    by_cases hn : r.key.name = n
    · by_cases hk : r.key = k
      · simp [hn, ← hk]
      · simp [hn, hk, hc.mem_keysOf]
    · have hk : k.name = n → r.key ≠ k := by
        rintro rfl rfl
        exact hn rfl
      simp only [hn, ↓reduceIte, hc.mem_keysOf, Std.LawfulEqCmp.compare_eq_iff_eq]
      constructor
      · exact fun h => ⟨.inr h.1, h.2⟩
      · exact fun h => ⟨h.1.resolve_left (hk h.2), h.2⟩
  names_ne n := by
    rw [names_put, Std.ExtTreeMap.getElem?_insert]
    by_cases hn : r.key.name = n
    · simp [hn]
    · simpa [hn] using hc.names_ne n

theorem Coherent.add {ix next : Index} {r : Resource} {k : Key} (hc : Coherent ix)
    (h : ix.add r = .ok (next, k)) : Coherent next := by
  obtain ⟨hv, -, ⟨-, rfl⟩ | ⟨hr, rfl⟩⟩ := add_eq_ok.1 h
  · exact hc
  · exact hc.put hv hr

section remove

variable {ix : Index} {k : Key} {r : Resource}

theorem remove_of_absent (h : ix.resources[k]? = none) : (ix.remove k).1 = ix := by
  simp [remove, h]

theorem resources_remove (h : ix.resources[k]? = some r) :
    (ix.remove k).1.resources = ix.resources.erase k := by
  simp [remove, h]

theorem names_remove (h : ix.resources[k]? = some r) :
    (ix.remove k).1.names = dropName ix.names k := by
  simp [remove, h]

theorem getElem?_dropName {names : Std.ExtTreeMap String KeySet} {n : String} :
    (dropName names k)[n]? =
      if k.name = n then ((names[n]?).map fun keys : KeySet => keys.erase k).filter (· ≠ ∅) else names[n]? := by
  unfold dropName
  by_cases hn : k.name = n
  · subst hn
    cases hs : names[k.name]? with
    | none => simp [hs]
    | some keys =>
      by_cases he : keys.erase k = ∅
      · simp [he, Option.filter_some]
      · have he' : (keys.erase k).isEmpty = false := Std.ExtTreeSet.isEmpty_eq_false_iff.2 he
        simp [he, he', Option.filter_some]
  · cases hs : names[k.name]? with
    | none => simp [hn]
    | some keys =>
      dsimp only
      split <;> simp [Std.ExtTreeMap.getElem?_erase, Std.ExtTreeMap.getElem?_insert, hn]

theorem keysOf_remove (h : ix.resources[k]? = some r) {n : String} :
    (ix.remove k).1.keysOf n = if k.name = n then (ix.keysOf n).erase k else ix.keysOf n := by
  rw [keysOf, names_remove h, getElem?_dropName]
  by_cases hn : k.name = n
  · cases hs : ix.names[n]? with
    | none => simp [hn, hs, keysOf]
    | some keys =>
      by_cases he : keys.erase k = ∅
      · simp [hn, hs, he, keysOf, Option.filter_some]
      · simp [hn, hs, he, keysOf, Option.filter_some]
  · simp [hn, keysOf]

theorem kind_erase {α : Type} {m : Key.Map α} {pick : Resource → Option α}
    (hr : ix.resources[k]? = some r) (h : ∀ j : Key, m[j]? = (ix.resources[j]?).bind pick)
    (j : Key) : (m.erase k)[j]? = ((ix.remove k).1.resources[j]?).bind pick := by
  rw [resources_remove hr, Std.ExtTreeMap.getElem?_erase, Std.ExtTreeMap.getElem?_erase, h]
  by_cases hk : k = j
  · simp [hk]
  · simp [hk]

end remove

theorem Coherent.remove {ix : Index} (hc : Coherent ix) (k : Key) :
    Coherent (ix.remove k).1 := by
  cases hr : ix.resources[k]? with
  | none => rwa [remove_of_absent hr]
  | some r =>
    have kept : ∀ {j : Key} {q : Resource}, (ix.remove k).1.resources[j]? = some q →
        ix.resources[j]? = some q := by
      intro j q h
      rw [resources_remove hr, Std.ExtTreeMap.getElem?_erase] at h
      by_cases hk : k = j
      · simp [hk] at h
      · simpa [hk] using h
    refine ⟨fun h => hc.key_eq (kept h), fun h => hc.valid (kept h), ?_, ?_, ?_, ?_, ?_⟩
    · simpa [Index.remove, hr] using kind_erase hr hc.pipes_eq
    · simpa [Index.remove, hr] using kind_erase hr hc.views_eq
    · simpa [Index.remove, hr] using kind_erase hr hc.rules_eq
    · intro j n
      rw [keysOf_remove hr, resources_remove hr, Std.ExtTreeMap.mem_erase]
      by_cases hn : k.name = n
      · simp [hn, hc.mem_keysOf, and_assoc]
      · have hk : j.name = n → k ≠ j := by
          rintro rfl rfl
          exact hn rfl
        simp only [hn, ↓reduceIte, hc.mem_keysOf, ne_eq, Std.LawfulEqCmp.compare_eq_iff_eq]
        exact ⟨fun h => ⟨⟨hk h.2, h.1⟩, h.2⟩, fun h => ⟨h.1.2, h.2⟩⟩
    · intro n
      rw [names_remove hr, getElem?_dropName]
      by_cases hn : k.name = n
      · simp [hn]
      · simpa [hn] using hc.names_ne n

theorem Built.coherent {ix : Index} (h : Built ix) : Coherent ix := by
  induction h with
  | empty => exact .empty
  | add _ ha ih => exact ih.add ha
  | remove k _ ih => exact ih.remove k

/-- The index of the resources of a list, added one after another. -/
def ofResources (rs : List Resource) : Result Index :=
  rs.foldlM (fun ix r => (·.1) <$> ix.add r) .empty

theorem Built.ofResources {rs : List Resource} {ix : Index} (h : Index.ofResources rs = .ok ix) :
    Built ix := by
  unfold Index.ofResources at h
  induction rs using List.reverseRecOn generalizing ix with
  | nil =>
    cases Result.pure_eq_ok.1 h
    exact .empty
  | append_singleton rs r ih =>
    obtain ⟨before, hbefore, hadd⟩ := Result.foldlM_concat_eq_ok.1 h
    obtain ⟨_, hr, rfl⟩ := Result.map_eq_ok.1 hadd
    exact (ih hbefore).add hr

section resolve

variable {ix : Index} {k t : Key}

theorem Coherent.getElem?_pipes (hc : Coherent ix) {p : Pipe} :
    ix.pipes[k]? = some p ↔ ∃ r, ix.resources[k]? = some r ∧ r.spec = .pipe p := by
  rw [hc.pipes_eq]
  cases ix.resources[k]? with
  | none => simp
  | some r => cases hs : r.spec <;> simp [Resource.pipe?, hs]

theorem Coherent.mem_resources_of_pipes (hc : Coherent ix) (h : k ∈ ix.pipes) :
    k ∈ ix.resources := by
  obtain ⟨p, hp⟩ := Lookup.exists_of_mem h
  obtain ⟨r, hr, -⟩ := hc.getElem?_pipes.1 hp
  exact Lookup.mem hr

theorem Coherent.isQualified (hc : Coherent ix) (h : k ∈ ix.resources) : k.isQualified := by
  obtain ⟨r, hr⟩ := Lookup.exists_of_mem h
  rw [← hc.key_eq hr]
  rfl

theorem Coherent.mem_pipes (hc : Coherent ix) :
    k ∈ ix.pipes ↔ ∃ r, ix.resources[k]? = some r ∧ r.kind = .pipe := by
  rw [Std.ExtTreeMap.mem_iff_isSome_getElem?, hc.pipes_eq]
  cases ix.resources[k]? with
  | none => simp
  | some r => cases hs : r.spec <;> simp [Resource.pipe?, Resource.kind, Spec.kind, hs]

theorem Coherent.valid_key (hc : Coherent ix) (h : k ∈ ix.resources) : k.Valid := by
  obtain ⟨r, hr⟩ := Lookup.exists_of_mem h
  obtain ⟨-, hname, -⟩ := Resource.validate_eq_ok.1 (hc.valid hr)
  rw [← hc.key_eq hr]
  exact Resource.valid_key hname

theorem Coherent.mem_pipesNamed (hc : Coherent ix) {n : String} :
    k ∈ ix.pipesNamed n ↔ k ∈ ix.pipes ∧ k.name = n := by
  simp only [pipesNamed, List.mem_filter, Std.ExtTreeSet.mem_toList, hc.mem_keysOf,
    decide_eq_true_eq]
  exact ⟨fun h => ⟨h.2, h.1.2⟩, fun h => ⟨⟨hc.mem_resources_of_pipes h.1, h.2⟩, h.1⟩⟩

theorem pipesNamed_nodup {n : String} : (ix.pipesNamed n).Nodup := by
  refine List.Pairwise.filter _ (List.Pairwise.imp ?_ Std.ExtTreeSet.distinct_toList)
  intro a b h hab
  exact h (by simp [hab])

theorem resolve_qualified (hk : k.isQualified) :
    ix.resolve k = .ok t ↔ k ∈ ix.pipes ∧ t = k := by
  rw [resolve, if_pos hk]
  split
  · next h => simp [h, eq_comm]
  · next h => simp [h]

theorem resolve_bare (hk : k.isQualified = false) :
    ix.resolve k = .ok t ↔ ix.pipesNamed k.name = [t] := by
  rw [resolve, if_neg (by simp [hk]), ← pipesNamed]
  split
  · next h => simp [h]
  · next only h => simp [h]
  · next many hnil hone => simpa using fun h => hone t h

theorem Coherent.mem_pipes_of_resolve (hc : Coherent ix) (h : ix.resolve k = .ok t) :
    t ∈ ix.pipes ∧ t.name = k.name := by
  by_cases hk : k.isQualified
  · obtain ⟨hmem, rfl⟩ := (resolve_qualified hk).1 h
    exact ⟨hmem, rfl⟩
  · rw [resolve_bare (by simpa using hk)] at h
    exact hc.mem_pipesNamed.1 (by simp [h])

end resolve

end Index
end PagePipes
