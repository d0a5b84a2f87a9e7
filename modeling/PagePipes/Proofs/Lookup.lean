import Mathlib.Data.List.Nodup
import Std.Data.ExtTreeMap

set_option autoImplicit false

/-!
# Lookups

The keys of a map are those that a lookup answers a value for. A row of a table is found by its key
when no two rows have one key.
-/
namespace PagePipes.Lookup

section map

variable {α β : Type} [Ord α] [Std.TransOrd α] {m : Std.ExtTreeMap α β} {k : α}

theorem mem {v : β} (h : m[k]? = some v) : k ∈ m := by
  rw [Std.ExtTreeMap.mem_iff_isSome_getElem?, h]
  rfl

theorem exists_of_mem (h : k ∈ m) : ∃ v, m[k]? = some v :=
  ⟨_, Std.ExtTreeMap.getElem?_eq_some_getElem h⟩

/-- A map made of a list without repeated keys holds the entries of the list. -/
theorem getElem?_ofList [Std.LawfulEqOrd α] [BEq α] [LawfulBEq α] {entries : List (α × β)} {v : β}
    (hdistinct : (entries.map (·.1)).Nodup) :
    (Std.ExtTreeMap.ofList entries)[k]? = some v ↔ (k, v) ∈ entries := by
  have hpairwise : entries.Pairwise fun a b => ¬ compare a.1 b.1 = .eq :=
    (List.pairwise_map.1 hdistinct).imp fun hne heq => hne (Std.LawfulEqOrd.eq_of_compare heq)
  have hof : ∀ w, (k, w) ∈ entries → (Std.ExtTreeMap.ofList entries)[k]? = some w := fun w hw =>
    Std.ExtTreeMap.getElem?_ofList_of_mem Std.ReflCmp.compare_self hpairwise hw
  refine ⟨fun h => ?_, hof v⟩
  have hk : k ∈ entries.map (·.1) := List.contains_iff_mem.1 (Std.ExtTreeMap.mem_ofList.1 (mem h))
  obtain ⟨⟨_, w⟩, hw, rfl⟩ := List.mem_map.1 hk
  cases h.symm.trans (hof w hw)
  exact hw

end map

section rows

variable {α β : Type} [BEq β] [LawfulBEq β] {key : α → β} {rows : List α} {row : α}

theorem find?_key (hnodup : (rows.map key).Nodup) (hrow : row ∈ rows) :
    rows.find? (key · == key row) = some row := by
  cases hfind : rows.find? (key · == key row) with
  | none => simpa using List.find?_eq_none.1 hfind row hrow
  | some other =>
    have hkey : key other = key row := by simpa using List.find?_some hfind
    rw [List.inj_on_of_nodup_map hnodup (List.mem_of_find?_eq_some hfind) hrow hkey]

theorem filter_key (hnodup : (rows.map key).Nodup) (hrow : row ∈ rows) :
    rows.filter (key · == key row) = [row] := by
  refine List.perm_singleton.1 ((List.perm_ext_iff_of_nodup (hnodup.of_map.filter _)
    (List.nodup_singleton row)).2 fun other => ?_)
  rw [List.mem_filter, beq_iff_eq, List.mem_singleton]
  constructor
  · rintro ⟨hother, hkey⟩
    exact List.inj_on_of_nodup_map hnodup hother hrow hkey
  · rintro rfl
    exact ⟨hrow, rfl⟩

theorem filter_lookup {entries : List (β × α)} (hnodup : (entries.map (·.1)).Nodup) (k : β) :
    entries.filter (·.1 == k) = (entries.lookup k).toList.map (k, ·) := by
  cases hk : entries.lookup k with
  | none =>
    refine List.filter_eq_nil_iff.2 fun e he hkey => ?_
    simpa [beq_iff_eq.1 hkey] using List.lookup_eq_none_iff.1 hk e he
  | some v =>
    obtain ⟨before, after, rfl, -⟩ := List.lookup_eq_some_iff.1 hk
    exact @filter_key _ _ _ _ (fun e : β × α => e.1) _ (k, v) hnodup (by simp)

theorem lookup_eq_some_iff_mem {entries : List (β × α)} (hnodup : (entries.map (·.1)).Nodup) {k : β}
    {v : α} : entries.lookup k = some v ↔ (k, v) ∈ entries := by
  have hmem : (k, v) ∈ entries.filter (·.1 == k) ↔ (k, v) ∈ (entries.lookup k).toList.map (k, ·) := by
    rw [filter_lookup hnodup]
  simpa using hmem.symm

theorem lookup_reverse {entries : List (β × α)} (hnodup : (entries.map (·.1)).Nodup) (k : β) :
    entries.reverse.lookup k = entries.lookup k := by
  have hreverse : (entries.reverse.map (·.1)).Nodup := by
    rwa [List.map_reverse, List.nodup_reverse]
  ext v
  rw [lookup_eq_some_iff_mem hreverse, lookup_eq_some_iff_mem hnodup, List.mem_reverse]

/-- Adding an entry only where its key is new is adding it: the first entry of a key counts. -/
theorem lookup_addNew {entries : List (β × α)} {k l : β} {v : α} :
    (if entries.any (·.1 == k) then entries else entries ++ [(k, v)]).lookup l =
      (entries ++ [(k, v)]).lookup l := by
  split
  case isFalse => rfl
  case isTrue hany =>
    obtain ⟨e, he, hkey⟩ := List.any_eq_true.1 hany
    cases hl : entries.lookup l with
    | some w => rw [List.lookup_append, hl, Option.some_or]
    | none =>
      have hne : (l == k) = false := by
        rw [← eq_of_beq hkey]
        simpa using List.lookup_eq_none_iff.1 hl e he
      simp [List.lookup_append, List.lookup_cons, hl, hne]

end rows

end PagePipes.Lookup
