import PagePipes.Proofs.Database.Stored

set_option autoImplicit false

/-!
# Qualification against stored pipes

A reference to a stored pipe is qualified to the key that it means: a key stands for itself, and a
bare name for the only stored pipe of the name. What is qualified is indexed with every stored pipe
that has the name of a reference, so all of these have to match their digests.
-/
namespace PagePipes.Database

variable {db next : Database} {ix : Index} {k t : Key} {row : PipeRow} {rows : List PipeRow}
  {references : List Key}

theorem foldlM_indexPipe_succeeds (hrows : ∀ row ∈ rows, ∃ r, row.Indexes r)
    (hkeys : ∀ a ∈ rows, ∀ b ∈ rows, a.key = b.key → a = b) :
    ∃ ix, rows.foldlM indexPipe .empty = .ok ix := by
  induction rows using List.reverseRecOn with
  | nil => exact ⟨.empty, rfl⟩
  | append_singleton rows row ih =>
    obtain ⟨before, hbefore⟩ := ih (fun s hs => hrows s (List.mem_append_left _ hs))
      fun a ha b hb => hkeys a (List.mem_append_left _ ha) b (List.mem_append_left _ hb)
    obtain ⟨r, hr⟩ := hrows row (by simp)
    obtain ⟨p, hp, rfl, hvalid, hkey⟩ := id hr
    obtain ⟨next, hadd⟩ : ∃ next, before.add (.ofSpec row.key.name (.pipe p)) = .ok (next, row.key) := by
      simp only [Index.add_eq_ok, hvalid, hkey, true_and]
      cases hget : before.resources[row.key]? with
      | none => exact ⟨_, .inr ⟨rfl, rfl⟩⟩
      | some q =>
        -- only the row itself can have put a resource under its key
        obtain ⟨s, hs, hsrow⟩ := (indexed_of_foldlM hbefore).only _ (Lookup.mem hget)
        obtain rfl := hkeys s (List.mem_append_left _ hs) row (by simp) hsrow
        obtain ⟨q', hq', hget'⟩ := (indexed_of_foldlM hbefore).holds s hs
        cases hget.symm.trans hget'
        exact ⟨before, .inl ⟨by rw [hr.unique hq'], rfl⟩⟩
    exact ⟨next, Result.foldlM_concat_eq_ok.2 ⟨before, hbefore, indexPipe_iff.2 ⟨_, hr, hadd⟩⟩⟩

/-! ## Pipes of a name -/

/-- An index of the rows that have the names of references holds all stored pipes of these names. -/
theorem Indexed.mem_pipes_iff (hix : Indexed (db.rowsNamed references) ix) (hk : k ∈ references)
    (hname : t.name = k.name) : t ∈ ix.pipes ↔ db.Stores t := by
  rw [hix.coherent.mem_pipes]
  constructor
  · rintro ⟨r, hr, -⟩
    obtain ⟨row, hrow, rfl⟩ := hix.only t (Lookup.mem hr)
    exact ⟨row, (mem_rowsNamed.1 hrow).1, rfl⟩
  · rintro ⟨row, hrow, rfl⟩
    obtain ⟨r, ⟨p, -, rfl, -⟩, hget⟩ := hix.holds row (mem_rowsNamed.2 ⟨hrow, k, hk, hname.symm⟩)
    exact ⟨_, hget, rfl⟩

theorem Indexed.mem_pipesNamed_iff (hix : Indexed (db.rowsNamed references) ix) (hk : k ∈ references) :
    t ∈ ix.pipesNamed k.name ↔ db.Stores t ∧ t.name = k.name := by
  rw [hix.coherent.mem_pipesNamed]
  exact and_congr_left fun hname => hix.mem_pipes_iff hk hname

/-! ## What references mean -/

/-- A key means itself, and a bare name the only stored pipe of the name. -/
structure Means (db : Database) (k t : Key) : Prop where
  stores : db.Stores t
  name_eq : t.name = k.name
  exact : k.isQualified = true → t = k
  only : k.isQualified = false → ∀ s, db.Stores s → s.name = k.name → s = t

theorem resolve_iff_means (hix : Indexed (db.rowsNamed references) ix) (hk : k ∈ references) :
    ix.resolve k = .ok t ↔ db.Means k t := by
  cases hq : k.isQualified with
  | true =>
    rw [Index.resolve_qualified hq, hix.mem_pipes_iff hk rfl]
    constructor
    · rintro ⟨hstored, rfl⟩
      exact ⟨hstored, rfl, fun _ => rfl, fun hbare => by simp [hq] at hbare⟩
    · intro h
      cases h.exact hq
      exact ⟨h.stores, rfl⟩
  | false =>
    have hnamed : ∀ s, s ∈ ix.pipesNamed k.name ↔ db.Stores s ∧ s.name = k.name :=
      fun s => hix.mem_pipesNamed_iff hk
    rw [Index.resolve_bare hq]
    constructor
    · intro h
      simp only [h, List.mem_singleton] at hnamed
      obtain ⟨hstored, hname⟩ := (hnamed t).1 rfl
      exact ⟨hstored, hname, fun hbare => by simp [hq] at hbare,
        fun _ s hs hsname => (hnamed s).2 ⟨hs, hsname⟩⟩
    · intro h
      refine List.perm_singleton.1 ((List.perm_ext_iff_of_nodup Index.pipesNamed_nodup
        (List.nodup_singleton t)).2 fun s => ?_)
      rw [hnamed, List.mem_singleton]
      constructor
      · rintro ⟨hs, hname⟩
        exact h.only hq s hs hname
      · rintro rfl
        exact ⟨h.stores, h.name_eq⟩

/-- A resource is qualified when the stored pipes that have the names of its references match their
digests; each reference is then pointed at the pipe that it means. -/
theorem qualifyResource_iff (hkeys : (db.pipes.map (·.key)).Nodup) {r q : Resource} :
    db.qualifyResource r = .ok q ↔
      (∀ row ∈ db.rowsNamed r.references, ∃ s, row.Indexes s) ∧ Resource.Repointed db.Means r q := by
  constructor
  · intro h
    obtain ⟨ix, hix, hq⟩ := Result.bind_eq_ok.1 h
    have hindexed := indexed_of_dependencyIndex hix
    refine ⟨fun row hrow => ?_, (repointed_of_resolve hix hq).imp fun k hk t ht =>
      (resolve_iff_means hindexed hk).1 ht⟩
    obtain ⟨s, hs, -⟩ := hindexed.holds row hrow
    exact ⟨s, hs⟩
  · rintro ⟨hrows, hrq⟩
    obtain ⟨ix, hix⟩ := foldlM_indexPipe_succeeds hrows fun a ha b hb hab =>
      List.inj_on_of_nodup_map hkeys (mem_rowsNamed.1 ha).1 (mem_rowsNamed.1 hb).1 hab
    have hq : r.qualify ix.resolve = .ok q := Resource.qualify_of_repointed
      (hrq.imp fun k hk t ht => (resolve_iff_means (indexed_of_foldlM hix) hk).2 ht)
    rw [qualifyResource, dependencyIndex_eq, hix, Result.ok_bind, hq]

theorem Means.unique (h : db.Means k t) {s : Key} (hs : next.Means k s)
    (hstored : ∀ j, db.Stores j → next.Stores j) : t = s := by
  cases hq : k.isQualified with
  | true => rw [h.exact hq, hs.exact hq]
  | false => exact hs.only hq t (hstored t h.stores) h.name_eq

end PagePipes.Database
