import PagePipes.Database.Resources
import PagePipes.Proofs.Index.Coherent
import PagePipes.Proofs.Repointing

set_option autoImplicit false

/-!
# What references of stored resources mean

Whatever is stored is qualified against an index of the stored pipes that have the names in question.
So each of its references becomes the key of a stored pipe of the same name, and a reference that has
a digest stays as it is.
-/
namespace PagePipes

/-- The pipe of a row as an index holds it, when its digest is that of its text. -/
def PipeRow.Indexes (row : PipeRow) (r : Resource) : Prop :=
  ∃ p, row.pipe = .ok p ∧ r = .ofSpec row.key.name (.pipe p) ∧ r.validate = .ok () ∧ r.key = row.key

theorem PipeRow.Indexes.unique {row : PipeRow} {r q : Resource} (hr : row.Indexes r)
    (hq : row.Indexes q) : r = q := by
  obtain ⟨p, hp, rfl, -⟩ := hr
  obtain ⟨p', hp', rfl, -⟩ := hq
  cases hp.symm.trans hp'
  rfl

namespace Database

variable {db : Database} {ix : Index} {k t : Key} {row : PipeRow} {rows : List PipeRow}
  {references : List Key}

/-- Some row of the stored pipes has the key. -/
def Stores (db : Database) (k : Key) : Prop := ∃ row ∈ db.pipes, row.key = k

/-- What a reference may be stored as. -/
structure Resolves (db : Database) (k t : Key) : Prop where
  stores : db.Stores t
  qualified : t.isQualified = true
  valid : t.Valid
  name_eq : t.name = k.name
  exact : k.isQualified = true → t = k

theorem hasPipe_iff : db.hasPipe k = true ↔ db.Stores k := by
  simp [hasPipe, pipeRow?, Stores]

theorem needPipe_eq_ok : db.needPipe k = .ok () ↔ db.Stores k := by
  rw [needPipe, ← hasPipe_iff]
  split <;> simp_all

theorem pipeRow?_eq_some (hnodup : (db.pipes.map (·.key)).Nodup) (hrow : row ∈ db.pipes) :
    db.pipeRow? row.key = some row := Lookup.find?_key hnodup hrow

theorem pipe_eq (hnodup : (db.pipes.map (·.key)).Nodup) (hrow : row ∈ db.pipes) :
    db.pipe row.key = row.pipe := by
  rw [pipe, pipeRow?_eq_some hnodup hrow]

theorem row_of_pipe {p : Pipe} (h : db.pipe k = .ok p) :
    ∃ row ∈ db.pipes, row.key = k ∧ row.pipe = .ok p := by
  unfold pipe at h
  split at h
  · next row hrow => exact ⟨row, List.mem_of_find?_eq_some hrow, by simpa using List.find?_some hrow, h⟩
  · cases h

theorem pipe_eq_ok_iff (hnodup : (db.pipes.map (·.key)).Nodup) {p : Pipe} :
    db.pipe k = .ok p ↔ ∃ row ∈ db.pipes, row.key = k ∧ row.pipe = .ok p := by
  refine ⟨row_of_pipe, ?_⟩
  rintro ⟨row, hrow, rfl, h⟩
  rw [pipe_eq hnodup hrow, h]

theorem stores_of_pipe {p : Pipe} (h : db.pipe k = .ok p) : db.Stores k := by
  obtain ⟨row, hrow, hkey, -⟩ := row_of_pipe h
  exact ⟨row, hrow, hkey⟩

theorem resolve_qualified (hk : k.isQualified = true) :
    db.resolve k = .ok t ↔ db.Stores k ∧ t = k := by
  rw [resolve, if_pos hk, ← hasPipe_iff]
  by_cases h : db.hasPipe k = true
  · simp [h, eq_comm]
  · simp [h]

/-! ## Indexes of stored pipes -/

theorem indexPipe_iff {other : Index} :
    indexPipe ix row = .ok other ↔ ∃ r, row.Indexes r ∧ ix.add r = .ok (other, row.key) := by
  constructor
  · intro h
    obtain ⟨p, hp, h⟩ := Result.bind_eq_ok.1 h
    obtain ⟨⟨added, j⟩, hadd, h⟩ := Result.bind_eq_ok.1 h
    by_cases hj : j = row.key
    · simp only [ne_eq, hj, not_true_eq_false, ↓reduceIte] at h
      cases Result.pure_eq_ok.1 h
      subst hj
      obtain ⟨hvalid, hkey, -⟩ := Index.add_eq_ok.1 hadd
      exact ⟨_, ⟨p, hp, rfl, hvalid, hkey.symm⟩, hadd⟩
    · simp only [ne_eq, hj, not_false_eq_true, ↓reduceIte, Result.throw_bind, reduceCtorEq] at h
  · rintro ⟨r, ⟨p, hp, rfl, -⟩, hadd⟩
    simp [indexPipe, hp, hadd]

/-- An index of the pipes of some rows. -/
structure Indexed (rows : List PipeRow) (ix : Index) : Prop where
  coherent : ix.Coherent
  holds : ∀ row ∈ rows, ∃ r, row.Indexes r ∧ ix.resources[row.key]? = some r
  only : ∀ k ∈ ix.resources, ∃ row ∈ rows, row.key = k

theorem Indexed.concat {other : Index} (h : Indexed rows ix) (hrow : indexPipe ix row = .ok other) :
    Indexed (rows ++ [row]) other := by
  obtain ⟨r, hr, hadd⟩ := indexPipe_iff.1 hrow
  obtain ⟨hnew, hkept, honly⟩ := Index.resources_of_add hadd
  refine ⟨h.coherent.add hadd, List.forall_mem_append.2 ⟨fun s hs => ?_, ?_⟩, fun k hk => ?_⟩
  · obtain ⟨q, hq, hget⟩ := h.holds s hs
    exact ⟨q, hq, hkept _ _ hget⟩
  · exact List.forall_mem_singleton.2 ⟨r, hr, hnew⟩
  · obtain rfl | hk := honly k hk
    · exact ⟨row, by simp, rfl⟩
    · obtain ⟨s, hs, hkey⟩ := h.only k hk
      exact ⟨s, List.mem_append_left _ hs, hkey⟩

theorem indexed_of_foldlM (h : rows.foldlM indexPipe .empty = .ok ix) : Indexed rows ix := by
  induction rows using List.reverseRecOn generalizing ix with
  | nil =>
    cases Result.pure_eq_ok.1 h
    exact ⟨.empty, by simp, fun k hk => by simp [Index.empty] at hk⟩
  | append_singleton rows row ih =>
    obtain ⟨before, hbefore, hrow⟩ := Result.foldlM_concat_eq_ok.1 h
    exact (ih hbefore).concat hrow

/-- The stored pipes that have the name of a reference. -/
def rowsNamed (db : Database) (references : List Key) : List PipeRow :=
  (namesOf references).flatMap fun name => db.pipes.filter (·.key.name == name)

theorem mem_rowsNamed :
    row ∈ db.rowsNamed references ↔ row ∈ db.pipes ∧ ∃ k ∈ references, k.name = row.key.name := by
  simp only [rowsNamed, namesOf, List.mem_flatMap, Std.ExtTreeSet.mem_toList,
    Std.ExtTreeSet.mem_ofList, List.contains_iff_mem, List.mem_map, List.mem_filter, beq_iff_eq]
  constructor
  · rintro ⟨_, ⟨k, hk, rfl⟩, hrow, hname⟩
    exact ⟨hrow, k, hk, hname.symm⟩
  · rintro ⟨hrow, k, hk, hname⟩
    exact ⟨_, ⟨k, hk, rfl⟩, hrow, hname.symm⟩

theorem dependencyIndex_eq (db : Database) (references : List Key) :
    db.dependencyIndex references = (db.rowsNamed references).foldlM indexPipe .empty := by
  unfold dependencyIndex rowsNamed
  generalize namesOf references = names, Index.empty = ix
  induction names generalizing ix with
  | nil => rfl
  | cons name names ih =>
    rw [List.foldlM_cons, List.flatMap_cons, List.foldlM_append]
    exact congrArg _ (funext ih)

theorem indexed_of_dependencyIndex {references : List Key} (h : db.dependencyIndex references = .ok ix) :
    Indexed (db.rowsNamed references) ix := indexed_of_foldlM (dependencyIndex_eq db references ▸ h)

/-! ## Qualification -/

theorem resolves_of_dependencyIndex (h : db.dependencyIndex references = .ok ix)
    (ht : ix.resolve k = .ok t) : db.Resolves k t := by
  have hix := indexed_of_dependencyIndex h
  obtain ⟨hmem, hname⟩ := hix.coherent.mem_pipes_of_resolve ht
  have hresource := hix.coherent.mem_resources_of_pipes hmem
  obtain ⟨row, hrow, rfl⟩ := hix.only t hresource
  refine ⟨⟨row, (mem_rowsNamed.1 hrow).1, rfl⟩, hix.coherent.isQualified hresource,
    hix.coherent.valid_key hresource, hname, fun hk => ?_⟩
  exact ((Index.resolve_qualified hk).1 ht).2

/-- What is qualified points where the index resolves its references to. -/
theorem repointed_of_resolve {r q : Resource} (h : db.dependencyIndex references = .ok ix)
    (hq : r.qualify ix.resolve = .ok q) :
    Resource.Repointed (fun k t => ix.resolve k = .ok t) r q := by
  have hexact : Exact ix.resolve := fun k t ht =>
    ⟨(resolves_of_dependencyIndex h ht).qualified, (resolves_of_dependencyIndex h ht).valid⟩
  have hkeeps : (∅ : Renaming).KeepsNames := fun k t ht => by simp at ht
  have hrq := Resource.repointed_of_qualify hkeeps hexact (Renaming.resource_empty r ▸ hq)
  exact hrq.imp fun k _ t ht => by rwa [Renaming.key_empty] at ht

theorem repointed_of_qualify {r q : Resource} (h : db.dependencyIndex references = .ok ix)
    (hq : r.qualify ix.resolve = .ok q) : Resource.Repointed db.Resolves r q :=
  (repointed_of_resolve h hq).imp fun _ _ _ ht => resolves_of_dependencyIndex h ht

theorem qualifyResource_eq_ok {r q : Resource} (h : db.qualifyResource r = .ok q) :
    Resource.Repointed db.Resolves r q := by
  obtain ⟨ix, hix, hq⟩ := Result.bind_eq_ok.1 h
  exact repointed_of_qualify hix hq

theorem qualifyView_eq_ok {v w : View} (h : db.qualifyView v = .ok w) :
    w.aliasName = v.aliasName ∧ List.Forall₂ (Column.Repointed db.Resolves) v.columns w.columns := by
  obtain ⟨ix, hix, hw⟩ := Result.bind_eq_ok.1 h
  have hq : (Resource.ofSpec "" (.view v)).qualify ix.resolve = .ok (.ofSpec "" (.view w)) := by
    simp only [Resource.qualify, Resource.ofSpec, Spec.qualify, hw]
    rfl
  obtain ⟨-, -, ⟨-, -⟩ | ⟨haliasName, hcolumns⟩ | ⟨-, -, -⟩⟩ := repointed_of_qualify hix hq
  exact ⟨haliasName, hcolumns⟩

theorem qualifyRule_eq_ok {x y : Rule} (h : db.qualifyRule x = .ok y) :
    y.predicate = x.predicate ∧ List.Forall₂ db.Resolves x.pipes y.pipes := by
  obtain ⟨ix, hix, hy⟩ := Result.bind_eq_ok.1 h
  have hq : (Resource.ofSpec "" (.rule x)).qualify ix.resolve = .ok (.ofSpec "" (.rule y)) := by
    simp only [Resource.qualify, Resource.ofSpec, Spec.qualify, hy]
    rfl
  obtain ⟨-, -, hspec⟩ := repointed_of_qualify hix hq
  cases hspec with
  | rule hpredicate _ hpipes => exact ⟨hpredicate, hpipes⟩

theorem resolves_of_mem_references {r q : Resource} (h : Resource.Repointed db.Resolves r q)
    (ht : t ∈ q.references) : ∃ k ∈ r.references, db.Resolves k t := by
  obtain ⟨k, hk, hkt⟩ := Result.exists_of_forall₂ h.references.flip ht
  exact ⟨k, hk, hkt⟩

end Database
end PagePipes
