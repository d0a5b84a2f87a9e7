import PagePipes.Proofs.Database.Qualification
import PagePipes.Proofs.Database.Steps

set_option autoImplicit false

/-!
# Stored resources are read back

The row of a resource keeps each label once and the spec as a text, which is read twice inside an
envelope. A resource of distinct labels whose spec survives this is handed out as it was stored, and
storing it again changes nothing, as long as its references still mean the same.
-/
namespace PagePipes

/-- What a row keeps of the resource is the resource: the row has each label once, and the floats of
a pipe are written and read twice, the second time within an envelope. -/
structure Resource.ReadsBack (q : Resource) : Prop where
  labels : q.metadata.labels.Nodup
  pipe : ∀ p, q.spec = .pipe p → p.reread.reread = p ∧ p.toJson.depth < 127

/-- Reading the text of the spec gives the spec; only the floats of a pipe may be in the way. -/
def Spec.Stable : Spec → Prop
  | .pipe p => p.reread = p
  | .view _ | .rule _ => True

namespace Database

theorem distinct_concat (labels : List String) (l : String) :
    distinct (labels ++ [l]) = insertNew l (distinct labels) := by
  rw [distinct, List.foldl_append]
  rfl

theorem nodup_distinct (labels : List String) : (distinct labels).Nodup := by
  induction labels using List.reverseRecOn with
  | nil => exact List.nodup_nil
  | append_singleton labels l ih =>
    rw [distinct_concat, insertNew]
    split
    · exact ih
    · next hnew =>
      rw [List.nodup_append]
      refine ⟨ih, List.nodup_singleton l, fun a ha b hb => ?_⟩
      rintro rfl
      exact hnew (List.mem_singleton.1 hb ▸ ha)

theorem distinct_eq_self {labels : List String} : distinct labels = labels ↔ labels.Nodup := by
  constructor
  · exact fun h => h ▸ nodup_distinct labels
  · intro h
    induction labels using List.reverseRecOn with
    | nil => rfl
    | append_singleton labels l ih =>
      rw [List.nodup_append] at h
      have hnew : l ∉ labels := fun hl => h.2.2 l hl l (by simp) rfl
      rw [distinct_concat, ih h.1, insertNew, if_neg hnew]

end Database

/-! ## Rows -/

theorem Spec.eq_reread_iff {s : Spec} (hs : s.AsRead) :
    s.valueJson.depth < 127 ∧ s = s.reread ↔
      ∀ p, s = .pipe p → p.reread.reread = p ∧ p.toJson.depth < 127 := by
  cases s with
  | pipe p =>
    simp only [valueJson, Json.depth_reread, reread, pipe.injEq, forall_eq']
    rw [and_comm, eq_comm]
  | view v => simpa [valueJson, reread] using v.depth_toJson.trans_lt (by decide)
  | rule r =>
    have hnormal : r.normalized = r := by rw [Rule.normalized, show r.predicate.normalized = _ from hs]
    simpa [valueJson, reread, hnormal] using r.depth_sortedJson.trans_lt (by decide)

theorem Spec.readable_of_asRead {s : Spec} (hs : s.AsRead) (hkeys : ∀ k ∈ s.references, k.Valid) :
    s.Readable := by
  cases s with
  | pipe p => exact hs
  | view v => exact hkeys
  | rule r => exact hkeys

namespace Resource

variable {q : Resource} {subject : Subject}

theorem resource_row_eq_ok (hread : q.AsRead) (hname : Key.validateName q.name = .ok ())
    (hkeys : ∀ k ∈ q.references, k.Valid) (hkind : subject.kind = q.kind) :
    (q.row subject).resource = .ok q ↔ q.ReadsBack := by
  have hrow : (q.row subject).kind = q.spec.kind := hkind
  refine (ResourceRow.resource_eq_ok rfl hrow hname (Spec.readable_of_asRead hread hkeys)).trans ?_
  obtain ⟨version, ⟨name, description, labels⟩, spec⟩ := q
  simp only [row, key, Resource.name, mk.injEq, Metadata.mk.injEq, true_and]
  constructor
  · rintro ⟨hdepth, ⟨-, hlabels⟩, hspec⟩
    exact ⟨Database.distinct_eq_self.1 hlabels.symm, (Spec.eq_reread_iff hread).1 ⟨hdepth, hspec⟩⟩
  · rintro ⟨hlabels, hpipe⟩
    obtain ⟨hdepth, hspec⟩ := (Spec.eq_reread_iff hread).2 hpipe
    exact ⟨hdepth, ⟨rfl, (Database.distinct_eq_self.2 hlabels).symm⟩, hspec⟩

end Resource

namespace Database

variable {db next : Database} {u : Uuid} {k : Key} {r q : Resource} {row : ResourceRow}

theorem resourceRow?_eq_some (hnodup : (db.resources.map (·.key)).Nodup) (hk : k.isQualified = true) :
    db.resourceRow? k = .ok (some row) ↔ row ∈ db.resources ∧ row.key = k := by
  constructor
  · intro h
    obtain ⟨hrow, hkey⟩ := mem_of_resourceRow? h
    exact ⟨hrow, hkey hk⟩
  · rintro ⟨hrow, rfl⟩
    rw [resourceRow?_eq_ok, resourceRows, if_pos hk, Lookup.filter_key hnodup hrow]
    rfl

theorem storedResource_eq (hnodup : (db.resources.map (·.key)).Nodup) (hrow : row ∈ db.resources)
    (hk : row.key.isQualified = true) :
    db.storedResource row.key = StoredResource.mk row.key <$> row.resource := by
  rw [storedResource, resourceRow, (resourceRow?_eq_some hnodup hk).2 ⟨hrow, rfl⟩]
  rfl

theorem storedResource_eq_ok (hnodup : (db.resources.map (·.key)).Nodup) (hrow : row ∈ db.resources)
    (hk : row.key.isQualified = true) :
    db.storedResource row.key = .ok ⟨row.key, q⟩ ↔ row.resource = .ok q := by
  simp [storedResource_eq hnodup hrow hk, Result.map_eq_ok]

/-! ## Created rows -/

theorem Created.exists_row (h : Created db u q next) : ∃ subject : Subject, subject.kind = q.kind ∧
    next.resources = db.resources ++ [q.row subject] ∧
      (next.pipes = db.pipes ∨ ∃ p, q.spec = .pipe p ∧ ¬ db.Stores q.key ∧
        next.pipes = db.pipes ++ [⟨q.key, p.toJson.compact, false⟩]) := by
  cases h with
  | @pipe p hq =>
    refine ⟨.pipe, by rw [Resource.kind, hq]; rfl, rfl, ?_⟩
    obtain ⟨-, h⟩ | ⟨hnew, h⟩ := insertPipe_eq db q.key p
    · exact .inl (by rw [h])
    · exact .inr ⟨p, hq, hnew, by rw [h]⟩
  | @view v viewed stored hq hv =>
    obtain ⟨views, viewPipes, objects, rfl⟩ := insertView_frame hv
    exact ⟨.view u, by rw [Resource.kind, hq]; rfl, rfl, .inl rfl⟩
  | @rule x conditions links hq hstored hlinks =>
    exact ⟨.rule x.predicate.condition, by rw [Resource.kind, hq]; rfl, rfl, .inl rfl⟩

theorem Created.stores_iff (h : Created db u q next) :
    next.Stores k ↔ db.Stores k ∨ ((∃ p, q.spec = .pipe p) ∧ k = q.key) := by
  cases h with
  | @pipe p hq =>
    obtain ⟨hk, h⟩ | ⟨-, h⟩ := insertPipe_eq db q.key p
    · rw [h]
      refine ⟨.inl, ?_⟩
      rintro (hstored | ⟨-, rfl⟩)
      exacts [hstored, hk]
    · simp [Stores, h, hq, or_and_right, exists_or, eq_comm]
  | @view v viewed stored hq hv =>
    obtain ⟨views, viewPipes, objects, rfl⟩ := insertView_frame hv
    simp [Stores, hq]
  | @rule x conditions links hq hstored hlinks => simp [Stores, hq]

theorem Created.means {t : Key} (h : Created db u q next)
    (hself : ∀ p, q.spec = .pipe p → k.name = q.name → k.isQualified = true) (hk : db.Means k t) :
    next.Means k t where
  stores := h.stores_iff.2 (.inl hk.stores)
  name_eq := hk.name_eq
  exact := hk.exact
  only hbare s hs hname := by
    obtain hs | ⟨⟨p, hp⟩, rfl⟩ := h.stores_iff.1 hs
    · exact hk.only hbare s hs hname
    · simp [hself p hp hname.symm] at hbare

theorem Stores.createResource (h : db.createResource u r = .ok (next, k)) {j : Key}
    (hj : db.Stores j) : next.Stores j := by
  obtain ⟨-, q, -, -, ⟨rfl, -⟩ | ⟨-, hcreated⟩⟩ := createResource_eq_ok h
  · exact hj
  · exact hcreated.stores_iff.2 (.inl hj)

/-! ## Storing a resource again -/

/-- Where pipes have only been added, a resource that can still be qualified comes to the same. -/
theorem eq_of_qualifyResource (hdb : (db.pipes.map (·.key)).Nodup)
    (hnext : (next.pipes.map (·.key)).Nodup) (hstored : ∀ k, db.Stores k → next.Stores k)
    {q' : Resource} (hq : db.qualifyResource r = .ok q) (hq' : next.qualifyResource r = .ok q') :
    q' = q := by
  obtain ⟨hrows, hafter⟩ := (qualifyResource_iff hnext).1 hq'
  obtain ⟨-, hbefore⟩ := (qualifyResource_iff hdb).1 hq
  have hsame : Resource.Repointed next.Means r q := hbefore.imp fun k hk t ht => by
    obtain ⟨s, -, hs⟩ := Result.exists_of_forall₂ hafter.references hk
    rwa [ht.unique hs hstored]
  exact Except.ok.inj (hq'.symm.trans ((qualifyResource_iff hnext).2 ⟨hrows, hsame⟩))

theorem indexes_of_stable {p : Pipe} (hspec : q.spec = .pipe p) (hread : p.Readable)
    (hstable : p.reread = p) (hname : Key.validateName q.name = .ok ()) (hvalid : p.validate = .ok ()) :
    PipeRow.Indexes ⟨q.key, p.toJson.compact, false⟩ (.ofSpec q.name (.pipe p)) := by
  refine ⟨p, ?_, rfl, ?_, ?_⟩
  · rw [PipeRow.pipe, Pipe.ofText_compact hread, hstable]
  · exact Resource.validate_eq_ok.2 ⟨rfl, hname, hvalid⟩
  · rw [Resource.key, Resource.key, hspec]
    rfl

/-- A resource that was qualified is qualified to the same once it is stored, unless a bare reference
of its own name has become ambiguous or its own row does not match its digest. -/
theorem Created.qualifyResource_eq (h : Created db u q next) (hdb : (db.pipes.map (·.key)).Nodup)
    (hnext : (next.pipes.map (·.key)).Nodup) (hvalid : r.validate = .ok ()) (hread : r.AsRead)
    (hq : db.qualifyResource r = .ok q) (hstable : q.spec.Stable)
    (hself : ∀ k ∈ r.references, k.name = r.name → k.isQualified = true) :
    next.qualifyResource r = .ok q := by
  obtain ⟨hrows, hrq⟩ := (qualifyResource_iff hdb).1 hq
  have hname : q.name = r.name := by rw [Resource.name, hrq.metadata, Resource.name]
  refine (qualifyResource_iff hnext).2 ⟨fun row hrow => ?_, hrq.imp fun k hk t ht =>
    h.means (fun _ _ hkey => hself k hk (hkey.trans hname)) ht⟩
  obtain ⟨hrow, hnamed⟩ := mem_rowsNamed.1 hrow
  obtain ⟨subject, -, -, hpipes | ⟨p, hspec, -, hpipes⟩⟩ := h.exists_row
  · exact hrows row (mem_rowsNamed.2 ⟨hpipes ▸ hrow, hnamed⟩)
  · rw [hpipes, List.mem_append, List.mem_singleton] at hrow
    obtain hrow | rfl := hrow
    · exact hrows row (mem_rowsNamed.2 ⟨hrow, hnamed⟩)
    · obtain ⟨-, hrname, hrvalid⟩ := Resource.validate_eq_ok.1 hvalid
      have hqread := hrq.asRead hread
      obtain ⟨p₀, hr, -, hactions⟩ := hrq.of_pipe hspec
      rw [Resource.AsRead, hspec] at hqread
      rw [hspec] at hstable
      rw [Resource.name] at hrname
      rw [hr] at hrvalid
      exact ⟨_, indexes_of_stable hspec hqread hstable (hname ▸ hrname)
        (Pipe.validate_of_repointed hactions hrvalid)⟩

/-- When a resource is stored already, storing it succeeds if its row reads back as the resource. -/
theorem createResource_of_stored (hkeys : (next.resources.map (·.key)).Nodup) (hvalid : r.validate = .ok ())
    (hq : next.qualifyResource r = .ok q) (hrow : row ∈ next.resources) (hkey : row.key = q.key) :
    next.createResource u r = .ok (next, q.key) ↔ row.resource = .ok q := by
  have hfound := (resourceRow?_eq_some hkeys rfl).2 ⟨hrow, hkey⟩
  simp only [createResource, hvalid, hq, hfound, Result.ok_bind]
  cases row.resource with
  | error e => simp
  | ok stored => by_cases hsame : stored = q <;> simp [hsame]

/-! ## Listing -/

/-- Every stored resource reads back under its key. -/
def Faithful (db : Database) : Prop :=
  ∀ row ∈ db.resources, ∃ s, row.resource = .ok s ∧ s.key = row.key

/-- The list of stored resources has one entry for each of them, under its key. -/
theorem Faithful.listed (hdb : db.Faithful) (hnodup : (db.resources.map (·.key)).Nodup)
    (hrow : row ∈ db.resources) (hq : row.resource = .ok q) :
    ∃ all, db.listResources none = .ok all ∧ all.filter (·.id == row.key) = [⟨row.key, q⟩] := by
  have hfilter : (db.resources.filter fun r => ((none : Option Kind).map (· == r.kind)).getD true) =
      db.resources := List.filter_eq_self.2 fun _ _ => rfl
  have hperm := List.mergeSort_perm db.resources fun a b => listedBefore a.key b.key
  generalize hsorted : (db.resources.mergeSort fun a b => listedBefore a.key b.key) = sorted at hperm
  simp only [listResources, hfilter, hsorted]
  obtain ⟨all, hall⟩ := @Result.mapM_succeeds _ _ _ (fun row : ResourceRow =>
      row.resource >>= fun r => pure (StoredResource.mk r.key r)) sorted fun other hother => by
    obtain ⟨s, hs, -⟩ := hdb other (hperm.mem_iff.1 hother)
    exact ⟨⟨s.key, s⟩, by rw [hs]; rfl⟩
  have hentries : List.Forall₂ (fun (other : ResourceRow) (s : StoredResource) =>
      other.resource = .ok s.resource ∧ s.id = other.key) sorted all := by
    have hstored := (List.forall₂_and_left sorted all).2
      ⟨fun other hother => hperm.mem_iff.1 hother, Result.mapM_eq_ok.1 hall⟩
    refine hstored.imp ?_
    rintro other s ⟨hother, h⟩
    obtain ⟨read, hread, hs⟩ := Result.bind_eq_ok.1 h
    cases Result.pure_eq_ok.1 hs
    obtain ⟨_, hread', hkey⟩ := hdb other hother
    cases hread.symm.trans hread'
    exact ⟨hread, hkey⟩
  have hids : (all.map (·.id)).Nodup := by
    have hkeys : all.map (·.id) = sorted.map (·.key) :=
      Result.map_eq_of_forall₂ hentries.flip fun s other h => h.2
    rw [hkeys]
    exact (hperm.map _).nodup_iff.2 hnodup
  obtain ⟨⟨id, read⟩, hs, hread, hid⟩ := Result.exists_of_forall₂ hentries (hperm.mem_iff.2 hrow)
  cases hq.symm.trans hread
  cases hid
  exact ⟨all, hall, Lookup.filter_key hids hs⟩

/-! ## Created resources -/

/-- The row of a created resource. It reads back as the resource when it was there before, or when
it keeps the resource. -/
theorem Sound.row_of_createResource (hs : db.Sound) (hr : r.AsRead)
    (h : db.createResource u r = .ok (next, k)) :
    ∃ q row, db.qualifyResource r = .ok q ∧ k = q.key ∧ row.key = q.key ∧
      (row.resource = .ok q ↔ next = db ∨ q.ReadsBack) ∧
      ∀ other, other ∈ next.resources ↔ other ∈ db.resources ∨ other = row := by
  obtain ⟨hvalid, q, hq, rfl, ⟨rfl, row, hrow, hkey, hreads⟩ | ⟨hfresh, hcreated⟩⟩ :=
    createResource_eq_ok h
  · exact ⟨q, row, hq, rfl, hkey, iff_of_true hreads (.inl rfl), fun other =>
      ⟨.inl, fun hother => hother.elim id fun heq => heq ▸ hrow⟩⟩
  · obtain ⟨subject, hkind, hresources, -⟩ := hcreated.exists_row
    have hrq := qualifyResource_eq_ok hq
    have hname : Key.validateName q.name = .ok () := by
      rw [Resource.name, hrq.metadata]
      exact (Resource.validate_eq_ok.1 hvalid).2.1
    have hkeys : ∀ t ∈ q.references, t.Valid := fun t ht => by
      obtain ⟨_, -, hkt⟩ := resolves_of_mem_references hrq ht
      exact hkt.valid
    have hnew : next ≠ db := by
      rintro rfl
      simp at hresources
    refine ⟨q, q.row subject, hq, rfl, rfl, ?_, fun other => by simp [hresources]⟩
    rw [Resource.resource_row_eq_ok (hrq.asRead hr) hname hkeys hkind]
    exact (or_iff_right hnew).symm

/-- A created resource is qualified, and stored under the key that it then has. It is read back if
its row keeps it, and listed once if every other row is kept too. Storing it again changes nothing
just when it is read back and its references still mean the same, which they do when none of them
is a bare name that the resource has taken itself. -/
theorem created_reads_back (cs : List Change) (hcs : ∀ c ∈ cs, c.AsRead) (hr : r.AsRead)
    (h : (ofChanges cs).createResource u r = .ok (next, k)) :
    ∃ q, (ofChanges cs).qualifyResource r = .ok q ∧ k = q.key ∧
      (next.storedResource k = .ok ⟨k, q⟩ ↔ next = ofChanges cs ∨ q.ReadsBack) ∧
      (next.storedResource k = .ok ⟨k, q⟩ → (ofChanges cs).Faithful → next.Faithful ∧
        ∃ all, next.listResources none = .ok all ∧ all.filter (·.id == k) = [⟨k, q⟩]) ∧
      (∀ v, next.createResource v r = .ok (next, k) ↔
        next.storedResource k = .ok ⟨k, q⟩ ∧ next.qualifyResource r = .ok q) ∧
      (q.spec.Stable → (∀ j ∈ r.references, j.name = r.name → j.isQualified = true) →
        next.qualifyResource r = .ok q) := by
  have hs := sound_ofChanges hcs
  have hnext : next.Sound := hs.createResource hr h
  obtain ⟨hvalid, -⟩ := createResource_eq_ok h
  obtain ⟨q, row, hq, rfl, hkey, hreads, hrows⟩ := hs.row_of_createResource hr h
  have hrow : row ∈ next.resources := (hrows row).2 (.inr rfl)
  have hstored : next.storedResource q.key = .ok ⟨q.key, q⟩ ↔ row.resource = .ok q := by
    rw [← hkey]
    exact storedResource_eq_ok hnext.rules.keys hrow (hkey ▸ rfl)
  refine ⟨q, hq, rfl, hstored.trans hreads, fun hback hdb => ?_, fun v => ?_, fun hstable hself => ?_⟩
  · have hfaithful : next.Faithful := fun other hother => by
      obtain hother | rfl := (hrows other).1 hother
      · exact hdb other hother
      · exact ⟨q, hstored.1 hback, hkey.symm⟩
    refine ⟨hfaithful, ?_⟩
    rw [← hkey]
    exact hfaithful.listed hnext.rules.keys hrow (hstored.1 hback)
  · constructor
    · intro hagain
      obtain ⟨-, q', hq', -, -⟩ := createResource_eq_ok hagain
      cases eq_of_qualifyResource hs.pipes.keys hnext.pipes.keys (fun _ => .createResource h) hq hq'
      rw [createResource_of_stored hnext.rules.keys hvalid hq' hrow hkey] at hagain
      exact ⟨hstored.2 hagain, hq'⟩
    · rintro ⟨hback, hagain⟩
      exact (createResource_of_stored hnext.rules.keys hvalid hagain hrow hkey).2 (hstored.1 hback)
  · obtain ⟨-, q', hq', -, ⟨rfl, -⟩ | ⟨-, hcreated⟩⟩ := createResource_eq_ok h
    · exact hq
    · cases hq.symm.trans hq'
      exact hcreated.qualifyResource_eq hs.pipes.keys hnext.pipes.keys hvalid hr hq hstable hself

/-- A title with a label that it has already. -/
def twiceLabelled : Resource :=
  { Resource.ofSpec "title" (.pipe ⟨[.ofKind .document], {}⟩) with
    metadata := { name := "title", labels := ["page", "page"] } }

theorem twice_labelled_not_read_back :
    twiceLabelled.AsRead ∧ ∃ next k, Database.empty.createResource ⟨1⟩ twiceLabelled = .ok (next, k) ∧
      (∀ q, Database.empty.qualifyResource twiceLabelled = .ok q →
        next.storedResource k ≠ .ok ⟨k, q⟩) ∧
      ∀ v, next.createResource v twiceLabelled ≠ .ok (next, k) := by
  have hread : twiceLabelled.AsRead := List.forall_mem_singleton.2 (Action.readable_ofKind _)
  have hrun : (Database.empty.createResource ⟨1⟩ twiceLabelled).toOption.any (fun made =>
      made.1.resources.length == 1) = true := by decide +kernel
  obtain ⟨⟨next, k⟩, h, hlength⟩ := Result.exists_ok_of_any hrun
  obtain ⟨q, hq, rfl, hstored, -, hagain, -⟩ :=
    created_reads_back [] (by simp) hread h
  have hlost : next.storedResource q.key ≠ .ok ⟨q.key, q⟩ := by
    rw [ne_eq, hstored, not_or]
    constructor
    · rintro rfl
      simp [ofChanges, Database.empty] at hlength
    · intro hback
      have hlabels := hback.labels
      rw [(qualifyResource_eq_ok hq).metadata] at hlabels
      simp [twiceLabelled] at hlabels
  refine ⟨hread, next, q.key, h, fun q' hq' => ?_, fun v hv => hlost ((hagain v).1 hv).1⟩
  cases hq.symm.trans hq'
  exact hlost

end Database
end PagePipes
